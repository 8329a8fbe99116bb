import ClaudeHub.AgentStream.Snapshot
import ClaudeHub.Lib.Runs

/-! # Published once over all snapshots

Whatever snapshots are read, the rows that a process has published, and those that its cursor told
of, are the rows of the last snapshot that continued them, and terminal markers that were replaced.
-/

namespace ClaudeHub

open StepSystem

variable {σ ρ κ : Type} (source : SnapshotSource σ ρ κ)

namespace SnapshotSource

def isPlain (id : SourceId ρ) : Bool := source.kindOf id.row != "turn_ended"

/-- A snapshot continues the rows before: they are at its front, all but a terminal marker at their
end. -/
def Continues (before ids : List (SourceId ρ)) : Prop :=
  before <+: ids ∨ ∃ front last, before = front ++ [last] ∧ source.isPlain last = false ∧
    front <+: ids

def idsOf [DecidableEq ρ] (content : κ) : Option (List (SourceId ρ)) :=
  (source.readSnapshot content).map fun records => records.map SnapshotRecord.sourceId

end SnapshotSource

section Ids

variable [DecidableEq ρ] {source} {seen rows : List ρ}

theorem le_occurrence {id : SourceId ρ}
    (h : id ∈ (source.recordsFrom seen rows).map SnapshotRecord.sourceId) :
    seen.count id.row ≤ id.occurrence := by
  induction rows generalizing seen with
  | nil => exact absurd h List.not_mem_nil
  | cons row rows ih =>
    rw [SnapshotSource.recordsFrom, List.map_cons, List.mem_cons] at h
    rcases h with rfl | h
    · exact le_refl _
    · have hle := ih h
      rw [List.count_append] at hle
      omega

theorem nodup_ids (seen rows : List ρ) :
    ((source.recordsFrom seen rows).map SnapshotRecord.sourceId).Nodup := by
  induction rows generalizing seen with
  | nil => exact List.nodup_nil
  | cons row rows ih =>
    rw [SnapshotSource.recordsFrom, List.map_cons, List.nodup_cons]
    constructor
    · intro hmem
      have hle := le_occurrence hmem
      rw [List.count_append, List.count_singleton_self] at hle
      exact absurd hle (Nat.not_succ_le_self _)
    · exact ih _

theorem kinds_eq (seen rows : List ρ) :
    (source.recordsFrom seen rows).map SnapshotRecord.sourceKind =
      ((source.recordsFrom seen rows).map SnapshotRecord.sourceId).map
        fun id => source.kindOf id.row := by
  induction rows generalizing seen with
  | nil => rfl
  | cons row rows ih => simp only [SnapshotSource.recordsFrom, List.map_cons, ih]

theorem raws_eq (seen rows : List ρ) :
    (source.recordsFrom seen rows).map SnapshotRecord.raw =
      ((source.recordsFrom seen rows).map SnapshotRecord.sourceId).map SourceId.row := by
  induction rows generalizing seen with
  | nil => rfl
  | cons row rows ih => simp only [SnapshotSource.recordsFrom, List.map_cons, ih]

/-- What the records of a snapshot are like. -/
structure RecordsOk (source : SnapshotSource σ ρ κ) (records : List (SnapshotRecord ρ)) : Prop where
  nodup : (records.map SnapshotRecord.sourceId).Nodup
  kinds : records.map SnapshotRecord.sourceKind =
    (records.map SnapshotRecord.sourceId).map fun id => source.kindOf id.row
  raws : records.map SnapshotRecord.raw =
    (records.map SnapshotRecord.sourceId).map SourceId.row

theorem recordsOk {content : κ} {records : List (SnapshotRecord ρ)}
    (h : source.readSnapshot content = some records) : RecordsOk source records := by
  rw [SnapshotSource.readSnapshot, Option.map_eq_some_iff] at h
  obtain ⟨rows, -, rfl⟩ := h
  exact ⟨nodup_ids [] rows, kinds_eq [] rows, raws_eq [] rows⟩

end Ids

section Publishing

variable {source} {tailer : SnapshotTailer σ ρ κ}

theorem publishEvents_stored (runEpoch : Nat) (events : List StreamEvent) :
    SnapshotTailer.publishEvents source runEpoch none events =
      (source.stampAll runEpoch events, epochAfter runEpoch events, none, true) := by
  induction events generalizing runEpoch with
  | nil => rfl
  | cons event events ih =>
    rw [SnapshotTailer.publishEvents, if_neg (by simp)]
    simp only [Option.map_none, ih, TranscriptSource.stampAll]
    rfl

theorem took_took (first second : σ) (ids more : List (SourceId ρ))
    (handed later : List StreamEvent) :
    (tailer.took first ids handed).took second more later =
      tailer.took second (ids ++ more) (handed ++ later) := by
  simp only [SnapshotTailer.took, List.append_assoc]

theorem took_nil : tailer.took tailer.adapter [] [] = tailer := by
  simp only [SnapshotTailer.took, List.append_nil]

theorem publishRecords_stored (ctxEpoch runEpoch : Nat) (records : List (SnapshotRecord ρ)) :
    ∃ adapter events,
      (∀ done raw, source.Normalizes done raw →
        source.Normalizes (done ++ records.map SnapshotRecord.raw) (raw ++ events)) ∧
      SnapshotTailer.publishRecords source ctxEpoch tailer runEpoch none records =
        (tailer.took adapter (records.map SnapshotRecord.sourceId) (source.stampAll runEpoch events),
          epochAfter runEpoch events, true) := by
  induction records generalizing tailer runEpoch with
  | nil =>
    refine ⟨tailer.adapter, [], ?_, ?_⟩
    · intro done raw hdone
      rw [List.map_nil, List.append_nil, List.append_nil]
      exact hdone
    · rw [SnapshotTailer.publishRecords, List.map_nil, TranscriptSource.stampAll, took_nil]
      rfl
  | cons record records ih =>
    have hnext {done : List ρ} {raw : List StreamEvent} (hdone : source.Normalizes done raw) :=
      hdone.snoc record.raw tailer.adapter ctxEpoch
    generalize hnormalized : source.normalizeLine tailer.adapter ctxEpoch record.raw = normalized
      at hnext
    obtain ⟨adapter, events, hevents, heq⟩ := @ih
      (tailer.took normalized.2 [record.sourceId]
        (source.stampAll runEpoch (normalized.1.getD [])))
      (epochAfter runEpoch (normalized.1.getD []))
    refine ⟨adapter, normalized.1.getD [] ++ events, ?_, ?_⟩
    · intro done raw hdone
      have hall := hevents _ _ (hnext hdone)
      rw [List.append_assoc, List.append_assoc] at hall
      exact hall
    · simp only [SnapshotTailer.publishRecords, hnormalized, publishEvents_stored, ↓reduceIte, heq,
        took_took, source.stampAll_append, List.singleton_append, List.map_cons]
      rw [epochAfter, epochAfter, epochAfter, List.foldl_append]

end Publishing

/-! ## One snapshot -/

section Reading

variable [DecidableEq ρ] {source} {tailer : SnapshotTailer σ ρ κ}

/-- The kinds that a tailer or a cursor keeps beside its ids. -/
def KindsOk (source : SnapshotSource σ ρ κ) (ids : List (SourceId ρ)) (kinds : List String) : Prop :=
  kinds = ids.map fun id => source.kindOf id.row

/-- Nothing, or a terminal marker, is behind these rows. -/
def UpToMarker (source : SnapshotSource σ ρ κ) (front ids : List (SourceId ρ)) : Prop :=
  ids = front ∨ ∃ last, source.isPlain last = false ∧ ids = front ++ [last]

omit [DecidableEq ρ] in
theorem UpToMarker.plain_eq {front ids : List (SourceId ρ)} (h : UpToMarker source front ids) :
    ids.filter source.isPlain = front.filter source.isPlain := by
  rcases h with rfl | ⟨last, hlast, rfl⟩
  · rfl
  · rw [List.filter_append, List.filter_singleton, hlast]
    simp

omit [DecidableEq ρ] in
theorem UpToMarker.sublist {front ids : List (SourceId ρ)} (h : UpToMarker source front ids) :
    front.Sublist ids := by
  rcases h with rfl | ⟨last, -, rfl⟩
  · exact List.Sublist.refl _
  · exact List.sublist_append_left _ _

theorem priorCount_some {ids : List (SourceId ρ)} {prior : Nat}
    (hkinds : KindsOk source tailer.snapshotSourceIds tailer.snapshotSourceKinds)
    (h : tailer.priorCount ids = some prior) :
    UpToMarker source (ids.take prior) tailer.snapshotSourceIds := by
  unfold SnapshotTailer.priorCount at h
  simp only at h
  split at h
  · rename_i hfront
    rw [← Option.some.inj h]
    exact .inl hfront.symm
  · split at h
    · rename_i hmarker
      obtain ⟨hne, -, hlast, hfront⟩ := hmarker
      have hids : tailer.snapshotSourceIds ≠ [] := fun hnil => hne (by rw [hnil]; rfl)
      rw [← Option.some.inj h, hfront, ← List.dropLast_eq_take]
      refine .inr ⟨tailer.snapshotSourceIds.getLast hids, ?_,
        (List.dropLast_append_getLast hids).symm⟩
      rw [hkinds, List.getLast?_map, List.getLast?_eq_some_getLast hids, Option.map_some] at hlast
      rw [SnapshotSource.isPlain, Option.some.inj hlast]
      rfl
    · exact absurd h (by simp)

theorem priorCount_none {ids : List (SourceId ρ)}
    (hkinds : KindsOk source tailer.snapshotSourceIds tailer.snapshotSourceKinds)
    (h : tailer.priorCount ids = none) : ¬ source.Continues tailer.snapshotSourceIds ids := by
  unfold SnapshotTailer.priorCount at h
  simp only at h
  split at h
  · exact absurd h (by simp)
  · rename_i hfront
    split at h
    · exact absurd h (by simp)
    · rename_i hmarker
      rintro (hfrontOf | ⟨front, last, heq, hlast, hfrontOf⟩)
      · exact hfront (List.prefix_iff_eq_take.mp hfrontOf).symm
      · apply hmarker
        rw [hkinds, heq]
        refine ⟨by simp, by simp, ?_, ?_⟩
        · rw [List.map_append, List.map_singleton, List.getLast?_concat]
          simpa [SnapshotSource.isPlain] using hlast
        · rw [List.length_append, List.length_singleton, Nat.add_sub_cancel, List.take_left]
          exact (List.prefix_iff_eq_take.mp hfrontOf).symm

/-- What `_tail_snapshot` does, and whether it saves the cursor. -/
inductive SnapshotOutcome (source : SnapshotSource σ ρ κ) (tailer : SnapshotTailer σ ρ κ)
    (content : Option κ) : SnapshotTailer σ ρ κ → Bool → Prop
  | unread (h : content.bind source.idsOf = none) : SnapshotOutcome source tailer content tailer false
  | emptied (h : content.bind source.idsOf = some []) :
      SnapshotOutcome source tailer content tailer false
  | emptyStart (h : content.bind source.idsOf = some []) (hids : tailer.snapshotSourceIds = []) :
      SnapshotOutcome source tailer content
        { tailer with snapshotDigest := content, isLive := true } true
  | known (h : tailer.snapshotDigest = content) :
      SnapshotOutcome source tailer content { tailer with isLive := true } false
  | nothingNew {ids : List (SourceId ρ)} (h : content.bind source.idsOf = some ids)
      (hids : UpToMarker source ids tailer.snapshotSourceIds) :
      SnapshotOutcome source tailer content
        { tailer with snapshotDigest := content, isLive := true } true
  | rewritten {ids : List (SourceId ρ)} (h : content.bind source.idsOf = some ids)
      (hids : ¬ source.Continues tailer.snapshotSourceIds ids) :
      SnapshotOutcome source tailer content
        { tailer with hardFailed := true, lastError := some .rewroteHistory } false
  | published {front new : List (SourceId ρ)} {adapter : σ} {events : List StreamEvent}
      {kinds : List String} (h : content.bind source.idsOf = some (front ++ new))
      (hids : UpToMarker source front tailer.snapshotSourceIds)
      (hnodup : (front ++ new).Nodup) (hkinds : KindsOk source (front ++ new) kinds)
      (hevents : ∀ done raw, source.Normalizes done raw →
        source.Normalizes (done ++ new.map SourceId.row) (raw ++ events)) :
      SnapshotOutcome source tailer content
        { tailer.took adapter new (source.stampAll tailer.runEpoch events) with
          runEpoch := epochAfter tailer.runEpoch events
          snapshotDigest := content
          snapshotSourceIds := front ++ new
          snapshotSourceKinds := kinds
          isLive := true } true

theorem tailSnapshot_outcome [DecidableEq κ]
    (hkinds : KindsOk source tailer.snapshotSourceIds tailer.snapshotSourceKinds)
    (content : Option κ) :
    SnapshotOutcome source tailer content (tailer.tailSnapshot source content none).1
      (tailer.tailSnapshot source content none).2 := by
  unfold SnapshotTailer.tailSnapshot
  cases content with
  | none => exact .unread rfl
  | some content =>
    rw [Option.bind_some]
    cases hread : source.readSnapshot content with
    | none => exact .unread (by rw [Option.bind_some, SnapshotSource.idsOf, hread]; rfl)
    | some records =>
      have hok := recordsOk hread
      have hids : (some content).bind source.idsOf =
          some (records.map SnapshotRecord.sourceId) := by
        rw [Option.bind_some, SnapshotSource.idsOf, hread]
        rfl
      simp only
      split
      · rename_i hempty
        rw [hempty, List.map_nil] at hids
        split
        · exact .emptied hids
        · rename_i hnone
          exact .emptyStart hids (not_not.mp hnone)
      · split
        · rename_i hdigest
          exact .known hdigest
        · cases hprior : tailer.priorCount (records.map SnapshotRecord.sourceId) with
          | none => exact .rewritten hids (priorCount_none hkinds hprior)
          | some prior =>
            have hmarker := priorCount_some hkinds hprior
            rw [← List.map_take] at hmarker
            simp only
            split
            · rename_i hnew
              rw [← List.take_append_drop prior records, hnew, List.append_nil] at hids
              exact .nothingNew hids hmarker
            · obtain ⟨adapter, events, hevents, heq⟩ := @publishRecords_stored _ _ _ source
                tailer tailer.runEpoch tailer.runEpoch (records.drop prior)
              have hsplit : records.map SnapshotRecord.sourceId =
                  (records.take prior).map SnapshotRecord.sourceId ++
                    (records.drop prior).map SnapshotRecord.sourceId := by
                rw [← List.map_append, List.take_append_drop]
              have hraws : (records.drop prior).map SnapshotRecord.raw =
                  ((records.drop prior).map SnapshotRecord.sourceId).map SourceId.row := by
                have hall := congrArg (List.drop prior) hok.raws
                rwa [← List.map_drop, ← List.map_drop, ← List.map_drop] at hall
              have hnodup := hok.nodup
              have hkindsOk : KindsOk source (records.map SnapshotRecord.sourceId)
                  (records.map SnapshotRecord.sourceKind) := hok.kinds
              rw [hsplit] at hids hnodup hkindsOk
              rw [hraws] at hevents
              simp only [heq, ↓reduceIte]
              rw [hsplit]
              exact .published hids hmarker hnodup hkindsOk hevents

end Reading

/-! ## The invariant -/

section Invariant

variable [DecidableEq ρ] {source : SnapshotSource σ ρ κ} {run : SnapshotRun σ ρ κ}
  {tailer : SnapshotTailer σ ρ κ} {cursor : SnapshotCursor ρ κ}

def DigestOk (source : SnapshotSource σ ρ κ) (ids : List (SourceId ρ)) (digest : Option κ) : Prop :=
  ∀ content ∈ digest, ∃ front, source.idsOf content = some front ∧ UpToMarker source front ids

/-- A cursor describes rows that were published. -/
structure CursorOk (source : SnapshotSource σ ρ κ) (ever : List (SourceId ρ))
    (cursor : SnapshotCursor ρ κ) : Prop where
  kinds : KindsOk source cursor.snapshotSourceIds cursor.snapshotSourceKinds
  nodup : cursor.snapshotSourceIds.Nodup
  digest : DigestOk source cursor.snapshotSourceIds cursor.snapshotDigest
  published : cursor.snapshotSourceIds.Sublist ever

/-- A tailer describes what it has published and was told of, but for replaced markers. -/
structure TailerOk (source : SnapshotSource σ ρ κ) (run : SnapshotRun σ ρ κ)
    (tailer : SnapshotTailer σ ρ κ) : Prop where
  kinds : KindsOk source tailer.snapshotSourceIds tailer.snapshotSourceKinds
  nodup : tailer.snapshotSourceIds.Nodup
  digest : DigestOk source tailer.snapshotSourceIds tailer.snapshotDigest
  plain : (run.told ++ tailer.published).filter source.isPlain =
    tailer.snapshotSourceIds.filter source.isPlain
  taken : tailer.snapshotSourceIds.Sublist (run.told ++ tailer.published)
  normalized : ∃ events, source.Normalizes (tailer.published.map SourceId.row) events ∧
    tailer.handed = source.stampAll run.toldEpoch events ∧
    tailer.runEpoch = epochAfter run.toldEpoch events
  ever : ∃ before, run.everPublished = before ++ tailer.published ∧ run.told.Sublist before
  fresh : tailer.loadedCursor = false →
    tailer.published = [] ∧ tailer.handed = [] ∧ tailer.snapshotSourceIds = [] ∧
      tailer.snapshotSourceKinds = [] ∧ tailer.snapshotDigest = none ∧ tailer.runEpoch = 0

structure SnapshotsOk (source : SnapshotSource σ ρ κ) (run : SnapshotRun σ ρ κ) : Prop where
  cursor : ∀ cursor ∈ run.cursor, CursorOk source run.everPublished cursor
  process : ∀ tailer ∈ run.process, TailerOk source run tailer

theorem CursorOk.mono {ever more : List (SourceId ρ)} (h : CursorOk source ever cursor)
    (hsublist : ever.Sublist more) : CursorOk source more cursor :=
  ⟨h.kinds, h.nodup, h.digest, h.published.trans hsublist⟩

theorem TailerOk.described (h : TailerOk source run tailer) :
    tailer.snapshotSourceIds.Sublist run.everPublished := by
  obtain ⟨before, heq, htold⟩ := h.ever
  rw [heq]
  exact h.taken.trans (htold.append (List.Sublist.refl _))

theorem TailerOk.saved (h : TailerOk source run tailer) :
    CursorOk source run.everPublished tailer.saved :=
  ⟨h.kinds, h.nodup, h.digest, h.described⟩

theorem tailerOk_start (run : SnapshotRun σ ρ κ) (adapter : σ) :
    TailerOk source { run with told := [], toldEpoch := 0 } { adapter := adapter } where
  kinds := rfl
  nodup := List.nodup_nil
  digest := fun content hcontent => absurd hcontent (Option.not_mem_none content)
  plain := rfl
  taken := List.Sublist.refl _
  normalized := ⟨[], .nil, rfl, rfl⟩
  ever := ⟨run.everPublished, (List.append_nil _).symm, List.nil_sublist _⟩
  fresh := fun _ => ⟨rfl, rfl, rfl, rfl, rfl, rfl⟩

theorem tailerOk_told (hsaved : CursorOk source run.everPublished tailer.saved)
    (hpublished : tailer.published = []) (hhanded : tailer.handed = [])
    (hloaded : tailer.loadedCursor = true) :
    TailerOk source
      { run with told := tailer.snapshotSourceIds, toldEpoch := tailer.runEpoch } tailer where
  kinds := hsaved.kinds
  nodup := hsaved.nodup
  digest := hsaved.digest
  plain := by rw [hpublished, List.append_nil]
  taken := by rw [hpublished, List.append_nil]
  normalized := ⟨[], by rw [hpublished]; exact .nil, hhanded, rfl⟩
  ever := ⟨run.everPublished, by rw [hpublished, List.append_nil], hsaved.published⟩
  fresh := fun hnot => Bool.noConfusion (hloaded.symm.trans hnot)

theorem TailerOk.firstLoad
    (hcursor : ∀ cursor ∈ run.cursor, CursorOk source run.everPublished cursor)
    (h : TailerOk source run tailer) (stat : Option Nat) :
    CursorOk source run.everPublished (tailer.firstLoad run.cursor stat).saved ∧
      (tailer.firstLoad run.cursor stat).published = tailer.published ∧
      (tailer.firstLoad run.cursor stat).handed = tailer.handed := by
  have hsaved := h.saved
  cases hcursors : run.cursor with
  | none => exact ⟨{ hsaved with }, rfl, rfl⟩
  | some cursor =>
    have hok := hcursor cursor hcursors
    cases stat with
    | none => exact ⟨{ hsaved with }, rfl, rfl⟩
    | some =>
      unfold SnapshotTailer.firstLoad SnapshotTailer.loadCursor
      simp only
      split
      · exact ⟨{ hsaved with }, rfl, rfl⟩
      · exact ⟨{ hok with }, rfl, rfl⟩

theorem TailerOk.loaded (hcursor : ∀ cursor ∈ run.cursor, CursorOk source run.everPublished cursor)
    (h : TailerOk source run tailer) (stat : Option Nat) :
    TailerOk source (run.loaded tailer stat).1 (run.loaded tailer stat).2 ∧
      (run.loaded tailer stat).2.published = tailer.published ∧
      (run.loaded tailer stat).2.handed = tailer.handed ∧
      (run.loaded tailer stat).2.loadedCursor = true ∧
      (run.loaded tailer stat).1.cursor = run.cursor ∧
      (run.loaded tailer stat).1.everPublished = run.everPublished := by
  cases hloaded : tailer.loadedCursor with
  | true =>
    rw [SnapshotRun.loaded, if_pos hloaded]
    exact ⟨h, rfl, rfl, hloaded, rfl, rfl⟩
  | false =>
    obtain ⟨hnothing, hnoEvents, -⟩ := h.fresh hloaded
    obtain ⟨hsaved, hpublished, hhanded⟩ := h.firstLoad hcursor stat
    rw [SnapshotRun.loaded, if_neg (by rw [hloaded]; exact Bool.false_ne_true)]
    exact ⟨tailerOk_told hsaved (hpublished.trans hnothing) (hhanded.trans hnoEvents) rfl,
      hpublished, hhanded, rfl, rfl, rfl⟩

theorem TailerOk.quiet (h : TailerOk source run tailer) {next : SnapshotTailer σ ρ κ}
    (hids : next.snapshotSourceIds = tailer.snapshotSourceIds)
    (hkinds : next.snapshotSourceKinds = tailer.snapshotSourceKinds)
    (hpublished : next.published = tailer.published) (hhanded : next.handed = tailer.handed)
    (hepoch : next.runEpoch = tailer.runEpoch) (hloaded : next.loadedCursor = true)
    (hdigest : DigestOk source tailer.snapshotSourceIds next.snapshotDigest) :
    TailerOk source { run with
      everPublished := run.everPublished ++ next.published.drop tailer.published.length } next where
  kinds := by rw [hids, hkinds]; exact h.kinds
  nodup := by rw [hids]; exact h.nodup
  digest := by rw [hids]; exact hdigest
  plain := by rw [hids, hpublished]; exact h.plain
  taken := by rw [hids, hpublished]; exact h.taken
  normalized := by rw [hpublished, hhanded, hepoch]; exact h.normalized
  ever := by
    rw [hpublished, List.drop_length, List.append_nil]
    exact h.ever
  fresh := fun hnot => Bool.noConfusion (hloaded.symm.trans hnot)

theorem TailerOk.outcome (h : TailerOk source run tailer) (hloaded : tailer.loadedCursor = true)
    {content : Option κ} {next : SnapshotTailer σ ρ κ} {save : Bool}
    (houtcome : SnapshotOutcome source tailer content next save) :
    TailerOk source { run with
      everPublished := run.everPublished ++ next.published.drop tailer.published.length } next := by
  have hdigest {ids : List (SourceId ρ)} (hread : content.bind source.idsOf = some ids)
      (hids : UpToMarker source ids tailer.snapshotSourceIds) :
      DigestOk source tailer.snapshotSourceIds content := by
    intro digest hin
    rw [Option.mem_def.mp hin, Option.bind_some] at hread
    exact ⟨ids, hread, hids⟩
  cases houtcome with
  | unread => exact h.quiet rfl rfl rfl rfl rfl hloaded h.digest
  | emptied => exact h.quiet rfl rfl rfl rfl rfl hloaded h.digest
  | emptyStart hread hids => exact h.quiet rfl rfl rfl rfl rfl hloaded (hdigest hread (.inl hids))
  | known => exact h.quiet rfl rfl rfl rfl rfl hloaded h.digest
  | nothingNew hread hids => exact h.quiet rfl rfl rfl rfl rfl hloaded (hdigest hread hids)
  | rewritten => exact h.quiet rfl rfl rfl rfl rfl hloaded h.digest
  | @published front new adapter events kinds hread hids hnodup hkinds hevents =>
    have hnew : (tailer.published ++ new).drop tailer.published.length = new := List.drop_left
    refine ⟨hkinds, hnodup, ?_, ?_, ?_, ?_, ?_, ?_⟩
    · intro digest hin
      have hcontent : content = some digest := hin
      rw [hcontent, Option.bind_some] at hread
      exact ⟨_, hread, .inl rfl⟩
    · show (run.told ++ (tailer.published ++ new)).filter source.isPlain =
        (front ++ new).filter source.isPlain
      rw [← List.append_assoc, List.filter_append, h.plain, hids.plain_eq, ← List.filter_append]
    · show (front ++ new).Sublist (run.told ++ (tailer.published ++ new))
      rw [← List.append_assoc]
      exact (hids.sublist.trans h.taken).append (List.Sublist.refl _)
    · obtain ⟨raw, hraw, hhanded, hepoch⟩ := h.normalized
      refine ⟨raw ++ events, ?_, ?_, ?_⟩
      · show source.Normalizes ((tailer.published ++ new).map SourceId.row) (raw ++ events)
        rw [List.map_append]
        exact hevents _ _ hraw
      · show tailer.handed ++ source.stampAll tailer.runEpoch events =
          source.stampAll run.toldEpoch (raw ++ events)
        rw [hhanded, hepoch, source.stampAll_append]
      · show epochAfter tailer.runEpoch events = epochAfter run.toldEpoch (raw ++ events)
        rw [hepoch, epochAfter, epochAfter, epochAfter, List.foldl_append]
    · obtain ⟨before, hbefore, htold⟩ := h.ever
      refine ⟨before, ?_, htold⟩
      show run.everPublished ++ (tailer.published ++ new).drop tailer.published.length =
        before ++ (tailer.published ++ new)
      rw [hnew, hbefore, List.append_assoc]
    · exact fun hnot => Bool.noConfusion (hloaded.symm.trans hnot)

theorem TailerOk.cleared (h : TailerOk source run tailer) :
    TailerOk source run { tailer with hardFailed := false, lastError := none } :=
  { h with }

variable [DecidableEq κ]

theorem SnapshotsOk.poll (h : SnapshotsOk source run) (htailer : TailerOk source run tailer)
    (stat : Option Nat) (content : Option κ) (saves : Bool) :
    SnapshotsOk source (run.poll source tailer stat content none saves) := by
  obtain ⟨hloaded, -, -, hflag, hcursor, hever⟩ := htailer.cleared.loaded h.cursor stat
  have hcursors := h.cursor
  rw [← hcursor, ← hever] at hcursors
  unfold SnapshotRun.poll
  generalize run.loaded { tailer with hardFailed := false, lastError := none } stat = loaded
    at hloaded hflag hcursors
  obtain ⟨first, started⟩ := loaded
  have hnext := hloaded.outcome hflag (tailSnapshot_outcome hloaded.kinds content)
  simp only
  generalize started.tailSnapshot source content none = result at hnext
  obtain ⟨next, save⟩ := result
  constructor
  · intro cursor hin
    simp only at hin
    split at hin
    · rw [← Option.some.inj hin]
      exact hnext.saved
    · exact (hcursors cursor hin).mono (List.sublist_append_left _ _)
  · intro current hin
    rw [← Option.some.inj hin]
    exact { hnext with }

theorem SnapshotsOk.dies (h : SnapshotsOk source run) (tailer : SnapshotTailer σ ρ κ)
    (stat : Option Nat) (content : Option κ) (failsAt : Option Nat) :
    SnapshotsOk source
      { run.poll source tailer stat content failsAt false with process := none } := by
  have hkept : ∀ first : SnapshotRun σ ρ κ × SnapshotTailer σ ρ κ,
      first = run.loaded { tailer with hardFailed := false, lastError := none } stat →
      first.1.cursor = run.cursor ∧ first.1.everPublished = run.everPublished := by
    intro first heq
    rw [heq, SnapshotRun.loaded]
    split <;> exact ⟨rfl, rfl⟩
  obtain ⟨hcursor, hever⟩ := hkept _ rfl
  constructor
  · intro cursor hin
    unfold SnapshotRun.poll at hin ⊢
    simp only [Bool.false_eq_true, and_false, ↓reduceIte, hcursor, hever] at hin ⊢
    exact (h.cursor cursor hin).mono (List.sublist_append_left _ _)
  · exact fun current hin => absurd hin (Option.not_mem_none current)

/-- Storing an event fails in no poll; a process may end at any time. -/
def Stores : SnapshotOp σ κ → Prop
  | .poll _ _ failsAt _ => failsAt = none
  | _ => True

instance (op : SnapshotOp σ κ) : Decidable (Stores op) := by
  unfold Stores
  split <;> infer_instance

omit [DecidableEq κ] in
theorem snapshotsOk_init : SnapshotsOk source ({} : SnapshotRun σ ρ κ) :=
  ⟨fun cursor hin => absurd hin (Option.not_mem_none cursor),
    fun tailer hin => absurd hin (Option.not_mem_none tailer)⟩

theorem SnapshotsOk.step (h : SnapshotsOk source run) {op : SnapshotOp σ κ} (hstores : Stores op)
    {next : SnapshotRun σ ρ κ} (hstep : run.step source op = some next) :
    SnapshotsOk source next := by
  cases hprocess : run.process with
  | none =>
    cases op with
    | start adapter =>
      simp only [SnapshotRun.step, hprocess, Option.some.injEq] at hstep
      rw [← hstep]
      refine ⟨h.cursor, fun tailer hin => ?_⟩
      rw [← Option.some.inj hin]
      have hstart := @tailerOk_start _ _ _ _ source run adapter
      exact { hstart with }
    | crash | undiscovered | poll | dies =>
      simp [SnapshotRun.step, hprocess] at hstep
  | some tailer =>
    have htailer := h.process tailer hprocess
    cases op with
      simp only [SnapshotRun.step, hprocess, Option.some.injEq, reduceCtorEq] at hstep
    | crash =>
      rw [← hstep]
      exact ⟨h.cursor, fun tailer hin => absurd hin (Option.not_mem_none tailer)⟩
    | undiscovered =>
      rw [← hstep]
      refine ⟨h.cursor, fun current hin => ?_⟩
      rw [← Option.some.inj hin]
      split <;> exact { htailer with }
    | poll stat content failsAt saves =>
      have hnone : failsAt = none := hstores
      rw [← hstep, hnone]
      exact h.poll htailer stat content saves
    | dies stat content failsAt =>
      rw [← hstep]
      exact h.dies tailer stat content failsAt

/-! ## The statement -/

def SnapshotRun.described (run : SnapshotRun σ ρ κ) (tailer : SnapshotTailer σ ρ κ)
    (stat : Option Nat) : List (SourceId ρ) :=
  (run.loaded { tailer with hardFailed := false, lastError := none } stat).2.snapshotSourceIds

/-- What a process has published. -/
structure PublishedOnce (source : SnapshotSource σ ρ κ) (run : SnapshotRun σ ρ κ)
    (tailer : SnapshotTailer σ ρ κ) : Prop where
  /-- With what the cursor told of, it is what is described, terminal markers apart, each row
  once. -/
  exact : (run.told ++ tailer.published).filter source.isPlain =
    tailer.snapshotSourceIds.filter source.isPlain
  once : ((run.told ++ tailer.published).filter source.isPlain).Nodup
  taken : tailer.snapshotSourceIds.Sublist (run.told ++ tailer.published)
  /-- Every published row was normalized once, and its events were handed over in order. -/
  normalized : ∃ events, source.Normalizes (tailer.published.map SourceId.row) events ∧
    tailer.handed = source.stampAll run.toldEpoch events
  /-- After a snapshot that continues what is described, all of it is published. -/
  continued : ∀ stat content saves ids, source.idsOf content = some ids → ids ≠ [] →
    source.Continues (run.described tailer stat) ids →
    ∃ next, (run.poll source tailer stat (some content) none saves).process = some next ∧
      next.hardFailed = false ∧
      ((run.poll source tailer stat (some content) none saves).told ++ next.published).filter
        source.isPlain = ids.filter source.isPlain
  rewritten : ∀ stat content saves ids, source.idsOf content = some ids → ids ≠ [] →
    ¬ source.Continues (run.described tailer stat) ids →
    ∃ next, (run.poll source tailer stat (some content) none saves).process = some next ∧
      next.hardFailed = true ∧ next.published = tailer.published ∧ next.handed = tailer.handed

omit [DecidableEq κ] [DecidableEq ρ] in
theorem UpToMarker.continues {front ids : List (SourceId ρ)} (h : UpToMarker source front ids)
    (new : List (SourceId ρ)) : source.Continues ids (front ++ new) := by
  rcases h with rfl | ⟨last, hlast, rfl⟩
  · exact .inl (List.prefix_append _ _)
  · exact .inr ⟨front, last, rfl, hlast, List.prefix_append _ _⟩

omit [DecidableEq κ] [DecidableEq ρ] in
theorem UpToMarker.continues_self {front ids : List (SourceId ρ)}
    (h : UpToMarker source front ids) : source.Continues ids front := by
  have hnothing := h.continues []
  rwa [List.append_nil] at hnothing

omit [DecidableEq κ] [DecidableEq ρ] in
theorem hardFailed_loaded (run : SnapshotRun σ ρ κ) (tailer : SnapshotTailer σ ρ κ)
    (stat : Option Nat) : (run.loaded tailer stat).2.hardFailed = tailer.hardFailed := by
  unfold SnapshotRun.loaded SnapshotTailer.firstLoad SnapshotTailer.loadCursor
  repeat' split
  all_goals rfl

theorem SnapshotsOk.poll_outcome (h : SnapshotsOk source run) (htailer : TailerOk source run tailer)
    (stat : Option Nat) (content : Option κ) (saves : Bool) :
    ∃ started next save, started.snapshotSourceIds = run.described tailer stat ∧
      started.published = tailer.published ∧ started.handed = tailer.handed ∧
      started.hardFailed = false ∧ DigestOk source started.snapshotSourceIds started.snapshotDigest ∧
      SnapshotOutcome source started content next save ∧
      (run.poll source tailer stat content none saves).process = some next ∧
      ((run.poll source tailer stat content none saves).told ++ next.published).filter
        source.isPlain = next.snapshotSourceIds.filter source.isPlain := by
  obtain ⟨hloaded, hpublished, hhanded, hflag, -⟩ := htailer.cleared.loaded h.cursor stat
  have hfailed := hardFailed_loaded run { tailer with hardFailed := false, lastError := none } stat
  have houtcome := tailSnapshot_outcome hloaded.kinds content
  have hnext := hloaded.outcome hflag houtcome
  exact ⟨_, _, _, rfl, hpublished, hhanded, hfailed, hloaded.digest, houtcome, rfl, hnext.plain⟩

theorem SnapshotsOk.publishedOnce (h : SnapshotsOk source run) (hprocess : run.process = some tailer) :
    PublishedOnce source run tailer := by
  have htailer := h.process tailer hprocess
  refine ⟨htailer.plain, ?_, htailer.taken, ?_, ?_, ?_⟩
  · rw [htailer.plain]
    exact htailer.nodup.filter _
  · obtain ⟨events, hevents, hhanded, -⟩ := htailer.normalized
    exact ⟨events, hevents, hhanded⟩
  · intro stat content saves ids hread hne hcontinues
    obtain ⟨started, next, save, hids, -, -, hfailed, hdigest, houtcome, hnext, hplain⟩ :=
      h.poll_outcome htailer stat (some content) saves
    refine ⟨next, hnext, ?_, hplain.trans ?_⟩
    · cases houtcome with
      | rewritten hread' hnot =>
        have hsame := Option.some.inj (hread.symm.trans hread')
        rw [hids, ← hsame] at hnot
        exact absurd hcontinues hnot
      | unread | emptied | emptyStart | known | nothingNew | published => exact hfailed
    · cases houtcome with
      | unread hnone => exact absurd (hread.symm.trans hnone) (Option.some_ne_none _)
      | emptied hempty => exact absurd (Option.some.inj (hread.symm.trans hempty)) hne
      | emptyStart hempty => exact absurd (Option.some.inj (hread.symm.trans hempty)) hne
      | known hknown =>
        obtain ⟨front, hfront, hmarker⟩ := hdigest content hknown
        rw [Option.some.inj (hread.symm.trans hfront)]
        exact hmarker.plain_eq
      | nothingNew hread' hmarker =>
        rw [Option.some.inj (hread.symm.trans hread')]
        exact hmarker.plain_eq
      | rewritten hread' hnot =>
        have hsame := Option.some.inj (hread.symm.trans hread')
        rw [hids, ← hsame] at hnot
        exact absurd hcontinues hnot
      | published hread' => rw [Option.some.inj (hread.symm.trans hread')]
  · intro stat content saves ids hread hne hnot
    obtain ⟨started, next, save, hids, hpublished, hhanded, -, hdigest, houtcome, hnext, -⟩ :=
      h.poll_outcome htailer stat (some content) saves
    refine ⟨next, hnext, ?_⟩
    rw [← hids] at hnot
    cases houtcome with
    | unread hnone => exact absurd (hread.symm.trans hnone) (Option.some_ne_none _)
    | emptied hempty => exact absurd (Option.some.inj (hread.symm.trans hempty)) hne
    | emptyStart hempty => exact absurd (Option.some.inj (hread.symm.trans hempty)) hne
    | known hknown =>
      obtain ⟨front, hfront, hmarker⟩ := hdigest content hknown
      rw [Option.some.inj (hread.symm.trans hfront)] at hnot
      exact absurd hmarker.continues_self hnot
    | nothingNew hread' hmarker =>
      rw [Option.some.inj (hread.symm.trans hread')] at hnot
      exact absurd hmarker.continues_self hnot
    | rewritten => exact ⟨rfl, hpublished, hhanded⟩
    | published hread' hmarker =>
      rw [Option.some.inj (hread.symm.trans hread')] at hnot
      exact absurd (hmarker.continues _) hnot

end Invariant

/-- **Published once or failing closed.** In a run of polls in which no event fails to be stored, a
saved cursor describes rows that were published, and each process publishes what continues them,
each row once. -/
theorem snapshots_published_once [DecidableEq ρ] [DecidableEq κ] (source : SnapshotSource σ ρ κ)
    {ops : List (SnapshotOp σ κ)} {run : SnapshotRun σ ρ κ}
    (hrun : exec (SnapshotRun.step source) {} ops = some run) (hstores : ∀ op ∈ ops, Stores op) :
    (∀ cursor ∈ run.cursor, cursor.snapshotSourceIds.Sublist run.everPublished ∧
      KindsOk source cursor.snapshotSourceIds cursor.snapshotSourceKinds ∧
      DigestOk source cursor.snapshotSourceIds cursor.snapshotDigest) ∧
    ∀ tailer, run.process = some tailer → PublishedOnce source run tailer := by
  have hok : SnapshotsOk source run := by
    apply ((Run.of_exec hrun).and_forall hstores).invariant snapshotsOk_init
    intro before op after h hop hstep
    exact h.step hop.2 hstep
  constructor
  · intro cursor hcursor
    have hsaved := hok.cursor cursor hcursor
    exact ⟨hsaved.published, hsaved.kinds, hsaved.digest⟩
  · exact fun tailer hprocess => hok.publishedOnce hprocess

private def rowsSource : SnapshotSource Unit Nat (List Nat) where
  loads _ := none
  normalizeLine _ _ _ := (some [{ type := .status }], ())
  redactEvent event := event
  window := 60
  readRows := some
  kindOf _ := "user"

private def rewriteOps : List (SnapshotOp Unit (List Nat)) :=
  [.start (), .poll (some 7) (some [1]) none true, .poll (some 7) (some [5]) none true]

theorem snapshots_published_once_rewritten :
    ∃ run tailer, exec (SnapshotRun.step rowsSource) {} rewriteOps = some run ∧
      run.process = some tailer ∧ tailer.published = [⟨1, 0⟩] ∧ tailer.hardFailed = true ∧
      PublishedOnce rowsSource run tailer := by
  have hrun : (exec (SnapshotRun.step rowsSource) {} rewriteOps).any (fun run =>
      run.process.any fun tailer => tailer.published = [⟨1, 0⟩] ∧ tailer.hardFailed = true) = true := by
    decide +kernel
  obtain ⟨run, hexec, hends⟩ := (Option.any_eq_true _ _).mp hrun
  obtain ⟨tailer, hprocess, hfields⟩ := (Option.any_eq_true _ _).mp hends
  obtain ⟨hpublished, hfailed⟩ := of_decide_eq_true hfields
  exact ⟨run, tailer, hexec, hprocess, hpublished, hfailed,
    (snapshots_published_once rowsSource hexec (by decide)).2 tailer hprocess⟩

/-- After a rewrite of published rows, a snapshot that continues them again is published. -/
theorem published_after_rewrite :
    ¬ ∀ (run later : SnapshotRun Unit Nat (List Nat)) (tailer next : SnapshotTailer Unit Nat (List Nat))
        (stat : Option Nat) (content : List Nat),
      exec (SnapshotRun.step rowsSource) {} rewriteOps = some run →
      run.process = some tailer → tailer.lastError = some .rewroteHistory →
      run.step rowsSource (.poll stat (some content) none true) = some later →
      later.process = some next → next.published = tailer.published := by
  intro hall
  have hrun : (exec (SnapshotRun.step rowsSource) {} rewriteOps).any (fun run =>
      run.process.any fun tailer => tailer.lastError = some .rewroteHistory ∧
        (run.step rowsSource (.poll (some 7) (some [1, 2]) none true)).any fun later =>
          later.process.any fun next => next.published ≠ tailer.published) = true := by
    decide +kernel
  obtain ⟨run, hexec, hrun⟩ := (Option.any_eq_true _ _).mp hrun
  obtain ⟨tailer, hprocess, hrun⟩ := (Option.any_eq_true _ _).mp hrun
  obtain ⟨herror, hrun⟩ := of_decide_eq_true hrun
  obtain ⟨later, hstep, hrun⟩ := (Option.any_eq_true _ _).mp hrun
  obtain ⟨next, hnext, hpublished⟩ := (Option.any_eq_true _ _).mp hrun
  exact of_decide_eq_true hpublished
    (hall run later tailer next (some 7) [1, 2] hexec hprocess herror hstep hnext)

end ClaudeHub
