import ClaudeHub.Lib.Runs
import ClaudeHub.Lib.Table

/-! # Cached Markdown blocks

While a message streams in, completed blocks and list items are rendered once. They are found
again by their raw text, but what a block means may depend on definitions elsewhere in the source.
-/

namespace ClaudeHub.MarkdownBlocks

open StepSystem

structure Options where
  complete : Bool := false
  linkMarkdownPaths : Bool := false
  quotedTabId : String := ""
  documentPath : String := ""

structure Call where
  source : String
  options : Options := {}
  highlightVersion : Nat := 0
  mathVersion : Nat := 0

structure ListToken where
  ordered : Bool
  start : Option Nat
  loose : Bool

/-- A list with its items, or a block that is its own only item, each with its raw text. -/
structure Token (τ : Type) where
  list : Option ListToken := none
  items : List (String × τ)

structure RenderedBlock where
  list : Option (Bool × Nat)
  items : List (String × String)
  deriving DecidableEq

/-- Lexer, parser and sanitizer. What is rendered goes through `postProcess`. -/
structure Markdown (τ : Type) where
  tokens : Options → String → List (Token τ)
  /-- `renderBlockToken`, or `renderListItemInnerHtml` where there is a list. -/
  html : Call → Option ListToken → τ → String
  headings : Options → List RenderedBlock → List RenderedBlock

def cacheKey (raw : String) (options : Options) (listLoose : Option Bool) : String :=
  (if options.linkMarkdownPaths then "l" else "n") ++ ":" ++ options.quotedTabId ++
    (listLoose.elim "" fun loose => ":loose=" ++ toString loose) ++ ":" ++ raw

structure MarkdownBlockCache where
  cache : Dict String String := .empty
  linkMode : Option Bool := none
  quotedTabId : Option String := none
  documentPath : String := ""
  hlVersion : Option Nat := none
  mathRenderVersion : Option Nat := none

variable {τ : Type} (markdown : Markdown τ) (call : Call)

def MarkdownBlockCache.stale (self : MarkdownBlockCache) : Bool :=
  self.documentPath ≠ call.options.documentPath ||
    self.linkMode.any (· ≠ call.options.linkMarkdownPaths) ||
    self.quotedTabId.any (· ≠ call.options.quotedTabId) ||
    self.hlVersion.any (· ≠ call.highlightVersion) ||
    self.mathRenderVersion.any (· ≠ call.mathVersion)

def keyed (list : Option ListToken) (item : String × τ) : String × String :=
  (cacheKey item.1 call.options (list.map ListToken.loose), markdown.html call list item.2)

def rendered (cache : Dict String String) (completed : Bool) (item : String × String) :
    String × Dict String String :=
  if completed then
    match cache.lookup item.1 with
    | some html => (html, cache)
    | none => (item.2, cache.set item.1 item.2)
  else (item.2, cache)

/-- `renderListBlock`; `renderHtmlBlock` where there is no list. -/
def renderItems (list : Option ListToken) (key : String) (done : Bool) :
    Nat → Dict String String → List (String × τ) → List (String × String) × Dict String String
  | _, cache, [] => ([], cache)
  | idx, cache, item :: items =>
    let (html, cache) := rendered cache (!items.isEmpty || done) (keyed markdown call list item)
    let (rest, cache) := renderItems list key done (idx + 1) cache items
    ((if list.isSome then key ++ ":item:" ++ toString idx else key, html) :: rest, cache)

def renderBlocks : Nat → Dict String String → List (Token τ) →
    List RenderedBlock × Dict String String
  | _, cache, [] => ([], cache)
  | i, cache, token :: tokens =>
    let (items, cache) := renderItems markdown call token.list ("block:" ++ toString i)
      (!tokens.isEmpty || call.options.complete) 0 cache token.items
    let (rest, cache) := renderBlocks (i + 1) cache tokens
    (⟨token.list.map fun list => (list.ordered, list.start.getD 1), items⟩ :: rest, cache)

def MarkdownBlockCache.render (self : MarkdownBlockCache) :
    List RenderedBlock × MarkdownBlockCache :=
  let cache := if self.stale call then .empty else self.cache
  let (blocks, cache) :=
    renderBlocks markdown call 0 cache (markdown.tokens call.options call.source)
  (markdown.headings call.options blocks,
    { cache := cache
      linkMode := some call.options.linkMarkdownPaths
      quotedTabId := some call.options.quotedTabId
      documentPath := call.options.documentPath
      hlVersion := some call.highlightVersion
      mathRenderVersion := some call.mathVersion })

def completed (list : Option ListToken) (done : Bool) : List (String × τ) → List (String × String)
  | [] => []
  | item :: items =>
    (if !items.isEmpty || done then [keyed markdown call list item] else []) ++
      completed list done items

def completedBlocks : List (Token τ) → List (String × String)
  | [] => []
  | token :: tokens =>
    completed markdown call token.list (!tokens.isEmpty || call.options.complete) token.items ++
      completedBlocks tokens

/-- What has the same key is rendered the same. -/
def Consistent (seen : List (String × String)) : Prop :=
  ∀ x ∈ seen, ∀ y ∈ seen, x.1 = y.1 → x.2 = y.2

instance (seen : List (String × String)) : Decidable (Consistent seen) := by
  unfold Consistent
  infer_instance

/-- The cache with what was completed since it was last emptied, and all that was returned. -/
structure CacheRun where
  self : MarkdownBlockCache := {}
  seen : List (String × String) := []
  returned : List (List RenderedBlock) := []

namespace CacheRun

def seenAfter (run : CacheRun) : List (String × String) :=
  (if run.self.stale call then [] else run.seen) ++
    completedBlocks markdown call (markdown.tokens call.options call.source)

def step (run : CacheRun) (call : Call) : Option CacheRun :=
  let (blocks, self) := run.self.render markdown call
  some ⟨self, run.seenAfter markdown call, run.returned ++ [blocks]⟩

end CacheRun

def fresh : List RenderedBlock := (MarkdownBlockCache.render markdown call {}).1

variable {markdown call} {cache cache' : Dict String String} {seen : List (String × String)}

def Holds (cache : Dict String String) (seen : List (String × String)) : Prop :=
  ∀ key html, cache.lookup key = some html → (key, html) ∈ seen

theorem rendered_eq (hseen : Consistent seen) (h : Holds cache seen) {item : String × String}
    {done : Bool} (hmem : (if done then [item] else []) ⊆ seen) :
    (rendered cache done item).1 = item.2 ∧ Holds (rendered cache done item).2 seen := by
  unfold rendered
  split
  next hdone =>
    rw [if_pos hdone, List.cons_subset] at hmem
    cases hlookup : cache.lookup item.1 with
    | some stored => exact ⟨hseen _ (h _ stored hlookup) _ hmem.1 rfl, h⟩
    | none =>
      refine ⟨rfl, fun key html hkey => ?_⟩
      rw [Dict.lookup_set] at hkey
      split at hkey
      next heq =>
        cases hkey
        exact heq ▸ hmem.1
      · exact h key html hkey
  · exact ⟨rfl, h⟩

theorem renderItems_eq (hseen : Consistent seen) {list : Option ListToken} {key : String}
    {done : Bool} (items : List (String × τ)) (idx : Nat) (h : Holds cache seen)
    (h' : Holds cache' seen) (hmem : completed markdown call list done items ⊆ seen) :
    (renderItems markdown call list key done idx cache items).1 =
      (renderItems markdown call list key done idx cache' items).1 ∧
    Holds (renderItems markdown call list key done idx cache items).2 seen ∧
    Holds (renderItems markdown call list key done idx cache' items).2 seen := by
  induction items generalizing idx cache cache' with
  | nil => exact ⟨rfl, h, h'⟩
  | cons item items ih =>
    obtain ⟨hhead, htail⟩ := List.append_subset.mp hmem
    obtain ⟨heq, hnext⟩ := rendered_eq hseen h hhead
    obtain ⟨heq', hnext'⟩ := rendered_eq hseen h' hhead
    obtain ⟨hrest, hholds⟩ := ih (idx + 1) hnext hnext' htail
    exact ⟨by simp only [renderItems, heq, heq', hrest], hholds⟩

theorem renderBlocks_eq (hseen : Consistent seen) (tokens : List (Token τ)) (i : Nat)
    (h : Holds cache seen) (h' : Holds cache' seen)
    (hmem : completedBlocks markdown call tokens ⊆ seen) :
    (renderBlocks markdown call i cache tokens).1 = (renderBlocks markdown call i cache' tokens).1 ∧
      Holds (renderBlocks markdown call i cache tokens).2 seen := by
  induction tokens generalizing i cache cache' with
  | nil => exact ⟨rfl, h⟩
  | cons token tokens ih =>
    obtain ⟨hhead, htail⟩ := List.append_subset.mp hmem
    obtain ⟨heq, hnext, hnext'⟩ := renderItems_eq hseen token.items 0 h h' hhead
    obtain ⟨hrest, hholds⟩ := ih (i + 1) hnext hnext' htail
    exact ⟨by simp only [renderBlocks, heq, hrest], hholds⟩

private def referenced : Markdown String where
  tokens _ source :=
    if source = "[a]\n\nb" then [⟨none, [("[a]", "<p>[a]</p>")]⟩, ⟨none, [("b", "<p>b</p>")]⟩]
    else [⟨none, [("[a]", "<p><a href=\"/u\">a</a></p>")]⟩, ⟨none, [("b", "<p>b</p>")]⟩,
      ⟨none, [("[a]: /u", "")]⟩]
  html _ _ html := html
  headings _ blocks := blocks

end ClaudeHub.MarkdownBlocks
