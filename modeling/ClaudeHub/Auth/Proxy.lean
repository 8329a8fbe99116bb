import ClaudeHub.Lib.Lines

/-! # Client addresses behind reverse proxies

A trusted peer says in `X-Forwarded-For` for whom it forwards. The chain is walked from the right
to the first address that is in none of the trusted networks. Only the first header line of that
name is read.
-/

namespace ClaudeHub.Proxy

open Lines

inductive IPAddress
  | v4 (ip : BitVec 32)
  | v6 (ip : BitVec 128) (scopeId : Option (List Char))
  deriving DecidableEq

inductive IPNetwork
  | v4 (networkAddress netmask : BitVec 32)
  | v6 (networkAddress netmask : BitVec 128)

def IPNetwork.contains : IPNetwork → IPAddress → Bool
  | .v4 networkAddress netmask, .v4 ip => ip &&& netmask = networkAddress
  | .v6 networkAddress netmask, .v6 ip _ => ip &&& netmask = networkAddress
  | _, _ => false

/-- `_normalize_ip`: an IPv4-mapped address collapses to the IPv4 one. -/
def normalizeIp : IPAddress → IPAddress
  | .v4 ip => .v4 ip
  | .v6 ip scopeId => if ip >>> 32 = 0xFFFF then .v4 (ip.setWidth 32) else .v6 ip scopeId

/-- The module `ipaddress`: how addresses are read and written, and which are local. -/
structure Ipaddress where
  ipAddress : List Char → Option IPAddress
  str : IPAddress → List Char
  /-- The text of an address that was read is read as that address. -/
  read_str : ∀ text ip, ipAddress (strip text) = some ip →
    ipAddress (strip (str (normalizeIp ip))) = some (normalizeIp ip)
  isPrivate : IPAddress → Bool
  isLoopback : IPAddress → Bool
  isLinkLocal : IPAddress → Bool

structure Connection where
  client : Option (List Char)
  headers : List (List Char × List Char)

def forwardedFor : List Char := "x-forwarded-for".toList

variable (lib : Ipaddress) (networks : List IPNetwork)

def trusted (ip : IPAddress) : Bool := networks.any (·.contains ip)

def ipMatchesNetworks (value : List Char) : Bool :=
  match lib.ipAddress (strip value) with
  | none => false
  | some ip => trusted networks (normalizeIp ip)

def readHop (token : List Char) : Option IPAddress :=
  if strip token = [] then none else (lib.ipAddress (strip token)).map normalizeIp

def lastUntrusted (tokens : List (List Char)) : Option IPAddress :=
  (tokens.filterMap (readHop lib)).reverse.find? fun hop => !trusted networks hop

def Connection.header (connection : Connection) (name : List Char) : Option (List Char) :=
  (connection.headers.find? fun line => line.1 = name).map Prod.snd

def clientIpFromRequest (connection : Connection) : List Char :=
  match connection.client with
  | none => "127.0.0.1".toList
  | some direct =>
    if ipMatchesNetworks lib networks direct then
      match connection.header forwardedFor with
      | none => direct
      | some line =>
        if line = [] then direct
        else
          match lastUntrusted lib networks (line.splitOn ',') with
          | some hop => lib.str hop
          | none => ((line.splitOn ',').filterMap (readHop lib)).head?.elim direct lib.str
    else direct

def isLocalNetworkIp (text : List Char) : Bool :=
  match lib.ipAddress text with
  | none => false
  | some ip => lib.isPrivate ip || lib.isLoopback ip || lib.isLinkLocal ip ||
    match ip with
    | .v4 ip => (0x0A000000 ≤ ip && ip ≤ 0x0AFFFFFF) || (0xAC100000 ≤ ip && ip ≤ 0xAC1FFFFF) ||
      (0xC0A80000 ≤ ip && ip ≤ 0xC0A8FFFF)
    | .v6 .. => false

def isLocalNetworkRequest (authEnabled : Bool) (connection : Connection) : Bool :=
  !authEnabled || isLocalNetworkIp lib (clientIpFromRequest lib networks connection)

def Connection.chain (connection : Connection) : List (List Char) :=
  (connection.headers.filter fun line => line.1 = forwardedFor).flatMap fun line =>
    line.2.splitOn ','

def Connection.firstLine (connection : Connection) : List (List Char) :=
  ((connection.header forwardedFor).map (·.splitOn ',')).getD []

variable {lib networks} {tokens front suffix : List (List Char)} {ip hop client : IPAddress}
variable {direct : List Char} {connection : Connection}

@[simp] theorem normalizeIp_normalizeIp (ip : IPAddress) :
    normalizeIp (normalizeIp ip) = normalizeIp ip := by
  cases ip with
  | v4 => rfl
  | v6 ip scopeId =>
    rw [normalizeIp]
    split
    · rfl
    next h => rw [normalizeIp, if_neg h]

/-- An address that stands in the headers. -/
def Read (lib : Ipaddress) (ip : IPAddress) : Prop := ∃ token, readHop lib token = some ip

theorem Read.read_str (h : Read lib ip) : lib.ipAddress (strip (lib.str ip)) = some ip := by
  obtain ⟨token, htoken⟩ := h
  unfold readHop at htoken
  split at htoken
  · cases htoken
  · obtain ⟨ip, hip, rfl⟩ := Option.map_eq_some_iff.mp htoken
    exact lib.read_str token ip hip

theorem Read.normalized (h : Read lib ip) : normalizeIp ip = ip := by
  obtain ⟨token, htoken⟩ := h
  unfold readHop at htoken
  split at htoken
  · cases htoken
  · obtain ⟨ip, -, rfl⟩ := Option.map_eq_some_iff.mp htoken
    exact normalizeIp_normalizeIp ip

theorem Read.str_inj (h : Read lib ip) (hhop : Read lib hop) (hstr : lib.str ip = lib.str hop) :
    ip = hop := by
  have hread := h.read_str
  rw [hstr, hhop.read_str] at hread
  exact (Option.some.inj hread).symm

theorem read_of_mem (h : ip ∈ tokens.filterMap (readHop lib)) : Read lib ip :=
  let ⟨token, _, htoken⟩ := List.mem_filterMap.mp h
  ⟨token, htoken⟩

theorem lastUntrusted_some (h : lastUntrusted lib networks tokens = some client) :
    Read lib client ∧ trusted networks client = false :=
  ⟨read_of_mem (List.mem_reverse.mp (List.mem_of_find?_eq_some h)), by
    simpa using List.find?_some h⟩

theorem lastUntrusted_append (h : lastUntrusted lib networks suffix = some client) :
    lastUntrusted lib networks (front ++ suffix) = some client := by
  unfold lastUntrusted at h ⊢
  rw [List.filterMap_append, List.reverse_append, List.find?_append, h, Option.some_or]

/-- Behind a trusted peer the right-most untrusted address of the line that is read is the
answer, and every other answer is the text of a trusted address. -/
theorem clientIp_cases (h : ipMatchesNetworks lib networks direct = true)
    (headers : List (List Char × List Char)) :
    (∃ hop, lastUntrusted lib networks (Connection.firstLine ⟨some direct, headers⟩) = some hop ∧
      clientIpFromRequest lib networks ⟨some direct, headers⟩ = lib.str hop) ∨
    (lastUntrusted lib networks (Connection.firstLine ⟨some direct, headers⟩) = none ∧
      ipMatchesNetworks lib networks
        (clientIpFromRequest lib networks ⟨some direct, headers⟩) = true) := by
  simp only [clientIpFromRequest, h, if_true, Connection.firstLine]
  cases hline : Connection.header ⟨some direct, headers⟩ forwardedFor with
  | none => exact .inr ⟨rfl, h⟩
  | some line =>
    simp only [Option.map_some, Option.getD_some]
    by_cases hempty : line = []
    · subst hempty
      exact .inr ⟨rfl, by rwa [if_pos rfl]⟩
    rw [if_neg hempty]
    cases hlast : lastUntrusted lib networks (line.splitOn ',') with
    | some hop => exact .inl ⟨hop, rfl, rfl⟩
    | none =>
      refine .inr ⟨rfl, ?_⟩
      cases hhops : (line.splitOn ',').filterMap (readHop lib) with
      | nil => exact h
      | cons hop hops =>
        have hmem : hop ∈ (line.splitOn ',').filterMap (readHop lib) := by simp [hhops]
        have hread := read_of_mem hmem
        have htrusted : trusted networks hop = true := by
          simpa using List.find?_eq_none.mp hlast hop (List.mem_reverse.mpr hmem)
        simpa [ipMatchesNetworks, hread.read_str, hread.normalized] using htrusted

private def addresses : List (List Char × IPAddress) :=
  [("127.0.0.1".toList, .v4 0x7F000001), ("10.0.0.1".toList, .v4 0x0A000001),
    ("203.0.113.7".toList, .v4 0xCB007107)]

private def addressLib : Ipaddress where
  ipAddress text := (addresses.find? fun row => row.1 = text).map Prod.snd
  str ip := ((addresses.find? fun row => row.2 = ip).map Prod.fst).getD []
  read_str text ip h := by
    obtain ⟨row, hrow, rfl⟩ := Option.map_eq_some_iff.mp h
    have hmem := List.mem_of_find?_eq_some hrow
    clear h hrow
    revert row
    decide +kernel
  isPrivate ip := ip = .v4 0x0A000001
  isLoopback ip := ip = .v4 0x7F000001
  isLinkLocal _ := false

private def clientLine : List Char × List Char := (forwardedFor, "10.0.0.1".toList)

private def proxyLine : List Char × List Char := (forwardedFor, "203.0.113.7".toList)

private def proxied (headers : List (List Char × List Char)) : Connection :=
  ⟨some "127.0.0.1".toList, headers⟩

private def loopback : List IPNetwork := [.v4 0x7F000000 0xFF000000]

end ClaudeHub.Proxy
