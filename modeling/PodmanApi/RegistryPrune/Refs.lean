/-
# PodmanApi.RegistryPrune.Refs — the grammar of image references.

The pure half of the in-use computation: which strings are tags, digests and repository names
(`internal/imgregistry/name.go`), and how `internal/registryprune/inuse.go` takes an image reference
apart. Each regular expression of the source is a function on code points, with the expression in
its docstring.
-/
import PodmanApi.Data

namespace PodmanApi.RegistryPrune

open GoStd

/-! ## Tags, digests and repository names -/

/-- `[a-z0-9]` -/
def isLowerAlnum (c : Char) : Bool :=
  c.isLower || c.isDigit

/-- `[a-f0-9]` -/
def isLowerHex (c : Char) : Bool :=
  c.isDigit || ('a' ≤ c && c ≤ 'f')

/-- `[a-fA-F0-9]` -/
def isHex (c : Char) : Bool :=
  isLowerHex c || ('A' ≤ c && c ≤ 'F')

/-- `[a-zA-Z0-9._-]` -/
def isTagChar (c : Char) : Bool :=
  c.isAlphanum || c == '.' || c == '_' || c == '-'

/-- `tagRe`: `^[a-zA-Z0-9_][a-zA-Z0-9._-]{0,127}$` -/
def matchesTag (s : String) : Bool :=
  match s.toList with
  | [] => false
  | c :: cs => (c.isAlphanum || c == '_') && cs.all isTagChar && cs.length ≤ 127

/-- `[a-z0-9]+(?:[+._-][a-z0-9]+)*`, read from left to right; the flag says whether the previous
character was alphanumeric. -/
def algorithmFrom : Bool → List Char → Bool
  | alnum, [] => alnum
  | alnum, c :: cs =>
    if isLowerAlnum c then algorithmFrom true cs
    else alnum && ['+', '.', '_', '-'].contains c && algorithmFrom false cs

/-- The shape `^([a-z0-9]+(?:[+._-][a-z0-9]+)*):(H{32,})$` for a class `H` of hex digits, with its
two groups. Neither group can hold a colon, so the first one splits the string. -/
def digestGroups (hexDigit : Char → Bool) (s : String) : Option (String × String) :=
  match cutAt ':' s.toList with
  | none => none
  | some (algo, hex) =>
    if algorithmFrom false algo && hex.all hexDigit && 32 ≤ hex.length then
      some (String.ofList algo, String.ofList hex)
    else none

/-- `digestRe`: `^[a-z0-9]+(?:[+._-][a-z0-9]+)*:[a-fA-F0-9]{32,}$`, as `imgregistry.IsDigestRef`. -/
def isDigestRef (ref : String) : Bool :=
  (digestGroups isHex ref).isSome

def validRef (ref : String) : Bool :=
  ref != "" && (matchesTag ref || isDigestRef ref)

/-- Where a scan of one repository path component stands. -/
inductive ComponentState where
  | start
  | alnum
  | dotted
  | underscore
  | dashes
  | fail
  deriving DecidableEq, Repr

/-- One character of `repoComponentRe`: `^[a-z0-9]+(?:(?:[._]|__|[-]+)[a-z0-9]+)*$` -/
def ComponentState.next (st : ComponentState) (c : Char) : ComponentState :=
  match st with
  | .start => if isLowerAlnum c then .alnum else .fail
  | .alnum =>
    if isLowerAlnum c then .alnum
    else if c == '.' then .dotted
    else if c == '_' then .underscore
    else if c == '-' then .dashes
    else .fail
  | .dotted => if isLowerAlnum c then .alnum else .fail
  | .underscore => if isLowerAlnum c then .alnum else if c == '_' then .dotted else .fail
  | .dashes => if isLowerAlnum c then .alnum else if c == '-' then .dashes else .fail
  | .fail => .fail

def validRepoName (repo : String) : Bool :=
  repo != "" && (repo.toList.splitOn '/').all fun part =>
    part.foldl ComponentState.next .start == .alnum

/-! ## Bare digests -/

/-- `bareImageIDRe`: `^[a-f0-9]{64}$` -/
def isBareImageID (s : String) : Bool :=
  s.toList.all isLowerHex && s.toList.length == 64

def digestAlgoHexLen : List (String × Nat) :=
  [("sha256", 64), ("sha384", 96), ("sha512", 128)]

def canonicalDigestHexLen (n : Nat) : Bool :=
  digestAlgoHexLen.any fun p => p.2 == n

inductive BareDigestKind where
  | notBareDigest
  | trustedBareDigest
  | suspectBareDigest
  deriving DecidableEq, Repr

def classifyBareDigest (ref : String) : BareDigestKind :=
  match digestGroups isLowerHex ref with
  | none => .notBareDigest
  | some (algo, hex) =>
    if !isDigestRef ref then .notBareDigest
    else match digestAlgoHexLen.lookup algo with
      | some want => if hex.length == want then .trustedBareDigest else .suspectBareDigest
      | none => if canonicalDigestHexLen hex.length then .suspectBareDigest else .notBareDigest

/-! ## Names and hosts -/

def publicRegistryHosts : List String :=
  ["docker.io", "index.docker.io", "registry-1.docker.io", "quay.io", "ghcr.io", "gcr.io",
    "registry.k8s.io", "k8s.gcr.io", "public.ecr.aws", "mcr.microsoft.com",
    "registry.gitlab.com", "codeberg.org"]

/-- The three parts `splitRef` breaks a reference into. -/
structure RefParts where
  name : String
  tag : String
  digest : String
  deriving DecidableEq, Repr

/-- The tag a reference names; without one it names `latest`. -/
def RefParts.tagOrLatest (p : RefParts) : String :=
  if p.tag = "" then "latest" else p.tag

variable (u : Unicode)

def splitRef (ref : String) : RefParts :=
  match lastIndex ref '@' with
  | some i => ⟨sliceTo ref i, "", u.lower (sliceFrom ref (i + 1))⟩
  | none =>
    -- a missing separator is index -1 in the source, so any colon beats a missing slash
    match lastIndex ref '/', lastIndex ref ':' with
    | none, some colon => ⟨sliceTo ref colon, sliceFrom ref (colon + 1), ""⟩
    | some slash, some colon =>
      if slash < colon then ⟨sliceTo ref colon, sliceFrom ref (colon + 1), ""⟩
      else ⟨ref, "", ""⟩
    | _, none => ⟨ref, "", ""⟩

def looksLikeRegistryHost (s : String) : Bool :=
  s == "localhost" || containsAny s ".:"

def hostComponent (name : String) : String :=
  match index name "/" with
  | none => if looksLikeRegistryHost name then name else ""
  | some slash => if looksLikeRegistryHost (sliceTo name slash) then sliceTo name slash else ""

def isOurHost (h : String) (registryHosts : List String) : Bool :=
  registryHosts.any fun r => u.equalFold h r

/-- `repoFromName`: the repository, and whether the name can be ours at all. -/
def repoFromName (name : String) (registryHosts : List String) : String × Bool :=
  if name == "" then ("", true)
  else
    let h := hostComponent name
    if h == "" then (name, true)
    else if name == h then ("", true)
    else if !isOurHost u h registryHosts then ("", false)
    else (sliceFrom name (h.toList.length + 1), true)

def isImageParam (name : String) : Bool :=
  let n := u.lower name
  n == "image" || hasSuffix n "_image"

def normalizeRegistryHost (raw : String) : Except String String :=
  let lowered := u.lower (trimSpace raw)
  let h := match index lowered "://" with
    | some i => sliceFrom lowered (i + 3)
    | none => lowered
  let h := trimSpace (trimRight h '/')
  if h == "" then .error "empty"
  else if containsAny h "/" then .error "must be a bare host[:port], with no path"
  else if h.toList.any isSpace then .error "must not contain whitespace"
  else if containsAny h "@?#" then
    .error "must be a bare host[:port], with no userinfo, query or fragment"
  else if !looksLikeRegistryHost h then
    .error ("must contain \".\" or \":\", or be \"localhost\"; " ++
      "otherwise it can never be the host component of an image reference")
  else .ok h

/-! ## What the parsers promise -/

/-- A bare digest: a registered algorithm, and hex of exactly the length that algorithm has. -/
def IsBareDigest (s : String) : Prop :=
  ∃ algo hex, s = algo ++ ":" ++ hex ∧ (algo, hex.length) ∈ digestAlgoHexLen ∧
    hex.toList.all isLowerHex = true

variable {s : String}

theorem IsBareDigest.ne_empty (h : IsBareDigest s) : s ≠ "" := by
  obtain ⟨algo, hex, rfl, -⟩ := h
  simp

theorem IsBareDigest.colon_mem (h : IsBareDigest s) : ':' ∈ s.toList := by
  obtain ⟨algo, hex, rfl, -⟩ := h
  simp

theorem digestGroups_eq_some {hexDigit : Char → Bool} {algo hex : String}
    (h : digestGroups hexDigit s = some (algo, hex)) :
    s = algo ++ ":" ++ hex ∧ hex.toList.all hexDigit = true ∧ 32 ≤ hex.length := by
  unfold digestGroups at h
  split at h
  · cases h
  · rename_i l r hcut
    split at h
    · rename_i hshape
      simp only [Bool.and_eq_true] at hshape
      cases h
      refine ⟨?_, by simpa using hshape.1.2, by simpa using hshape.2⟩
      rw [← String.toList_inj, cutAt_eq_some hcut]
      simp
    · cases h

/-- The digests the sweep trusts without asking the registry are digests. -/
theorem isBareDigest_of_trusted (h : classifyBareDigest s = .trustedBareDigest) : IsBareDigest s := by
  unfold classifyBareDigest at h
  split at h
  · cases h
  · rename_i algo hex hgroups
    obtain ⟨hs, hhex, -⟩ := digestGroups_eq_some hgroups
    refine ⟨algo, hex, hs, ?_, hhex⟩
    split at h
    · cases h
    · split at h
      · rename_i want hlook
        split at h
        · rename_i hlen
          rw [beq_iff_eq] at hlen
          rw [hlen]
          obtain ⟨l₁, l₂, hl, -⟩ := List.lookup_eq_some_iff.1 hlook
          rw [hl]
          exact List.mem_append_right _ List.mem_cons_self
        · cases h
      · split at h <;> cases h

/-- Only a name qualified with a host that is none of ours is skipped before the catalog is
consulted. -/
theorem foreign_of_not_ours {name : String} {registryHosts : List String}
    (h : (repoFromName u name registryHosts).2 = false) :
    hostComponent name ≠ "" ∧ isOurHost u (hostComponent name) registryHosts = false := by
  unfold repoFromName at h
  split at h
  · cases h
  · dsimp only at h
    split at h
    · cases h
    · rename_i hhost
      split at h
      · cases h
      · split at h
        · rename_i hours
          exact ⟨by simpa using hhost, by simpa using hours⟩
        · cases h

end PodmanApi.RegistryPrune
