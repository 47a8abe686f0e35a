/-
# PodmanApi.RegistryPrune.Policy — the class of a digest, and which classes may be deleted.

`internal/registryprune/policy.go`, and `nameProtected` of `handler.go`. Both are pure: the in-use
set, the digests protected elsewhere and the clock are arguments.

The rules are first-match, so what a verdict is worth depends on every rule above it. `deletable_cases`
says it once.
-/
import PodmanApi.RegistryPrune.InUse

namespace PodmanApi.RegistryPrune

open GoStd

/-! ## The ruleset -/

/-- A compiled regular expression; only whether it matches is ever asked. -/
abbrev Regexp : Type := String → Bool

/-- `Policy`. A nil pattern is `none`. -/
structure Policy where
  protectedExact : List String
  calVer : Option Regexp
  extraPerRepo : GoMap (Option Regexp)
  retentionDays : Int
  maxDeletesPerRepo : Int
  deleteUnrecognised : Bool

/-- `^[0-9]{4}\.[0-9]{2}\.[0-9]{2}$` -/
def isCalVer (tag : String) : Bool :=
  match tag.toList with
  | [a, b, c, d, p, e, f, q, g, h] =>
    [a, b, c, d, e, f, g, h].all Char.isDigit && p == '.' && q == '.'
  | _ => false

/-- `^(runtime-base|valvo-fork-v1)` -/
def isOtpBase (tag : String) : Bool :=
  hasPrefix tag "runtime-base" || hasPrefix tag "valvo-fork-v1"

def defaultPolicy : Policy where
  protectedExact := ["latest", "e2e", "dev", "main", "deps-cache", "scanners-cache"]
  calVer := some isCalVer
  extraPerRepo := [("otp", some isOtpBase)]
  retentionDays := 30
  maxDeletesPerRepo := 100
  deleteUnrecognised := false

inductive Class where
  | classProtected
  | calVer
  | repoProtected
  | sharesProtected
  | inUse
  | featRecent
  | shaIsLatest
  | unclassified
  | shaOrphan
  | featStale
  deriving DecidableEq, Repr

/-! ## Tests on the tags of a digest -/

/-- `bareHexTagRe`: `^[0-9a-f]{7,12}$` -/
def isBareHexTag (tag : String) : Bool :=
  tag.toList.all isLowerHex && 7 ≤ tag.toList.length && tag.toList.length ≤ 12

def hasBareHexTag (tags : List String) : Bool :=
  tags.any isBareHexTag

def allBareHexTags (tags : List String) : Bool :=
  !tags.isEmpty && tags.all isBareHexTag

def hasTag (tags : List String) (name : String) : Bool :=
  tags.any (· == name)

def matchesAnyExact (tags names : List String) : Bool :=
  tags.any fun t => names.any (t == ·)

def matchesAnyRegex (tags : List String) : Option Regexp → Bool
  | none => false
  | some re => tags.any re

def hasFeatTag (tags : List String) : Bool :=
  tags.any (hasPrefix · "feat-")

/-- The rule on `ExtraPerRepo`: a repository without an entry has no extra protection. -/
def matchesExtra (p : Policy) (repo : String) (tags : List String) : Bool :=
  match GoMap.get? p.extraPerRepo repo with
  | some extra => matchesAnyRegex tags extra
  | none => false

def nameProtected (repo : String) (tg : TagGroup) (p : Policy) : Bool :=
  matchesAnyExact tg.tags p.protectedExact || matchesAnyRegex tg.tags p.calVer ||
    matchesExtra p repo tg.tags

/-- `time.Duration(p.RetentionDays) * 24 * time.Hour`, in `int64` arithmetic. -/
def Policy.retention (p : Policy) : Duration :=
  wrap64 (p.retentionDays * 24 * hour)

/-! ## Classification -/

def classify (u : Unicode) (repo : String) (tg : TagGroup) (inUse : InUseSet)
    (protectedDigests : List String) (p : Policy) (now : Time) : Class :=
  if inUse.has u tg.digest then .inUse
  else if hasTag tg.tags "latest" && hasBareHexTag tg.tags then .shaIsLatest
  else if matchesAnyExact tg.tags p.protectedExact then .classProtected
  else if matchesAnyRegex tg.tags p.calVer then .calVer
  else if matchesExtra p repo tg.tags then .repoProtected
  else if protectedDigests.contains tg.digest then .sharesProtected
  else if hasFeatTag tg.tags then
    -- an unknown creation time counts as stale here; the handler keeps such a digest nevertheless
    if tg.created.isZero || p.retention < now.sub tg.created then .featStale else .featRecent
  else if allBareHexTags tg.tags then .shaOrphan
  else .unclassified

def deletable (c : Class) (p : Policy) : Bool :=
  match c with
  | .shaOrphan => true
  | .featStale => true
  | .unclassified => p.deleteUnrecognised
  | _ => false

/-- The last rules of `Classify`, which alone yield a class that may be deleted. -/
inductive Expendable (p : Policy) (tg : TagGroup) (now : Time) : Class → Prop where
  | stale (hfeat : hasFeatTag tg.tags = true)
      (hage : tg.created.isZero = true ∨ p.retention < now.sub tg.created) : Expendable p tg now .featStale
  | orphan (hhex : allBareHexTags tg.tags = true) : Expendable p tg now .shaOrphan
  | unrecognised (hopt : p.deleteUnrecognised = true) : Expendable p tg now .unclassified

theorem deletable_cases {u : Unicode} {repo : String} {tg : TagGroup} {inUse : InUseSet}
    {protectedDigests : List String} {p : Policy} {now : Time}
    (h : deletable (classify u repo tg inUse protectedDigests p now) p = true) :
    inUse.has u tg.digest = false ∧ nameProtected repo tg p = false ∧ tg.digest ∉ protectedDigests ∧
      Expendable p tg now (classify u repo tg inUse protectedDigests p now) := by
  unfold classify at h ⊢
  split at h
  · cases h
  rename_i huse
  split at h
  · cases h
  rename_i hlatest
  split at h
  · cases h
  rename_i hexact
  split at h
  · cases h
  rename_i hcal
  split at h
  · cases h
  rename_i hextra
  split at h
  · cases h
  rename_i hshared
  -- the six keeping rules are behind us; what is left is one of the three deleting ones
  have hname : nameProtected repo tg p = false := by
    simp [nameProtected, hexact, hcal, hextra]
  have hnot : tg.digest ∉ protectedDigests := by
    simpa using hshared
  refine ⟨by simpa using huse, hname, hnot, ?_⟩
  simp only [huse, hlatest, hexact, hcal, hextra, hshared]
  by_cases hfeat : hasFeatTag tg.tags = true
  · rw [if_pos hfeat] at h ⊢
    by_cases hage : (tg.created.isZero || decide (p.retention < now.sub tg.created)) = true
    · rw [if_pos hage]
      exact .stale hfeat (by simpa using hage)
    · rw [if_neg hage] at h
      cases h
  · rw [if_neg hfeat] at h ⊢
    by_cases hhex : allBareHexTags tg.tags = true
    · rw [if_pos hhex]
      exact .orphan hhex
    · rw [if_neg hhex] at h ⊢
      exact .unrecognised h

/-- `latest` and its hex alias are one digest, so the alias is no orphan. -/
example : classify .ascii "engine" ⟨"sha256:00", ["latest", "0a1b2c3"], ⟨0⟩⟩ {} [] defaultPolicy ⟨0⟩ =
    .shaIsLatest := by decide

/-! ## A digest and each of its tags -/

def only (tg : TagGroup) (tag : String) : TagGroup :=
  { tg with tags := [tag] }

section Single

variable {u : Unicode} {repo : String} {tg : TagGroup} {inUse : InUseSet} {protectedDigests : List String}
  {p : Policy} {now : Time} {tag : String}

theorem nameProtected_only (h : nameProtected repo tg p = false) (htag : tag ∈ tg.tags) :
    nameProtected repo (only tg tag) p = false := by
  have hany : ∀ f : String → Bool, tg.tags.any f = false → [tag].any f = false := by
    intro f hf
    simpa using List.any_eq_false.1 hf tag htag
  have hregex : ∀ re, matchesAnyRegex tg.tags re = false → matchesAnyRegex [tag] re = false := by
    intro re hre
    cases re with
    | none => rfl
    | some re => exact hany re hre
  simp only [nameProtected, Bool.or_eq_false_iff] at h ⊢
  obtain ⟨⟨hexact, hcal⟩, hextra⟩ := h
  refine ⟨⟨hany _ hexact, hregex _ hcal⟩, ?_⟩
  unfold matchesExtra at hextra ⊢
  split at hextra
  · exact hregex _ hextra
  · rfl

theorem classify_only (huse : inUse.has u tg.digest = false) (hname : nameProtected repo (only tg tag) p = false)
    (hshared : tg.digest ∉ protectedDigests) : classify u repo (only tg tag) inUse protectedDigests p now =
      if hasPrefix tag "feat-" then
        if tg.created.isZero || p.retention < now.sub tg.created then .featStale else .featRecent
      else if isBareHexTag tag then .shaOrphan else .unclassified := by
  simp only [nameProtected, Bool.or_eq_false_iff] at hname
  obtain ⟨⟨hexact, hcal⟩, hextra⟩ := hname
  have hlatest : (hasTag [tag] "latest" && hasBareHexTag [tag]) = false := by
    by_cases htag : tag = "latest"
    · subst htag
      decide
    · simp [hasTag, htag]
  have hdigest : protectedDigests.contains tg.digest = false := by
    simpa using hshared
  have hfeat : hasFeatTag [tag] = hasPrefix tag "feat-" := by
    simp [hasFeatTag]
  have hhex : allBareHexTags [tag] = isBareHexTag tag := by
    simp [allBareHexTags]
  unfold classify
  simp only [only] at hexact hcal hextra ⊢
  simp only [huse, hlatest, hexact, hcal, hextra, hdigest, hfeat, hhex]
  rfl

/-- The word before the dash of a feature tag has a letter that is no hex digit. -/
theorem not_feat_of_hex (h : isBareHexTag tag = true) : hasPrefix tag "feat-" = false := by
  by_contra hfeat
  have hstart : "feat-".toList <+: tag.toList := List.isPrefixOf_iff_prefix.1 (by simpa [hasPrefix] using hfeat)
  have hmem : 't' ∈ tag.toList := hstart.subset (by decide)
  simp only [isBareHexTag, Bool.and_eq_true, List.all_eq_true] at h
  exact absurd (h.1.1 't' hmem) (by decide)

theorem aged_of_feat (h : deletable (classify u repo tg inUse protectedDigests p now) p = true)
    (hfeat : hasFeatTag tg.tags = true) : tg.created.isZero = true ∨ p.retention < now.sub tg.created := by
  obtain ⟨-, -, -, hexpendable⟩ := deletable_cases h
  generalize hclass : classify u repo tg inUse protectedDigests p now = c at hexpendable
  cases hexpendable with
  | stale _ hage => exact hage
  | orphan hhex =>
    obtain ⟨tag, htag, hstarts⟩ := List.any_eq_true.1 hfeat
    have hall := List.all_eq_true.1 (Bool.and_eq_true_iff.1 hhex).2
    rw [not_feat_of_hex (hall tag htag)] at hstarts
    cases hstarts
  | unrecognised hopt =>
    -- the rule on feature tags comes before the last one
    unfold classify at hclass
    repeat' split at hclass
    all_goals cases hclass

/-- **A digest and its tags.**  When a digest may be deleted, each of its tags could go on its own, unless a stale
feature tag takes with it a tag that only an explicit request would delete. -/
theorem deletable_only_iff (h : deletable (classify u repo tg inUse protectedDigests p now) p = true) :
    (∀ tag ∈ tg.tags, deletable (classify u repo (only tg tag) inUse protectedDigests p now) p = true) ↔
      p.deleteUnrecognised = true ∨ hasFeatTag tg.tags = false ∨
        ∀ tag ∈ tg.tags, (hasPrefix tag "feat-" || isBareHexTag tag) = true := by
  obtain ⟨huse, hname, hshared, hexpendable⟩ := deletable_cases h
  -- a tag by itself is aged with the digest, or all hex, or goes on request only
  have hone : ∀ tag ∈ tg.tags, deletable (classify u repo (only tg tag) inUse protectedDigests p now) p =
      (hasPrefix tag "feat-" || isBareHexTag tag || p.deleteUnrecognised) := by
    intro tag htag
    rw [classify_only huse (nameProtected_only hname htag) hshared]
    by_cases hfeat : hasPrefix tag "feat-" = true
    · have hage := aged_of_feat h (List.any_eq_true.2 ⟨tag, htag, hfeat⟩)
      simp [hfeat, hage, deletable]
    · by_cases hhex : isBareHexTag tag = true
      · simp [hfeat, hhex, deletable]
      · simp [hfeat, hhex, deletable]
  constructor
  · intro hall
    by_cases hopt : p.deleteUnrecognised = true
    · exact .inl hopt
    · refine .inr (.inr fun tag htag => ?_)
      simpa [hone tag htag, hopt] using hall tag htag
  · intro hcond tag htag
    rw [hone tag htag]
    rcases hcond with hopt | hfeat | hall
    · simp [hopt]
    · -- without a feature tag the digest is an orphan, or deleted on request
      generalize hclass : classify u repo tg inUse protectedDigests p now = c at hexpendable
      cases hexpendable with
      | stale hstale _ => rw [hfeat] at hstale; cases hstale
      | orphan hhex => simp [List.all_eq_true.1 (Bool.and_eq_true_iff.1 hhex).2 tag htag]
      | unrecognised hopt => simp [hopt]
    · simp [hall tag htag]

def undated (tags : List String) : TagGroup :=
  ⟨"sha256:00", tags, ⟨0⟩⟩

/-- A stale feature tag and a tag of no known kind are one digest: it is deleted, and with it a tag that would have
been kept. -/
theorem stale_feat_takes_branch :
    deletable (classify .ascii "engine" (undated ["feat-login", "candidate"]) {} [] defaultPolicy ⟨0⟩)
        defaultPolicy = true ∧
      deletable (classify .ascii "engine" (only (undated ["feat-login", "candidate"]) "candidate") {} []
        defaultPolicy ⟨0⟩) defaultPolicy = false := by
  decide

/-- A digest of one feature tag and its hex alias goes as each of its tags would. -/
theorem stale_feat_with_alias :
    deletable (classify .ascii "engine" (undated ["feat-login", "0a1b2c3"]) {} [] defaultPolicy ⟨0⟩)
        defaultPolicy = true ∧
      deletable (classify .ascii "engine" (only (undated ["feat-login", "0a1b2c3"]) "feat-login") {} []
        defaultPolicy ⟨0⟩) defaultPolicy = true := by
  have h : deletable (classify .ascii "engine" (undated ["feat-login", "0a1b2c3"]) {} [] defaultPolicy ⟨0⟩)
      defaultPolicy = true := by decide
  exact ⟨h, (deletable_only_iff h).2 (by decide) "feat-login" (by decide)⟩

end Single

end PodmanApi.RegistryPrune
