/-
# PodmanApi.RegistryPrune.InUseSpec — what a valid in-use set is worth.

Two questions about `buildInUseSet`, whatever the calls answer and whenever they fail. COMPLETENESS: which
references does a returned set account for? EXACTNESS: which digests are in it? Precisely those that some swept
reference resolves to; what the sweep does not look at (a template body, a default that no stored spec
carries) is not protected.

`Settled` inverts `resolveRef` once. Each loop of the sweep is an instance of `fold_adds`: a stage says what it
adds and what it has dealt with, and both survive the stages after it.
-/
import PodmanApi.RegistryPrune.InUse

namespace PodmanApi.RegistryPrune

open GoStd Calls

/-! ## Resolving one reference -/

variable {host ref : String} {obs : List Observed} {maxAge : Duration} {keys : List SpecKey}
  {out : RefOutcome} {t : History}

section Resolve

variable (u : Unicode) (known ourHosts : List String)

/-- The ways `resolveRef` succeeds on `ref` after the answered calls `t`. -/
inductive Settled (t : History) (ref : String) : RefOutcome → Prop where
  /-- an algorithm-less image ID: recorded under `sha256:`, but not counted as covered -/
  | imageID (hid : isBareImageID (u.lower (trimSpace ref)) = true) :
      Settled t ref { digest := "sha256:" ++ u.lower (trimSpace ref) }
  /-- a bare digest of a registered algorithm -/
  | bareDigest (hbare : classifyBareDigest (u.lower (trimSpace ref)) = .trustedBareDigest) :
      Settled t ref { digest := u.lower (trimSpace ref), covered := true }
  /-- `name@digest` -/
  | pinned (out : RefOutcome) (hne : (splitRef u (trimSpace ref)).digest ≠ "")
      (hdigest : isDigestRef (splitRef u (trimSpace ref)).digest = true)
      (hout : out.digest = (splitRef u (trimSpace ref)).digest) (hcov : out.covered = true) :
      Settled t ref out
  /-- qualified with a registry host that is none of ours -/
  | foreign (out : RefOutcome)
      (hours : (repoFromName u (splitRef u (trimSpace ref)).name ourHosts).2 = false)
      (hout : out.digest = "") (hcov : out.covered = true) : Settled t ref out
  /-- a repository that is not in the catalog -/
  | outside (out : RefOutcome)
      (hours : (repoFromName u (splitRef u (trimSpace ref)).name ourHosts).2 = true)
      (hknown : (repoFromName u (splitRef u (trimSpace ref)).name ourHosts).1 ∉ known)
      (hout : out.digest = "") (hcov : out.covered = true) : Settled t ref out
  /-- a tag of a catalog repository that the registry resolved -/
  | byTag (out : RefOutcome) (digest : String)
      (hours : (repoFromName u (splitRef u (trimSpace ref)).name ourHosts).2 = true)
      (hknown : (repoFromName u (splitRef u (trimSpace ref)).name ourHosts).1 ∈ known)
      (hans : ⟨.manifest (repoFromName u (splitRef u (trimSpace ref)).name ourHosts).1
        (splitRef u (trimSpace ref)).tagOrLatest, .ok digest⟩ ∈ t)
      (hne : digest ≠ "") (hout : out.digest = u.lower digest) (hcov : out.covered = true) :
      Settled t ref out

theorem qualify_digest (name : String) : (qualify u name ourHosts).digest = "" := by
  unfold qualify
  dsimp only
  split <;> rfl

variable {u known ourHosts}

theorem settled_of_returns_named (h : Returns (resolveNamed u known ourHosts (trimSpace ref)).run t (.ok out)) :
    Settled u known ourHosts t ref out := by
  unfold resolveNamed at h
  dsimp only at h
  split at h
  · rename_i hne
    split at h
    · rename_i hdigest
      obtain ⟨-, rfl⟩ := returns_pure.1 h
      exact .pinned _ hne hdigest (by dsimp only) rfl
    · exact (not_returns_throw h).elim
  split at h
  · rename_i hours
    obtain ⟨-, rfl⟩ := returns_pure.1 h
    refine .foreign _ hours ?_ rfl
    dsimp only
    exact qualify_digest u ourHosts _
  rename_i hours
  rw [Bool.not_eq_false] at hours
  split at h
  · exact (not_returns_throw h).elim
  split at h
  · rename_i hknown
    obtain ⟨-, rfl⟩ := returns_pure.1 h
    refine .outside _ hours (by simpa using hknown) ?_ rfl
    dsimp only
    exact qualify_digest u ourHosts _
  rename_i hknown
  split at h
  · -- the one call: its answer, then the checks on it
    obtain ⟨t₁, t₂, digest, hask, hcheck, rfl⟩ := returns_bind_ok.1 h
    rw [returns_mapErr_ok] at hask
    obtain rfl := returns_perform.1 hask
    split at hcheck
    · exact (not_returns_throw hcheck).elim
    rename_i hne
    split at hcheck
    · obtain ⟨rfl, rfl⟩ := returns_pure.1 hcheck
      refine .byTag _ digest hours ?_ ?_ hne (by dsimp only) rfl
      · simpa using hknown
      · exact List.mem_singleton.2 rfl
    · exact (not_returns_throw hcheck).elim
  · exact (not_returns_throw h).elim

/-- The inversion of `resolveRef`: a success is one of the six ways. -/
theorem settled_of_returns (h : Returns (resolveRef u known ourHosts ref).run t (.ok out)) :
    Settled u known ourHosts t ref out := by
  unfold resolveRef at h
  dsimp only at h
  split at h
  · exact (not_returns_throw h).elim
  split at h
  · rename_i hid
    obtain ⟨-, rfl⟩ := returns_pure.1 h
    exact .imageID hid
  cases hkind : classifyBareDigest (u.lower (trimSpace ref)) with
  | trustedBareDigest =>
    rw [hkind] at h
    obtain ⟨-, rfl⟩ := returns_pure.1 h
    exact .bareDigest hkind
  | suspectBareDigest =>
    rw [hkind] at h
    exact (not_returns_throw h).elim
  | notBareDigest =>
    rw [hkind] at h
    exact settled_of_returns_named h

theorem Settled.mono {t' : History} (ht : t ⊆ t')
    (h : Settled u known ourHosts t ref out) : Settled u known ourHosts t' ref out := by
  cases h with
  | imageID hid => exact .imageID hid
  | bareDigest hbare => exact .bareDigest hbare
  | pinned _ hne hdigest hout hcov => exact .pinned _ hne hdigest hout hcov
  | foreign _ hours hout hcov => exact .foreign _ hours hout hcov
  | outside _ hours hknown hout hcov => exact .outside _ hours hknown hout hcov
  | byTag _ digest hours hknown hans hne hout hcov =>
    exact .byTag _ digest hours hknown (ht hans) hne hout hcov

end Resolve

/-! ## A resolution reads nothing but manifests -/

section Footprint

variable (u : Unicode) (known ourHosts : List String)

/-- The one kind of call `resolveRef` makes. -/
def IsManifest (op : Op) : Prop :=
  ∃ repo ref, op = .manifest repo ref

theorem resolveNamed_issues (ref : String) : (resolveNamed u known ourHosts ref).run.Issues IsManifest := by
  unfold resolveNamed
  dsimp only
  split
  · exact issues_pure_or_throw
  split
  · exact issues_pure
  split
  · exact issues_throw
  split
  · exact issues_pure
  split
  · refine .andThen (.mapErr ?_) fun digest => ?_
    · exact issues_perform.2 ⟨_, _, rfl⟩
    · split
      · exact issues_throw
      · exact issues_pure_or_throw
  · exact issues_throw

theorem resolveRef_issues (ref : String) : (resolveRef u known ourHosts ref).run.Issues IsManifest := by
  unfold resolveRef
  by_cases hempty : trimSpace ref = ""
  · rw [if_pos hempty]
    exact issues_throw
  rw [if_neg hempty]
  by_cases hid : isBareImageID (u.lower (trimSpace ref)) = true
  · rw [if_pos hid]
    exact issues_pure
  rw [if_neg hid]
  generalize classifyBareDigest (u.lower (trimSpace ref)) = kind
  cases kind with
  | trustedBareDigest | suspectBareDigest => exact issues_ret _
  | notBareDigest => exact resolveNamed_issues u known ourHosts (trimSpace ref)

end Footprint

/-! ## What one stage of the sweep adds -/

section Sweep

variable (u : Unicode) (known ourHosts : List String)

/-- `ref` was resolved during the run `t`, with outcome `out`. -/
def Resolves (t : History) (ref : String) (out : RefOutcome) : Prop :=
  ∃ t', t' ⊆ t ∧ Returns (resolveRef u known ourHosts ref).run t' (.ok out)

/-- A stage that saw `t` took the sweep from `acc` to `acc'`, resolving only the references `P` that `t` shows:
nothing is forgotten, and every new digest comes from such a reference. -/
structure Adds (P : History → String → Prop) (t : History) (acc acc' : Sweep) : Prop where
  keeps : acc.digests ⊆ acc'.digests
  flags : acc'.nonDigest = [] → acc.nonDigest = []
  origin : ∀ d ∈ acc'.digests, d ∈ acc.digests ∨
    ∃ ref out, P t ref ∧ Resolves u known ourHosts t ref out ∧ out.digest = d ∧ d ≠ ""

/-- `out` has been recorded: its digest, if it has one, is in the set. -/
def Recorded (acc : Sweep) (out : RefOutcome) : Prop :=
  out.digest ≠ "" → out.digest ∈ acc.digests

variable {u known ourHosts} {P Q R : History → String → Prop} {t t' : History} {acc acc' acc'' : Sweep}

theorem Resolves.mono (ht : t ⊆ t')
    (h : Resolves u known ourHosts t ref out) : Resolves u known ourHosts t' ref out := by
  obtain ⟨t₀, hsub, hrun⟩ := h
  exact ⟨t₀, List.Subset.trans hsub ht, hrun⟩

theorem Resolves.settled (h : Resolves u known ourHosts t ref out) : Settled u known ourHosts t ref out := by
  obtain ⟨t₀, hsub, hrun⟩ := h
  exact (settled_of_returns hrun).mono hsub

theorem Recorded.mono (hd : acc.digests ⊆ acc'.digests) (h : Recorded acc out) : Recorded acc' out :=
  fun hne => hd (h hne)

theorem Adds.refl (acc : Sweep) : Adds u known ourHosts P t acc acc :=
  ⟨fun _ hd => hd, fun h => h, fun _ hd => .inl hd⟩

theorem Adds.weaken (hPQ : ∀ ref, P t ref → Q t' ref) (ht : t ⊆ t')
    (h : Adds u known ourHosts P t acc acc') : Adds u known ourHosts Q t' acc acc' where
  keeps := h.keeps
  flags := h.flags
  origin := by
    intro d hd
    rcases h.origin d hd with hd | ⟨ref, out, hP, hres, hout⟩
    · exact .inl hd
    · exact .inr ⟨ref, out, hPQ ref hP, hres.mono ht, hout⟩

theorem Adds.trans (h : Adds u known ourHosts P t acc acc')
    (h' : Adds u known ourHosts P t acc' acc'') : Adds u known ourHosts P t acc acc'' where
  keeps := List.Subset.trans h.keeps h'.keeps
  flags := fun hnd => h.flags (h'.flags hnd)
  origin := by
    intro d hd
    rcases h'.origin d hd with hd | hnew
    · exact h.origin d hd
    · exact .inr hnew

theorem adds_record (acc : Sweep) (hP : P t ref) (hres : Resolves u known ourHosts t ref out) :
    Adds u known ourHosts P t acc (acc.record out ref) ∧ Recorded (acc.record out ref) out := by
  unfold Sweep.record Recorded
  by_cases hd : out.digest = ""
  · simp only [hd]
    exact ⟨⟨fun _ h => h, fun h => h, fun _ h => .inl h⟩, fun h => absurd rfl h⟩
  · simp only [hd]
    refine ⟨⟨fun _ h => List.mem_insert_of_mem h, fun h => h, fun d h => ?_⟩,
      fun _ => List.mem_insert_self⟩
    rcases List.mem_insert_iff.1 h with rfl | h
    · exact .inr ⟨ref, out, hP, hres, rfl, hd⟩
    · exact .inl h

/-- Every loop of the sweep: if one iteration adds `P x` and deals with `x`, for good, then the loop adds the
union and has dealt with every element. -/
theorem fold_adds {γ : Type} {body : Sweep → γ → Job Sweep} {P : γ → History → String → Prop}
    {D : γ → History → Sweep → Prop} {xs : List γ} (hbody : ∀ x ∈ xs, ∀ a a' t, Returns (body a x).run t (.ok a') →
      Adds u known ourHosts (P x) t a a' ∧ D x t a') (hP : ∀ x t t' ref, t ⊆ t' → P x t ref → P x t' ref)
    (hmono : ∀ x t t' a a', t ⊆ t' → a.digests ⊆ a'.digests →
      (a'.nonDigest = [] → a.nonDigest = []) → D x t a → D x t' a')
    (h : Returns (xs.foldlM body acc).run t (.ok acc')) :
    Adds u known ourHosts (fun t ref => ∃ x ∈ xs, P x t ref) t acc acc' ∧ ∀ x ∈ xs, D x t acc' := by
  suffices key : Adds u known ourHosts (fun t ref => ∃ x ∈ xs, P x t ref) ([] ++ t) acc acc' ∧
      ∀ x ∈ xs, D x ([] ++ t) acc' from key
  refine returns_foldlM_ok
    (fun done a past => Adds u known ourHosts (fun t ref => ∃ x ∈ xs, P x t ref) past acc a ∧
      ∀ x ∈ done, D x past a) ?_ ⟨Adds.refl acc, nofun⟩ h
  intro done x a a' past t hx ⟨hadds, hdone⟩ hrun
  obtain ⟨hstep, hx'⟩ := hbody x hx a a' t hrun
  have hleft : past ⊆ past ++ t := List.subset_append_left _ _
  have hright : t ⊆ past ++ t := List.subset_append_right _ _
  have hbefore := hadds.weaken (Q := fun t ref => ∃ x ∈ xs, P x t ref)
    (fun ref ⟨y, hy, h⟩ => ⟨y, hy, hP y _ _ ref hleft h⟩) hleft
  have hnow := hstep.weaken (Q := fun t ref => ∃ x ∈ xs, P x t ref)
    (fun ref h => ⟨x, hx, hP x _ _ ref hright h⟩) hright
  refine ⟨hbefore.trans hnow, fun y hy => ?_⟩
  rcases List.mem_append.1 hy with hy | hy
  · exact hmono y past _ a a' hleft hstep.keeps hstep.flags (hdone y hy)
  · rw [List.mem_singleton.1 hy]
    exact hmono x t _ a' a' hright (fun _ h => h) (fun h => h) hx'

end Sweep

/-! ## The stages -/

variable {catalog : Job (List String)} {fresh : Freshness} {cfg : Config} {now : Time}

section Stages

variable (u : Unicode) (known ourHosts : List String)

def ContainerRef (c : ObservedContainer) (ref : String) : Prop :=
  c.isInfra = false ∧ (ref = c.image ∨ ref = c.imageTag)

/-- A container has been dealt with: its image resolved and, unless the run is doomed, was covered;
its tag was tried, and recorded if it resolved. -/
structure ContainerDone (c : ObservedContainer) (t : History) (acc : Sweep) : Prop where
  image : c.isInfra = false → ∃ out, Resolves u known ourHosts t c.image out ∧ Recorded acc out ∧
    (acc.nonDigest = [] → out.covered = true)
  tag : c.isInfra = false → ∃ t' r, t' ⊆ t ∧
    Returns (resolveRef u known ourHosts c.imageTag).run t' r ∧ ∀ out, r = .ok out → Recorded acc out

def ParamRef (p : String × Value) (ref : String) : Prop :=
  isImageParam u p.1 = true ∧ p.2 = .string ref ∧ trimSpace ref ≠ ""

def ParamDone (p : String × Value) (t : History) (acc : Sweep) : Prop :=
  isImageParam u p.1 = true → ∃ s, p.2 = .string s ∧
    (trimSpace s ≠ "" → ∃ out, Resolves u known ourHosts t s out ∧ Recorded acc out)

def SpecRef (host : String) (k : SpecKey) (t : History) (ref : String) : Prop :=
  ∃ sp, ⟨.getSpec host k.template k.slug, .ok sp⟩ ∈ t ∧ ∃ p ∈ sp.parameters, ParamRef u p ref

/-- A stored spec was read and all its parameters have been dealt with. -/
def SpecDone (host : String) (k : SpecKey) (t : History) (acc : Sweep) : Prop :=
  ∃ sp, ⟨.getSpec host k.template k.slug, .ok sp⟩ ∈ t ∧
    ∀ p ∈ sp.parameters, ParamDone u known ourHosts p t acc

/-- The references the sweep looks at on one host, as the run saw them. -/
inductive Refers (host : String) (t : History) (ref : String) : Prop where
  | container (obs : List Observed) (fresh : Freshness) (o : Observed) (c : ObservedContainer)
      (hlist : ⟨.listAllInstancesWithMeta host, .ok (obs, fresh)⟩ ∈ t) (ho : o ∈ obs)
      (hc : c ∈ o.containers) (href : ContainerRef c ref)
  | param (keys : List SpecKey) (k : SpecKey) (hkeys : ⟨.listSpecKeys host, .ok keys⟩ ∈ t)
      (hk : k ∈ keys) (href : SpecRef u host k t ref)

/-- A host has been swept: its snapshot is usable and recent, and everything in it and in its stored
specs has been dealt with. -/
structure HostSwept (maxAge : Duration) (host : String) (t : History) (acc : Sweep)
    (obs : List Observed) (fresh : Freshness) (now : Time) (keys : List SpecKey) : Prop where
  listed : ⟨.listAllInstancesWithMeta host, .ok (obs, fresh)⟩ ∈ t
  reachable : fresh.reachable = true
  hasData : fresh.hasData = true
  fetched : fresh.fetchedAt.isZero = false
  clock : ⟨.now, now⟩ ∈ t
  recent : now.sub fresh.fetchedAt ≤ maxAge
  images : ∀ o ∈ obs, ∀ c ∈ o.containers, ContainerDone u known ourHosts c t acc
  specs : ⟨.listSpecKeys host, .ok keys⟩ ∈ t
  params : ∀ k ∈ keys, SpecDone u known ourHosts host k t acc

variable {u known ourHosts} {t t' : History} {acc acc' : Sweep}

variable {P : History → String → Prop} {c : ObservedContainer} {p : String × Value}

theorem ContainerDone.mono (ht : t ⊆ t')
    (hd : acc.digests ⊆ acc'.digests) (hnd : acc'.nonDigest = [] → acc.nonDigest = [])
    (h : ContainerDone u known ourHosts c t acc) : ContainerDone u known ourHosts c t' acc' where
  image := by
    intro hinfra
    obtain ⟨out, hres, hrec, hcov⟩ := h.image hinfra
    exact ⟨out, hres.mono ht, hrec.mono hd, fun hnil => hcov (hnd hnil)⟩
  tag := by
    intro hinfra
    obtain ⟨t₀, r, hsub, hrun, hrec⟩ := h.tag hinfra
    exact ⟨t₀, r, List.Subset.trans hsub ht, hrun, fun out hout => (hrec out hout).mono hd⟩

theorem ParamDone.mono (ht : t ⊆ t') (hd : acc.digests ⊆ acc'.digests)
    (h : ParamDone u known ourHosts p t acc) : ParamDone u known ourHosts p t' acc' := by
  intro himage
  obtain ⟨s, hs, hdone⟩ := h himage
  refine ⟨s, hs, fun hblank => ?_⟩
  obtain ⟨out, hres, hrec⟩ := hdone hblank
  exact ⟨out, hres.mono ht, hrec.mono hd⟩

theorem adds_flag (msg : String) : Adds u known ourHosts P t acc (acc.flag msg) :=
  ⟨fun _ h => h, fun h => absurd h (by simp [Sweep.flag]), fun _ h => .inl h⟩

theorem adds_conclude (got : RefOutcome) (msg : String) (h : Adds u known ourHosts P t acc acc') :
    Adds u known ourHosts P t acc (if got.covered then acc' else acc'.flag msg) ∧
      ((if got.covered then acc' else acc'.flag msg).nonDigest = [] → got.covered = true) := by
  cases hcov : got.covered
  · refine ⟨h.trans (adds_flag msg), fun hnil => ?_⟩
    simp [Sweep.flag] at hnil
  · exact ⟨h, fun _ => rfl⟩

theorem sweepContainer_adds {slug : String}
    (h : Returns (sweepContainer u known ourHosts host slug acc c).run t (.ok acc')) :
    Adds u known ourHosts (fun _ => ContainerRef c) t acc acc' ∧ ContainerDone u known ourHosts c t acc' := by
  unfold sweepContainer at h
  split at h
  · rename_i hinfra
    obtain ⟨-, rfl⟩ := returns_pure.1 h
    have hcon : ¬ c.isInfra = false := by simp [hinfra]
    exact ⟨Adds.refl _, fun hnot => absurd hnot hcon, fun hnot => absurd hnot hcon⟩
  rename_i hinfra
  rw [Bool.not_eq_true] at hinfra
  obtain ⟨t₁, tr, got, himage, h₁, rfl⟩ := returns_bind_ok.1 h
  rw [returns_mapErr_ok] at himage
  obtain ⟨t₂, t₃, gotTag, htag, h₂, rfl⟩ := returns_bind_ok.1 h₁
  rw [returns_attempt] at htag
  have hres : Resolves u known ourHosts (t₁ ++ (t₂ ++ t₃)) c.image got :=
    ⟨t₁, List.subset_append_left _ _, himage⟩
  have hsub : t₂ ⊆ t₁ ++ (t₂ ++ t₃) :=
    fun _ h => List.mem_append_right _ (List.mem_append_left _ h)
  have himg := adds_record (P := fun _ => ContainerRef c) acc ⟨hinfra, .inl rfl⟩ hres
  -- what is recorded for the image stays recorded, whatever the tag turns out to be
  suffices key : Adds u known ourHosts (fun _ => ContainerRef c) (t₁ ++ (t₂ ++ t₃))
      (acc.record got c.image) acc' ∧ (acc'.nonDigest = [] → got.covered = true) ∧
      ∀ out, gotTag = .ok out → Recorded acc' out from
    ⟨himg.1.trans key.1, fun _ => ⟨got, hres, himg.2.mono key.1.keeps, key.2.1⟩,
      fun _ => ⟨t₂, gotTag, hsub, htag, key.2.2⟩⟩
  cases gotTag with
  | ok out =>
    obtain ⟨-, rfl⟩ := returns_pure.1 h₂
    obtain ⟨hadds, hrec⟩ := adds_record (P := fun _ => ContainerRef c) (acc.record got c.image)
      ⟨hinfra, .inr rfl⟩ ⟨t₂, hsub, htag⟩
    obtain ⟨hall, hcov⟩ := adds_conclude got _ hadds
    refine ⟨hall, hcov, fun out' hout => ?_⟩
    cases hout
    split
    · exact hrec
    · exact hrec
  | error terr =>
    dsimp only at h₂
    split at h₂
    · exact (not_returns_throw h₂).elim
    · obtain ⟨-, rfl⟩ := returns_pure.1 h₂
      obtain ⟨hall, hcov⟩ := adds_conclude got _ (Adds.refl _)
      exact ⟨hall, hcov, nofun⟩

variable {k : SpecKey}

theorem sweepParam_adds (h : Returns (sweepParam u known ourHosts host k acc p).run t (.ok acc')) :
    Adds u known ourHosts (fun _ => ParamRef u p) t acc acc' ∧ ParamDone u known ourHosts p t acc' := by
  unfold sweepParam at h
  split at h
  · rename_i himage
    obtain ⟨-, rfl⟩ := returns_pure.1 h
    exact ⟨Adds.refl _, fun hnot => by rw [hnot] at himage; cases himage⟩
  rename_i himage
  rw [Bool.not_eq_true, Bool.not_eq_false'] at himage
  split at h
  · rename_i s hs
    split at h
    · rename_i hblank
      obtain ⟨-, rfl⟩ := returns_pure.1 h
      exact ⟨Adds.refl _, fun _ => ⟨s, hs, fun hne => absurd hblank hne⟩⟩
    · rename_i hblank
      obtain ⟨t₁, t₂, got, hgot, h₁, rfl⟩ := returns_bind_ok.1 h
      rw [returns_mapErr_ok] at hgot
      obtain ⟨rfl, rfl⟩ := returns_pure.1 h₁
      have hres : Resolves u known ourHosts (t₁ ++ []) s got :=
        ⟨t₁, List.subset_append_left _ _, hgot⟩
      obtain ⟨hadds, hrec⟩ := adds_record (P := fun _ => ParamRef u p) acc ⟨himage, hs, hblank⟩ hres
      exact ⟨hadds, fun _ => ⟨s, hs, fun _ => ⟨got, hres, hrec⟩⟩⟩
  · exact (not_returns_throw h).elim

theorem SpecDone.mono (ht : t ⊆ t') (hd : acc.digests ⊆ acc'.digests) (h : SpecDone u known ourHosts host k t acc) :
    SpecDone u known ourHosts host k t' acc' := by
  obtain ⟨sp, hread, hdone⟩ := h
  exact ⟨sp, ht hread, fun p hp => (hdone p hp).mono ht hd⟩

theorem SpecRef.mono (ht : t ⊆ t') (h : SpecRef u host k t ref) : SpecRef u host k t' ref := by
  obtain ⟨sp, hread, hp⟩ := h
  exact ⟨sp, ht hread, hp⟩

theorem Refers.mono (ht : t ⊆ t') (h : Refers u host t ref) : Refers u host t' ref := by
  cases h with
  | container obs fresh o c hlist ho hc href =>
    exact .container obs fresh o c (ht hlist) ho hc href
  | param keys k hkeys hk href => exact .param keys k (ht hkeys) hk (href.mono ht)

theorem HostSwept.mono (ht : t ⊆ t')
    (hd : acc.digests ⊆ acc'.digests) (hnd : acc'.nonDigest = [] → acc.nonDigest = [])
    (h : HostSwept u known ourHosts maxAge host t acc obs fresh now keys) :
    HostSwept u known ourHosts maxAge host t' acc' obs fresh now keys where
  listed := ht h.listed
  reachable := h.reachable
  hasData := h.hasData
  fetched := h.fetched
  clock := ht h.clock
  recent := h.recent
  images := fun o ho c hc => (h.images o ho c hc).mono ht hd hnd
  specs := ht h.specs
  params := fun k hk => (h.params k hk).mono ht hd

theorem sweepSpec_adds (h : Returns (sweepSpec u known ourHosts host acc k).run t (.ok acc')) :
    Adds u known ourHosts (SpecRef u host k) t acc acc' ∧ SpecDone u known ourHosts host k t acc' := by
  obtain ⟨t₁, t₂, sp, hread, hfold, rfl⟩ := returns_bind_ok.1 h
  rw [returns_mapErr_ok] at hread
  obtain rfl := returns_perform.1 hread
  obtain ⟨hadds, hdone⟩ := fold_adds (P := fun p _ => ParamRef u p)
    (fun _ _ _ _ _ => sweepParam_adds) (fun _ _ _ _ _ hP => hP)
    (fun _ _ _ _ _ ht hd _ => ParamDone.mono ht hd) hfold
  have hright : t₂ ⊆ [⟨.getSpec host k.template k.slug, .ok sp⟩] ++ t₂ :=
    List.subset_append_right _ _
  refine ⟨hadds.weaken ?_ hright, sp, List.mem_cons_self, fun p hp =>
    (hdone p hp).mono hright (fun _ h => h)⟩
  rintro ref ⟨p, hp, hP⟩
  exact ⟨sp, List.mem_cons_self, p, hp, hP⟩

theorem usableSnapshot_ok (h : Returns (usableSnapshot maxAge host).run t (.ok obs)) :
    ∃ fresh now, t = [⟨.listAllInstancesWithMeta host, .ok (obs, fresh)⟩, ⟨.now, now⟩] ∧
      fresh.reachable = true ∧ fresh.hasData = true ∧ fresh.fetchedAt.isZero = false ∧
      now.sub fresh.fetchedAt ≤ maxAge := by
  obtain ⟨_, _, ⟨obs', fresh⟩, hlist, h₁, rfl⟩ := returns_bind_ok.1 h
  rw [returns_mapErr_ok] at hlist
  obtain rfl := returns_perform.1 hlist
  obtain ⟨hreach', h₂⟩ := h₁.required
  obtain ⟨hdata', h₃⟩ := h₂.required
  obtain ⟨hzero', h₄⟩ := h₃.required
  obtain ⟨_, _, now, hnow, h₅, rfl⟩ := returns_bind_ok.1 h₄
  obtain rfl := returns_ask.1 hnow
  obtain ⟨hage', h₆⟩ := h₅.required
  obtain ⟨rfl, rfl⟩ := returns_pure.1 h₆
  exact ⟨fresh, now, rfl, hreach', hdata', by simpa using hzero', by simpa using hage'⟩

theorem sweepObserved_adds (h : Returns (obs.foldlM (sweepInstance u known ourHosts host) acc).run t (.ok acc')) :
    Adds u known ourHosts (fun _ ref => ∃ o ∈ obs, ∃ c ∈ o.containers, ContainerRef c ref) t acc acc' ∧
      ∀ o ∈ obs, ∀ c ∈ o.containers, ContainerDone u known ourHosts c t acc' := by
  refine fold_adds (P := fun (o : Observed) _ ref => ∃ c ∈ o.containers, ContainerRef c ref)
    (D := fun o t acc => ∀ c ∈ o.containers, ContainerDone u known ourHosts c t acc) ?_
    (fun _ _ _ _ _ hP => hP) ?_ h
  · intro o _ a a' t hrun
    exact fold_adds (P := fun c _ => ContainerRef c) (fun _ _ _ _ _ => sweepContainer_adds)
      (fun _ _ _ _ _ hP => hP) (fun _ _ _ _ _ => ContainerDone.mono) hrun
  · intro o t t' a a' ht hd hnd hdone c hc
    exact (hdone c hc).mono ht hd hnd

theorem sweepSpecs_adds (h : Returns (keys.foldlM (sweepSpec u known ourHosts host) acc).run t (.ok acc')) :
    Adds u known ourHosts (fun t ref => ∃ k ∈ keys, SpecRef u host k t ref) t acc acc' ∧
      ∀ k ∈ keys, SpecDone u known ourHosts host k t acc' :=
  fold_adds (P := fun k => SpecRef u host k) (fun _ _ _ _ _ => sweepSpec_adds)
    (fun _ _ _ _ ht hP => hP.mono ht) (fun _ _ _ _ _ ht hd _ => SpecDone.mono ht hd) h

theorem sweepHost_adds (h : Returns (sweepHost u known ourHosts maxAge acc host).run t (.ok acc')) :
    Adds u known ourHosts (Refers u host) t acc acc' ∧ ∃ obs fresh now keys,
      HostSwept u known ourHosts maxAge host t acc' obs fresh now keys := by
  obtain ⟨t₁, tr, obs, hsnap, h₁, rfl⟩ := returns_bind_ok.1 h
  obtain ⟨fresh, now, rfl, hreach, hdata, hzero, hage⟩ := usableSnapshot_ok hsnap
  obtain ⟨tobs, tr', mid, hobs, h₂, rfl⟩ := returns_bind_ok.1 h₁
  obtain ⟨tk, tspecs, keys, hkeys, hspecs, rfl⟩ := returns_bind_ok.1 h₂
  rw [returns_mapErr_ok] at hkeys
  obtain rfl := returns_perform.1 hkeys
  obtain ⟨hobsAdds, hobsDone⟩ := sweepObserved_adds hobs
  obtain ⟨hspecAdds, hspecDone⟩ := sweepSpecs_adds hspecs
  generalize hT : [⟨.listAllInstancesWithMeta host, .ok (obs, fresh)⟩, ⟨.now, now⟩] ++
    (tobs ++ ([⟨.listSpecKeys host, .ok keys⟩] ++ tspecs)) = T
  have hobsT : tobs ⊆ T := by rw [← hT]; intro e he; simp [he]
  have hspecT : tspecs ⊆ T := by rw [← hT]; intro e he; simp [he]
  have hlist : ⟨.listAllInstancesWithMeta host, .ok (obs, fresh)⟩ ∈ T := by rw [← hT]; simp
  have hkeysT : ⟨.listSpecKeys host, .ok keys⟩ ∈ T := by rw [← hT]; simp
  constructor
  · refine (hobsAdds.weaken ?_ hobsT).trans (hspecAdds.weaken ?_ hspecT)
    · rintro ref ⟨o, ho, c, hc, href⟩
      exact .container obs fresh o c hlist ho hc href
    · rintro ref ⟨k, hk, href⟩
      exact .param keys k hkeysT hk (href.mono hspecT)
  · exact ⟨obs, fresh, now, keys, {
      listed := hlist
      reachable := hreach
      hasData := hdata
      fetched := hzero
      clock := by rw [← hT]; simp
      recent := hage
      images := fun o ho c hc => (hobsDone o ho c hc).mono hobsT hspecAdds.keeps hspecAdds.flags
      specs := hkeysT
      params := fun k hk => (hspecDone k hk).mono hspecT (fun _ h => h) }⟩

theorem sweepFleet_ok (h : Returns (sweepFleet u catalog cfg).run t (.ok acc)) :
    ∃ ourHosts hosts repos tcat, normalizeHosts u cfg.registryHosts = .ok ourHosts ∧
      ⟨.hosts, hosts⟩ ∈ t ∧ Returns catalog.run tcat (.ok repos) ∧ tcat ⊆ t ∧
      Adds u repos ourHosts (fun t ref => ∃ host ∈ hosts, Refers u host t ref) t {} acc ∧
      ∀ host ∈ hosts, ∃ obs fresh now keys,
        HostSwept u repos ourHosts cfg.maxSnapshotAge host t acc obs fresh now keys := by
  obtain ⟨-, h₁⟩ := h.required
  obtain ⟨-, h₂⟩ := h₁.required
  obtain ⟨_, _, ourHosts, hnorm, h₃, rfl⟩ := returns_bind_ok.1 h₂
  obtain ⟨rfl, hours⟩ := returns_ret.1 hnorm
  obtain ⟨_, _, hosts, hhosts, h₄, rfl⟩ := returns_bind_ok.1 h₃
  obtain rfl := returns_ask.1 hhosts
  obtain ⟨tcat, tsweep, repos, hcat, h₅, rfl⟩ := returns_bind_ok.1 h₄
  rw [returns_mapErr_ok] at hcat
  obtain ⟨hadds, hdone⟩ := fold_adds (P := Refers u) (D := fun host t acc => ∃ obs fresh now keys,
      HostSwept u repos ourHosts cfg.maxSnapshotAge host t acc obs fresh now keys)
    (fun _ _ _ _ _ => sweepHost_adds) (fun _ _ _ _ ht hP => hP.mono ht)
    (fun _ _ _ _ _ ht hd hnd ⟨obs, fresh, now, keys, hs⟩ => ⟨obs, fresh, now, keys, hs.mono ht hd hnd⟩) h₅
  have hright : tsweep ⊆ ⟨.hosts, hosts⟩ :: (tcat ++ tsweep) := fun e he => by simp [he]
  refine ⟨ourHosts, hosts, repos, tcat, hours.symm, List.mem_cons_self, hcat,
    fun e he => by simp [he], hadds.weaken ?_ hright, fun host hhost => ?_⟩
  · rintro ref ⟨host, hhost, href⟩
    exact ⟨host, hhost, href.mono hright⟩
  · obtain ⟨obs, fresh, now, keys, hs⟩ := hdone host hhost
    exact ⟨obs, fresh, now, keys, hs.mono hright (fun _ h => h) (fun h => h)⟩

/-- An error that wraps `ErrUnsafeToPrune`. -/
def Refusal (e : Error) : Prop :=
  Err.is e .unsafeToPrune = true

theorem refusal_refuse (why : String) : Refusal (refuse why) := refuse_is why

theorem sweepContainer_failsOnly (host slug : String) (acc : Sweep) (c : ObservedContainer) :
    FailsOnly Refusal (sweepContainer u known ourHosts host slug acc c) := by
  unfold sweepContainer
  split
  · exact failsOnly_pure _
  refine (failsOnly_mapErr fun _ => refusal_refuse _).andThen fun got => ?_
  refine (failsOnly_attempt _).andThen fun gotTag => ?_
  cases gotTag with
  | ok out => exact failsOnly_pure _
  | error terr =>
    dsimp only
    split
    · exact failsOnly_throw (refusal_refuse _)
    · exact failsOnly_pure _

theorem sweepSpec_failsOnly (host : String) (acc : Sweep) (k : SpecKey) :
    FailsOnly Refusal (sweepSpec u known ourHosts host acc k) := by
  refine (failsOnly_mapErr fun _ => refusal_refuse _).andThen fun sp => ?_
  refine failsOnly_foldlM _ (fun acc p _ => ?_) _
  unfold sweepParam
  split
  · exact failsOnly_pure _
  split
  · split
    · exact failsOnly_pure _
    · exact (failsOnly_mapErr fun _ => refusal_refuse _).andThen fun _ => failsOnly_pure _
  · exact failsOnly_throw (refusal_refuse _)

theorem usableSnapshot_failsOnly (maxAge : Duration) (host : String) :
    FailsOnly Refusal (usableSnapshot maxAge host) := by
  refine (failsOnly_mapErr fun _ => refusal_refuse _).andThen fun snapshot => ?_
  refine (failsOnly_require (refusal_refuse _)).andThen fun _ => ?_
  refine (failsOnly_require (refusal_refuse _)).andThen fun _ => ?_
  refine (failsOnly_require (refusal_refuse _)).andThen fun _ => ?_
  refine (failsOnly_ask _).andThen fun now => ?_
  exact (failsOnly_require (refusal_refuse _)).andThen fun _ => failsOnly_pure _

theorem sweepHost_failsOnly (maxAge : Duration) (acc : Sweep) (host : String) :
    FailsOnly Refusal (sweepHost u known ourHosts maxAge acc host) := by
  refine (usableSnapshot_failsOnly maxAge host).andThen fun obs => ?_
  refine FailsOnly.andThen ?_ fun acc => ?_
  · refine failsOnly_foldlM obs (fun acc o _ => ?_) _
    exact failsOnly_foldlM _ (fun acc c _ => sweepContainer_failsOnly host o.slug acc c) acc
  refine (failsOnly_mapErr fun _ => refusal_refuse _).andThen fun keys => ?_
  exact failsOnly_foldlM _ (fun acc k _ => sweepSpec_failsOnly host acc k) _

theorem normalizeHosts_error {raws : List String} {e : Error}
    (h : normalizeHosts u raws = .error e) : Refusal e := by
  unfold normalizeHosts at h
  induction raws with
  | nil => cases h
  | cons raw raws ih =>
    rw [List.mapM_cons] at h
    cases hraw : normalizeRegistryHost u raw with
    | error why =>
      rw [hraw] at h
      cases h
      exact refusal_refuse _
    | ok host =>
      rw [hraw] at h
      refine ih ?_
      revert h
      cases List.mapM (m := Except Error) _ raws <;> intro h <;> cases h
      rfl

theorem sweepFleet_failsOnly (catalog : Job (List String)) (cfg : Config) :
    FailsOnly Refusal (sweepFleet u catalog cfg) := by
  refine (failsOnly_require (refusal_refuse _)).andThen fun _ => ?_
  refine (failsOnly_require (refusal_refuse _)).andThen fun _ => ?_
  refine FailsOnly.andThen ?_ fun ourHosts => ?_
  · intro t e h
    exact normalizeHosts_error (returns_ret.1 h).2.symm
  refine (failsOnly_ask _).andThen fun hosts => ?_
  refine (failsOnly_mapErr fun _ => refusal_refuse _).andThen fun repos => ?_
  exact failsOnly_foldlM _ (fun acc host _ => sweepHost_failsOnly _ acc host) _

end Stages

/-! ## A fleet that holds still -/

/-- A fleet that does not change during a sweep: every answer but the clock's is a function. -/
structure Fleet where
  hosts : List String
  inventory : String → Except Error (List Observed × Freshness)
  specKeys : String → Except Error (List SpecKey)
  spec : String → SpecKey → Except Error Spec
  catalog : Except Error (List String)
  manifest : String → String → Except Error String

namespace Fleet

/-- What the fleet answers when the clock reads `now`. A sweep makes none of the other calls. -/
def answer (F : Fleet) (now : Time) : (op : Op) → Op.Ans op
  | .hosts => F.hosts
  | .listAllInstancesWithMeta host => F.inventory host
  | .now => now
  | .listSpecKeys host => F.specKeys host
  | .getSpec host template slug => F.spec host ⟨template, slug⟩
  | .catalog => F.catalog
  | .manifest repo ref => F.manifest repo ref
  | op => op.unavailable

def handler (F : Fleet) (now : Time) : Handler calls Unit :=
  fun _ op => (F.answer now op, ())

def service (F : Fleet) : Service calls Unit :=
  fun _ op r _ => ∃ now, r = F.answer now op

theorem answered {F : Fleet} {α : Type} {p q : Prog calls α}
    (h : Exec F.service () p t () q) : ∀ e ∈ t, ∃ now, e.2 = F.answer now e.1 :=
  Exec.answered (A := fun op r => ∃ now, r = F.answer now op) h
    fun _ op r _ (hr : ∃ now, r = F.answer now op) => hr

end Fleet

/-! ## Completeness -/

section Completeness

variable (u : Unicode) (repos ourHosts : List String)

/-- What the set does about a reference: it is a digest of the set, or a tag of a catalog repository that resolved
to one, or it names a host that is none of ours, or a repository outside the catalog. -/
def Accounted (t : History) (digests : List String) (ref : String) : Prop :=
  let parts := splitRef u (trimSpace ref)
  let owner := repoFromName u parts.name ourHosts
  (IsBareDigest (u.lower (trimSpace ref)) ∧ u.lower (trimSpace ref) ∈ digests) ∨
    (isDigestRef parts.digest = true ∧ parts.digest ∈ digests) ∨
    (owner.2 = true ∧ owner.1 ∈ repos ∧
      ∃ d, ⟨.manifest owner.1 parts.tagOrLatest, .ok d⟩ ∈ t ∧ u.lower d ∈ digests) ∨
    (hostComponent parts.name ≠ "" ∧ isOurHost u (hostComponent parts.name) ourHosts = false) ∨
    (owner.2 = true ∧ owner.1 ∉ repos)

/-- An algorithm-less image ID, which the set holds under `sha256:`. -/
def HeldAsImageID (digests : List String) (ref : String) : Prop :=
  isBareImageID (u.lower (trimSpace ref)) = true ∧
    "sha256:" ++ u.lower (trimSpace ref) ∈ digests

/-- A host whose snapshot and stored specs a set with these digests accounts for. -/
structure HostAccounted (maxAge : Duration) (t : History) (digests : List String) (host : String)
    (obs : List Observed) (fresh : Freshness) (now : Time) (keys : List SpecKey) : Prop where
  listed : ⟨.listAllInstancesWithMeta host, .ok (obs, fresh)⟩ ∈ t
  reachable : fresh.reachable = true
  clock : ⟨.now, now⟩ ∈ t
  recent : fresh.hasData = true ∧ now.sub fresh.fetchedAt ≤ maxAge
  images : ∀ o ∈ obs, ∀ c ∈ o.containers, c.isInfra = false →
    Accounted u repos ourHosts t digests c.image
  specs : ⟨.listSpecKeys host, .ok keys⟩ ∈ t
  params : ∀ k ∈ keys, ∃ sp, ⟨.getSpec host k.template k.slug, .ok sp⟩ ∈ t ∧
    ∀ name s, (name, .string s) ∈ sp.parameters → isImageParam u name = true → trimSpace s ≠ "" →
      Accounted u repos ourHosts t digests s ∨ HeldAsImageID u digests s

variable {u repos ourHosts} {t : History} {acc : Sweep}

theorem accounted_of_settled (h : Settled u repos ourHosts t ref out) (hrec : Recorded acc out) :
    Accounted u repos ourHosts t acc.digests ref ∨ (out.covered = false ∧ HeldAsImageID u acc.digests ref) := by
  cases h with
  | imageID hid =>
    refine .inr ⟨rfl, hid, hrec ?_⟩
    simp
  | bareDigest hbare =>
    have hdig := isBareDigest_of_trusted hbare
    exact .inl (.inl ⟨hdig, hrec hdig.ne_empty⟩)
  | pinned _ hne hdigest hout _ =>
    have hmem := hrec (by rw [hout]; exact hne)
    rw [hout] at hmem
    exact .inl (.inr (.inl ⟨hdigest, hmem⟩))
  | foreign _ hours _ _ =>
    exact .inl (.inr (.inr (.inr (.inl (foreign_of_not_ours u hours)))))
  | outside _ hours hknown _ _ =>
    exact .inl (.inr (.inr (.inr (.inr ⟨hours, hknown⟩))))
  | byTag _ digest hours hknown hans hne hout _ =>
    have hmem := hrec (by rw [hout]; exact u.lower_ne_empty hne)
    rw [hout] at hmem
    exact .inl (.inr (.inr (.inl ⟨hours, hknown, digest, hans, hmem⟩)))

/-- A valid set is the outcome of a sweep that flagged nothing and found something; anything else is a refusal
with no digest in it. -/
theorem buildInUseSet_cases {set : InUseSet}
    {err : Option Error} (h : Returns (buildInUseSet u catalog cfg) t (set, err)) :
    (set.valid = true ∧ err = none ∧ ∃ acc, Returns (sweepFleet u catalog cfg).run t (.ok acc) ∧
      acc.nonDigest = [] ∧ acc.digests ≠ [] ∧ set.digests = acc.digests) ∨
    (set.valid = false ∧ set.digests = [] ∧ ∃ e, err = some e ∧ Refusal e) := by
  obtain ⟨t₁, t₂, r, hsweep, hend, rfl⟩ := returns_bind.1 h
  cases r with
  | error e =>
    obtain ⟨rfl, hset⟩ := returns_ret.1 hend
    cases hset
    exact .inr ⟨rfl, rfl, e, rfl, sweepFleet_failsOnly catalog cfg t₁ e hsweep⟩
  | ok acc =>
    obtain ⟨rfl, hset⟩ := returns_ret.1 hend
    rw [List.append_nil]
    unfold concludeSweep at hset
    split at hset
    · cases hset
      exact .inr ⟨rfl, rfl, _, rfl, refusal_refuse _⟩
    rename_i hflags
    rw [not_not] at hflags
    split at hset
    · cases hset
      exact .inr ⟨rfl, rfl, _, rfl, refusal_refuse _⟩
    split at hset
    · cases hset
      exact .inr ⟨rfl, rfl, _, rfl, refusal_refuse _⟩
    rename_i hne
    cases hset
    exact .inl ⟨rfl, rfl, acc, hsweep, hflags, hne, rfl⟩

theorem HostSwept.accounted (hnd : acc.nonDigest = [])
    (h : HostSwept u repos ourHosts maxAge host t acc obs fresh now keys) :
    HostAccounted u repos ourHosts maxAge t acc.digests host obs fresh now keys where
  listed := h.listed
  reachable := h.reachable
  clock := h.clock
  recent := ⟨h.hasData, h.recent⟩
  specs := h.specs
  images := by
    intro o ho c hc hinfra
    obtain ⟨out, hres, hrec, hcov⟩ := (h.images o ho c hc).image hinfra
    rcases accounted_of_settled hres.settled hrec with hacc | ⟨hnot, -⟩
    · exact hacc
    · rw [hcov hnd] at hnot
      cases hnot
  params := by
    intro k hk
    obtain ⟨sp, hread, hdone⟩ := h.params k hk
    refine ⟨sp, hread, fun name s hmem himage hblank => ?_⟩
    obtain ⟨s', hs, hout⟩ := hdone (name, .string s) hmem himage
    cases hs
    obtain ⟨out, hres, hrec⟩ := hout hblank
    exact (accounted_of_settled hres.settled hrec).imp_right And.right

def exampleImageID : String :=
  "aaaaaaaaaaaaaaaaaaaaaaaaaaaaaaaaaaaaaaaaaaaaaaaaaaaaaaaaaaaaaaaa"

def examplePinnedDigest : String :=
  "sha256:bbbbbbbbbbbbbbbbbbbbbbbbbbbbbbbb"

def examplePinned : String :=
  "engine@" ++ examplePinnedDigest

def exampleTagDigest : String :=
  "sha256:cccccccccccccccccccccccccccccccc"

def exampleConfig : Config where
  registryHosts := ["reg.example:5000"]
  maxSnapshotAge := 60 * second

def exampleSpec (image : String) : Spec where
  host := "engine-1"
  template := "basic-web"
  slug := "shop"
  parameters := [("image", .string image)]
  secrets := []
  injectorSecrets := []
  domains := []
  appliedVolumes := none
  appliedVolumeMeta := none
  appliedNetworks := []

/-- One host that runs one container by digest and stores one spec; the registry lists one repository
and resolves all its tags to one other digest. -/
def exampleFleet (image repo : String) : Fleet where
  hosts := ["engine-1"]
  inventory _ := .ok ([⟨"shop", [⟨"web", examplePinned, "", false⟩]⟩], ⟨⟨second⟩, true, true⟩)
  specKeys _ := .ok [⟨"basic-web", "shop"⟩]
  spec _ _ := .ok (exampleSpec image)
  catalog := .ok [repo]
  manifest _ _ := .ok exampleTagDigest

@[irreducible]
def exampleRun (image repo : String) : (InUseSet × Option Error) × History × Unit :=
  (buildInUseSet .ascii registryCatalog exampleConfig).eval
    ((exampleFleet image repo).handler ⟨2 * second⟩) ()

theorem exampleRun_exec (image repo : String) :
    Exec (exampleFleet image repo).service () (buildInUseSet .ascii registryCatalog exampleConfig)
      (exampleRun image repo).2.1 () (.ret ((exampleRun image repo).1.1, (exampleRun image repo).1.2)) := by
  exact (exec_of_eval (exampleRun.eq_def ..)).mono fun _ _ _ _ h => ⟨_, (congrArg Prod.fst h).symm⟩

end Completeness

end PodmanApi.RegistryPrune
