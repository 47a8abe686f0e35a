/-
# PodmanApi.RegistryPrune.HandlerSpec — what has happened when a prune issues a delete.

`Justified` collects what the gates of a prune are worth at the moment of one delete: which calls the run has
made by then, and what their answers were. It is proved for EVERY run, complete or cut short, stage by stage.
-/
import PodmanApi.RegistryPrune.Handler

namespace PodmanApi.RegistryPrune

open GoStd Calls

/-! ## What the stages call -/

/-- The calls of a sweep that is handed its catalog. -/
def IsSweepRead : Op → Prop
  | .hosts => True
  | .listAllInstancesWithMeta _ => True
  | .now => True
  | .listSpecKeys _ => True
  | .getSpec _ _ _ => True
  | .manifest _ _ => True
  | _ => False

def IsListing : Op → Prop
  | .ctxErr => True
  | .resolveTags _ => True
  | .now => True
  | _ => False

def IsNoDelete (op : Op) : Prop :=
  ∀ r d, op ≠ .delete r d

variable {repos protectedDigests : List String} {inUse : InUseSet} {repo : String} {plan : List RepoPlan}
  {p : Prepared} {op : Op}

theorem IsSweepRead.notCatalog (h : IsSweepRead op) : op ≠ .catalog := by
  rintro rfl
  exact h

theorem IsSweepRead.noDelete (h : IsSweepRead op) : IsNoDelete op := by
  rintro r d rfl
  exact h

theorem IsListing.notCatalog (h : IsListing op) : op ≠ .catalog := by
  rintro rfl
  exact h

theorem IsListing.noDelete (h : IsListing op) : IsNoDelete op := by
  rintro r d rfl
  exact h

section Footprints

variable {u : Unicode} {known ourHosts : List String}

theorem resolveRef_reads (ref : String) : (resolveRef u known ourHosts ref).run.Issues IsSweepRead := by
  refine (resolveRef_issues u known ourHosts ref).mono ?_
  rintro op ⟨repo, tag, rfl⟩
  trivial

theorem sweepContainer_reads (host slug : String) (acc : Sweep) (c : ObservedContainer) :
    (sweepContainer u known ourHosts host slug acc c).run.Issues IsSweepRead := by
  unfold sweepContainer
  split
  · exact issues_pure
  refine .andThen (resolveRef_reads _).mapErr fun got => ?_
  refine .andThen (resolveRef_reads _).attempt fun gotTag => ?_
  cases gotTag with
  | ok out => exact issues_pure
  | error terr =>
    dsimp only
    split <;> exact issues_ret _

theorem sweepSpec_reads (host : String) (acc : Sweep) (k : SpecKey) :
    (sweepSpec u known ourHosts host acc k).run.Issues IsSweepRead := by
  refine .andThen (.mapErr (issues_perform.2 trivial)) fun sp => ?_
  refine issues_foldlM _ (fun acc p _ => ?_) _
  unfold sweepParam
  split
  · exact issues_pure
  split
  · split
    · exact issues_pure
    · exact .andThen (resolveRef_reads _).mapErr fun _ => issues_pure
  · exact issues_throw

theorem usableSnapshot_reads (maxAge : Duration) (host : String) :
    (usableSnapshot maxAge host).run.Issues IsSweepRead := by
  refine .andThen (.mapErr (issues_perform.2 trivial)) fun snapshot => ?_
  refine .andThen issues_require fun _ => ?_
  refine .andThen issues_require fun _ => ?_
  refine .andThen issues_require fun _ => ?_
  refine .andThen (issues_ask trivial) fun now => ?_
  exact .andThen issues_require fun _ => issues_pure

theorem sweepHost_reads (maxAge : Duration) (acc : Sweep) (host : String) :
    (sweepHost u known ourHosts maxAge acc host).run.Issues IsSweepRead := by
  refine .andThen (usableSnapshot_reads maxAge host) fun obs => ?_
  refine .andThen ?_ fun acc => ?_
  · refine issues_foldlM obs (fun acc o _ => ?_) _
    exact issues_foldlM _ (fun acc c _ => sweepContainer_reads host o.slug acc c) acc
  refine .andThen (.mapErr (issues_perform.2 trivial)) fun keys => ?_
  exact issues_foldlM _ (fun acc k _ => sweepSpec_reads host acc k) _

/-- A sweep with a frozen catalog never asks for the catalog, lists no tags and deletes nothing. -/
theorem inUseSet_reads (h : PruneHandler) (repos : List String) : (inUseSet u h repos).Issues IsSweepRead := by
  refine .bind ?_ fun r => ?_
  · refine .andThen issues_require fun _ => ?_
    refine .andThen issues_require fun _ => ?_
    refine .andThen (issues_ret _) fun ourHosts => ?_
    refine .andThen (issues_ask trivial) fun hosts => ?_
    refine .andThen issues_pure.mapErr fun repos => ?_
    exact issues_foldlM _ (fun acc host _ => sweepHost_reads _ acc host) _
  · cases r with
    | error | ok => exact issues_ret _

theorem classifyAll_listing (repos : List String) (inUse : InUseSet) (pol : Policy) :
    (classifyAll u repos inUse pol).run.Issues IsListing := by
  refine .andThen ?_ fun listings => .andThen ?_ fun plan =>
    issues_pure
  · refine issues_foldlM _ (fun acc repo _ => ?_) _
    refine .andThen (issues_perform.2 trivial) fun _ => ?_
    refine .andThen (.mapErr (issues_perform.2 trivial)) fun listing => ?_
    exact .andThen issues_require fun _ => issues_pure
  · refine issues_foldlM _ (fun acc repo _ => ?_) _
    refine .andThen ?_ fun candidates => issues_pure
    refine issues_foldlM _ (fun acc tg _ => ?_) _
    exact .andThen (issues_ask trivial) fun _ =>
      issues_pure

end Footprints

/-! ## Classification -/

section Classification

variable (u : Unicode)

/-- The candidates of a listing, given the clock reading of each group. -/
def candidatesOf (repo : String) (inUse : InUseSet) (protectedDigests : List String) (pol : Policy)
    (groups : List TagGroup) (clock : List Time) : List Candidate :=
  (groups.zip clock).filterMap fun x => candidateOf u repo inUse protectedDigests pol x.1 x.2

/-- A repository was listed completely, up to tags that vanished. -/
def ListedWhole (t : History) (repo : String) : Prop :=
  ∃ l, ⟨.resolveTags repo, .ok l⟩ ∈ t ∧ ∀ d ∈ l.dropped, d.vanished = true

/-- Some listed group of that digest carries a tag protected by name. -/
def NamedProtected (pol : Policy) (t : History) (digest : String) : Prop :=
  ∃ repo l tg, ⟨.resolveTags repo, .ok l⟩ ∈ t ∧ tg ∈ l.groups ∧ tg.digest = digest ∧
    nameProtected repo tg pol = true

/-- The plan of a repository: the candidates of one of its listings, each group classified at a clock
reading of the run. -/
structure Planned (inUse : InUseSet) (protectedDigests : List String) (pol : Policy) (t : History)
    (rp : RepoPlan) (l : TagListing) (clock : List Time) : Prop where
  listing : ⟨.resolveTags rp.repo, .ok l⟩ ∈ t
  readings : clock.length = l.groups.length
  taken : ∀ now ∈ clock, ⟨.now, now⟩ ∈ t
  candidates : rp.candidates = candidatesOf u rp.repo inUse protectedDigests pol l.groups clock

/-- What the first loop of `classifyAll` knows of the repositories it has listed. -/
structure ListedAll (pol : Policy) (repos : List String) (acc : Listings) (t : History) : Prop where
  whole : ∀ repo ∈ repos, ListedWhole t repo
  protectedDigests : ∀ digest, digest ∈ acc.protectedDigests ↔ NamedProtected pol t digest
  groups : ∀ repo ∈ repos, ∃ l, ⟨.resolveTags repo, .ok l⟩ ∈ t ∧
    GoMap.get? acc.groups repo = some l.groups

variable {u} {pol : Policy} {t t' : History}

theorem ListedWhole.mono (ht : t ⊆ t') (h : ListedWhole t repo) : ListedWhole t' repo := by
  obtain ⟨l, hl, hd⟩ := h
  exact ⟨l, ht hl, hd⟩

variable {acc : Listings}

theorem listRepo_ok {acc' : Listings} {done : List String} {past : History} (hdone : ListedAll pol done acc past)
    (h : Returns (listRepo pol acc repo).run t (.ok acc')) : ListedAll pol (done ++ [repo]) acc' (past ++ t) := by
  obtain ⟨_, _, _, hctx, h₁, rfl⟩ := returns_bind_ok.1 h
  obtain rfl := returns_perform.1 hctx
  obtain ⟨_, _, l, hlist, h₂, rfl⟩ := returns_bind_ok.1 h₁
  rw [returns_mapErr_ok] at hlist
  obtain rfl := returns_perform.1 hlist
  obtain ⟨hnone, h₃⟩ := h₂.required
  obtain ⟨rfl, rfl⟩ := returns_pure.1 h₃
  have hvanished : ∀ d ∈ l.dropped, d.vanished = true := by
    intro d hd
    have hall := List.isEmpty_iff.1 hnone
    rw [List.filter_eq_nil_iff] at hall
    simpa using hall d hd
  generalize hT : past ++ ([⟨.ctxErr, .ok ()⟩] ++ ([⟨.resolveTags repo, .ok l⟩] ++ [])) = T
  have hsub : past ⊆ T := by rw [← hT]; exact List.subset_append_left _ _
  have hnew : ⟨.resolveTags repo, .ok l⟩ ∈ T := by rw [← hT]; simp
  have hold : ∀ r l', ⟨.resolveTags r, .ok l'⟩ ∈ T → ⟨.resolveTags r, .ok l'⟩ ∈ past ∨ (r = repo ∧ l' = l) := by
    intro r l' hmem
    rw [← hT] at hmem
    simpa using hmem
  constructor
  · intro r hr
    rcases List.mem_append.1 hr with hr | hr
    · exact (hdone.whole r hr).mono hsub
    · rw [List.mem_singleton.1 hr]
      exact ⟨l, hnew, hvanished⟩
  · intro digest
    rw [List.mem_append, hdone.protectedDigests]
    constructor
    · rintro (⟨r, l', tg, hl', htg⟩ | hmem)
      · exact ⟨r, l', tg, hsub hl', htg⟩
      · obtain ⟨tg, htg, rfl⟩ := List.mem_map.1 hmem
        obtain ⟨hin, hname⟩ := List.mem_filter.1 htg
        exact ⟨repo, l, tg, hnew, hin, rfl, hname⟩
    · rintro ⟨r, l', tg, hl', hin, hdigest, hname⟩
      rcases hold r l' hl' with hpast | ⟨rfl, rfl⟩
      · exact .inl ⟨r, l', tg, hpast, hin, hdigest, hname⟩
      · exact .inr (List.mem_map.2 ⟨tg, List.mem_filter.2 ⟨hin, hname⟩, hdigest⟩)
  · intro r hr
    rw [GoMap.get?_set]
    by_cases hrepo : repo = r
    · rw [if_pos hrepo]
      exact ⟨l, hrepo ▸ hnew, rfl⟩
    · rw [if_neg hrepo]
      rcases List.mem_append.1 hr with hr | hr
      · obtain ⟨l', hl', hget⟩ := hdone.groups r hr
        exact ⟨l', hsub hl', hget⟩
      · exact absurd (List.mem_singleton.1 hr).symm hrepo

theorem listRepos_ok
    (h : Returns (repos.foldlM (listRepo pol) {}).run t (.ok acc)) : ListedAll pol repos acc t := by
  have hinit : ListedAll pol [] {} [] := by
    constructor
    · nofun
    · intro digest
      simp [NamedProtected]
    · nofun
  exact returns_foldlM_ok (fun done acc past => ListedAll pol done acc past)
    (fun done repo acc acc' past t _ hdone hrun => listRepo_ok hdone hrun) hinit h

theorem classifyGroups_ok {groups : List TagGroup} {cs : List Candidate}
    (h : Returns (groups.foldlM (classifyGroup u repo inUse protectedDigests pol) []).run t (.ok cs)) :
    ∃ clock, clock.length = groups.length ∧ (∀ now ∈ clock, ⟨.now, now⟩ ∈ t) ∧
      cs = candidatesOf u repo inUse protectedDigests pol groups clock := by
  rw [← List.nil_append t]
  refine returns_foldlM_ok (fun done cs past => ∃ clock, clock.length = done.length ∧
    (∀ now ∈ clock, ⟨.now, now⟩ ∈ past) ∧
    cs = candidatesOf u repo inUse protectedDigests pol done clock) ?_ ⟨[], rfl, nofun, rfl⟩ h
  rintro done tg cs cs' past t - ⟨clock, hlen, hclock, rfl⟩ hrun
  obtain ⟨_, _, now, hnow, h₁, rfl⟩ := returns_bind_ok.1 hrun
  obtain rfl := returns_ask.1 hnow
  obtain ⟨rfl, rfl⟩ := returns_pure.1 h₁
  refine ⟨clock ++ [now], by simp [hlen], ?_, ?_⟩
  · intro now' hnow'
    rcases List.mem_append.1 hnow' with hold | hnew
    · exact List.mem_append_left _ (hclock now' hold)
    · rw [List.mem_singleton.1 hnew]
      simp
  · unfold candidatesOf
    rw [List.zip_append hlen.symm]
    simp [List.filterMap_cons]
    cases candidateOf u repo inUse protectedDigests pol tg now <;> rfl

theorem Planned.mono {rp : RepoPlan} {l : TagListing} {clock : List Time} (ht : t ⊆ t')
    (h : Planned u inUse protectedDigests pol t rp l clock) :
    Planned u inUse protectedDigests pol t' rp l clock where
  listing := ht h.listing
  readings := h.readings
  taken := fun now hnow => ht (h.taken now hnow)
  candidates := h.candidates

theorem classifyRepos_ok {past : History} (hlisted : ListedAll pol repos acc past)
    (h : Returns (repos.foldlM (classifyRepo u inUse acc pol) []).run t (.ok plan)) :
    ∀ rp ∈ plan, rp.repo ∈ repos ∧ ∃ l clock, Planned u inUse acc.protectedDigests pol (past ++ t) rp l clock := by
  have hinit : past ⊆ past ∧ ∀ rp ∈ ([] : List RepoPlan), rp.repo ∈ repos ∧
      ∃ l clock, Planned u inUse acc.protectedDigests pol past rp l clock := by
    simp
  refine (returns_foldlM_ok (fun _ plan past' => past ⊆ past' ∧ ∀ rp ∈ plan, rp.repo ∈ repos ∧
    ∃ l clock, Planned u inUse acc.protectedDigests pol past' rp l clock) ?_ hinit h).2
  rintro done repo plan plan' past' t hrepo ⟨hpast, hplan⟩ hrun
  unfold classifyRepo at hrun
  obtain ⟨l, hl, hget⟩ := hlisted.groups repo hrepo
  rw [hget] at hrun
  obtain ⟨t₁, t₂, cs, hcs, h₁, rfl⟩ := returns_bind_ok.1 hrun
  obtain ⟨rfl, rfl⟩ := returns_pure.1 h₁
  obtain ⟨clock, hlen, hclock, hcandidates⟩ := classifyGroups_ok hcs
  have hleft : past' ⊆ past' ++ (t₁ ++ []) := List.subset_append_left _ _
  refine ⟨List.Subset.trans hpast hleft, fun rp hrp => ?_⟩
  rcases List.mem_append.1 hrp with hold | hnew
  · obtain ⟨hmem, l', clock', hplanned⟩ := hplan rp hold
    exact ⟨hmem, l', clock', hplanned.mono hleft⟩
  · rw [List.mem_singleton.1 hnew]
    refine ⟨hrepo, l, clock, hleft (hpast hl), hlen, fun now hnow => ?_, hcandidates⟩
    rw [List.append_nil]
    exact List.mem_append_right _ (hclock now hnow)

/-- A classification that returns has listed every repository whole, knows the
digests protected by name anywhere, and plans only what the listings and the clock make a candidate. -/
theorem classifyAll_ok (h : Returns (classifyAll u repos inUse pol).run t (.ok (plan, protectedDigests))) :
    (∀ repo ∈ repos, ListedWhole t repo) ∧ (∀ digest, digest ∈ protectedDigests ↔ NamedProtected pol t digest) ∧
      ∀ rp ∈ plan, rp.repo ∈ repos ∧ ∃ l clock, Planned u inUse protectedDigests pol t rp l clock := by
  obtain ⟨t₁, _, acc, hlist, h₁, rfl⟩ := returns_bind_ok.1 h
  obtain ⟨t₂, _, plan', hplan, h₂, rfl⟩ := returns_bind_ok.1 h₁
  obtain ⟨rfl, hout⟩ := returns_pure.1 h₂
  cases hout
  have hlisted := listRepos_ok hlist
  rw [List.append_nil]
  have hleft : t₁ ⊆ t₁ ++ t₂ := List.subset_append_left _ _
  refine ⟨fun repo hrepo => (hlisted.whole repo hrepo).mono hleft, fun digest => ?_,
    classifyRepos_ok hlisted hplan⟩
  rw [hlisted.protectedDigests]
  constructor
  · rintro ⟨repo, l, tg, hl, htg⟩
    exact ⟨repo, l, tg, hleft hl, htg⟩
  · rintro ⟨repo, l, tg, hl, htg⟩
    refine ⟨repo, l, tg, (List.mem_append.1 hl).resolve_right fun hl => ?_, htg⟩
    -- the second loop only reads the clock
    have hreads : (repos.foldlM (classifyRepo u inUse acc pol) []).run.Issues (fun op => op = Op.now) := by
      refine issues_foldlM _ (fun plan repo _ => ?_) _
      refine .andThen ?_ fun candidates => issues_pure
      refine issues_foldlM _ (fun acc tg _ => ?_) _
      exact .andThen (issues_ask rfl) fun _ => issues_pure
    cases hplan.issued hreads _ hl

end Classification

/-! ## The stages of a run -/

section Stages

variable {u : Unicode} {marshal : GcPod → Except Error String}
  {unmarshal : String → Except Error Payload} {h : PruneHandler} {t : History}

theorem validInUseSet_ok {invalid : String} {set : InUseSet}
    (hrun : Returns (validInUseSet u h repos invalid).run t (.ok set)) :
    Returns (inUseSet u h repos) t (set, none) ∧ set.valid = true := by
  obtain ⟨t₁, t₂, ⟨set', err⟩, hset, h₁, rfl⟩ := returns_bind_ok.1 hrun
  obtain ⟨t₃, _, out, hbuild, hret, rfl⟩ := returns_bind.1 hset
  obtain ⟨rfl, hout⟩ := returns_ret.1 hret
  cases hout
  cases err with
  | some e => exact (not_returns_throw h₁).elim
  | none =>
    obtain ⟨hvalid, h₂⟩ := h₁.required
    obtain ⟨rfl, rfl⟩ := returns_pure.1 h₂
    simp only [List.append_nil]
    exact ⟨hbuild, hvalid⟩

/-- The history of a run at the moment it starts to delete: one catalog listing, the first in-use
set, the classification, the second in-use set. -/
structure Stages (u : Unicode) (h : PruneHandler) (p : Prepared) (t : History) (listed : List String)
    (plan : List RepoPlan) (t₁ t₂ t₃ : History) : Prop where
  history : t = ⟨.catalog, .ok listed⟩ :: (t₁ ++ (t₂ ++ t₃))
  repos : p.repos = sortStrings listed
  first : Returns (inUseSet u h p.repos) t₁ (p.inUse, none)
  firstValid : p.inUse.valid = true
  classified : Returns (classifyAll u p.repos p.inUse p.payload.policy).run t₂
    (.ok (plan, p.protectedDigests))
  kept : p.kept = tripwire p.payload.policy plan
  second : p.payload.dryRun = false → Returns (inUseSet u h p.repos) t₃ (p.fresh, none)
  secondValid : p.payload.dryRun = false → p.fresh.valid = true
  quiet : ∀ e ∈ t₃, IsSweepRead e.1

theorem recheck_ok {p : Payload} {fresh : InUseSet} (hrun : Returns (recheck u h p repos inUse).run t (.ok fresh)) :
    (p.dryRun = false → Returns (inUseSet u h repos) t (fresh, none) ∧ fresh.valid = true) ∧
      ∀ e ∈ t, IsSweepRead e.1 := by
  unfold recheck at hrun
  split at hrun
  · rename_i hdry
    obtain ⟨rfl, rfl⟩ := returns_pure.1 hrun
    exact ⟨fun hnot => by simp [hdry] at hnot, nofun⟩
  · have hset := validInUseSet_ok hrun
    exact ⟨fun _ => hset, hset.1.issued (inUseSet_reads h repos)⟩

theorem prepare_ok {args : String} (hrun : Returns (prepare u unmarshal h args).run t (.ok p)) :
    unmarshal args = .ok p.payload ∧ ∃ listed plan t₁ t₂ t₃, Stages u h p t listed plan t₁ t₂ t₃ := by
  obtain ⟨_, _, payload, hdecode, h₁, rfl⟩ := returns_bind_ok.1 hrun
  rw [returns_mapErr_ok] at hdecode
  obtain ⟨rfl, hpayload⟩ := returns_ret.1 hdecode
  obtain ⟨_, _, _, hpolicy, h₂, rfl⟩ := returns_bind_ok.1 h₁
  obtain ⟨rfl, -⟩ := returns_ret.1 hpolicy
  obtain ⟨_, _, listed, hcat, h₃, rfl⟩ := returns_bind_ok.1 h₂
  rw [returns_mapErr_ok] at hcat
  obtain rfl := returns_perform.1 hcat
  obtain ⟨t₁, _, inUse, hfirst, h₄, rfl⟩ := returns_bind_ok.1 h₃
  obtain ⟨t₂, _, ⟨plan, protectedDigests⟩, hclass, h₅, rfl⟩ := returns_bind_ok.1 h₄
  obtain ⟨t₃, _, fresh, hfresh, h₆, rfl⟩ := returns_bind_ok.1 h₅
  obtain ⟨rfl, rfl⟩ := returns_pure.1 h₆
  obtain ⟨hset, hvalid⟩ := validInUseSet_ok hfirst
  obtain ⟨hagain, hquiet⟩ := recheck_ok hfresh
  refine ⟨hpayload.symm, listed, plan, t₁, t₂, t₃, ?_⟩
  exact {
    history := by simp
    repos := rfl
    first := hset
    firstValid := hvalid
    classified := hclass
    kept := rfl
    second := fun hdry => (hagain hdry).1
    secondValid := fun hdry => (hagain hdry).2
    quiet := hquiet }

end Stages

/-! ## Every delete is justified -/

section Deletes

variable {u : Unicode} {marshal : GcPod → Except Error String}
  {unmarshal : String → Except Error Payload} {h : PruneHandler}

/-- What a run has seen when it deletes: the catalog, both in-use sets, the digests protected by name, the
repository's listing with the clock reading of each group, and where in its history. -/
structure Evidence where
  listed : List String
  inUse : InUseSet
  fresh : InUseSet
  protectedDigests : List String
  listing : TagListing
  clock : List Time
  first : History
  classification : History
  second : History
  later : History

/-- The delete of `digest` in `repo`, after the answered calls `past`, has passed every gate. -/
structure Justified (u : Unicode) (h : PruneHandler) (payload : Payload) (past : History)
    (repo digest : String) (ev : Evidence) : Prop where
  wet : payload.dryRun = false
  /-- the catalog is listed once, first of all -/
  history : past =
    ⟨.catalog, .ok ev.listed⟩ :: (ev.first ++ (ev.classification ++ (ev.second ++ ev.later)))
  catalogOnce : ∀ e ∈ ev.first ++ (ev.classification ++ (ev.second ++ ev.later)), e.1 ≠ .catalog
  /-- everything up to the second in-use set happens before the first delete -/
  deletesLater : ∀ e ∈ ev.first ++ (ev.classification ++ ev.second), ∀ r d, e.1 ≠ .delete r d
  inCatalog : repo ∈ ev.listed
  firstSet : Returns (inUseSet u h (sortStrings ev.listed)) ev.first (ev.inUse, none)
  firstValid : ev.inUse.valid = true
  secondSet : Returns (inUseSet u h (sortStrings ev.listed)) ev.second (ev.fresh, none)
  secondValid : ev.fresh.valid = true
  notInUse : ev.inUse.has u digest = false
  notInUseAgain : ev.fresh.has u digest = false
  listedWhole : ∀ r ∈ ev.listed, ListedWhole ev.classification r
  /-- no group of this digest, in any repository, carries a tag protected by name -/
  unnamed : ∀ r l tg, ⟨.resolveTags r, .ok l⟩ ∈ past → tg ∈ l.groups → tg.digest = digest →
    nameProtected r tg payload.policy = false
  protectedDigests : ∀ d, d ∈ ev.protectedDigests ↔ NamedProtected payload.policy ev.classification d
  listing : ⟨.resolveTags repo, .ok ev.listing⟩ ∈ ev.classification
  readings : ev.clock.length = ev.listing.groups.length
  taken : ∀ now ∈ ev.clock, ⟨.now, now⟩ ∈ ev.classification
  withinTripwire : (candidatesOf u repo ev.inUse ev.protectedDigests payload.policy
    ev.listing.groups ev.clock).length ≤ payload.policy.maxDeletesPerRepo
  /-- the group of this digest has a deletable class, and a known age if that class is about age -/
  group : ∃ tg now, (tg, now) ∈ ev.listing.groups.zip ev.clock ∧ tg.digest = digest ∧
    deletable (classify u repo tg ev.inUse ev.protectedDigests payload.policy now)
      payload.policy = true ∧
    (classify u repo tg ev.inUse ev.protectedDigests payload.policy now = .featStale →
      tg.created.isZero = false)

theorem mem_candidatesOf {pol : Policy} {groups : List TagGroup} {clock : List Time} {c : Candidate}
    (hc : c ∈ candidatesOf u repo inUse protectedDigests pol groups clock) :
    ∃ tg now, (tg, now) ∈ groups.zip clock ∧ tg.digest = c.digest ∧
      deletable (classify u repo tg inUse protectedDigests pol now) pol = true ∧
      (classify u repo tg inUse protectedDigests pol now = .featStale → tg.created.isZero = false) := by
  obtain ⟨⟨tg, now⟩, hmem, hof⟩ := List.mem_filterMap.1 hc
  unfold candidateOf at hof
  dsimp only at hof
  split at hof
  · cases hof
  rename_i hage
  split at hof
  · rename_i hdel
    cases hof
    refine ⟨tg, now, hmem, rfl, hdel, fun hstale => ?_⟩
    by_contra hzero
    exact hage ⟨hstale, by simpa using hzero⟩
  · cases hof

/-- The calls that follow the preparation: never the catalog or a tag listing, and a delete only of a
kept candidate that passes the backstop. -/
structure Permitted (u : Unicode) (p : Prepared) (op : Op) : Prop where
  notCatalog : op ≠ .catalog
  notListing : ∀ r, op ≠ .resolveTags r
  deletes : ∀ r d, op = .delete r d → p.payload.dryRun = false ∧ mayDelete u p r d = true ∧
    ∃ rp ∈ p.kept, rp.repo = r ∧ ∃ c ∈ rp.candidates, c.digest = d

theorem deleteCandidate_permitted {rp : RepoPlan} (hrp : rp ∈ p.kept)
    (st : DeleteState) {c : Candidate} (hc : c ∈ rp.candidates) :
    (deleteCandidate u p rp.repo st c).run.Issues (Permitted u p) := by
  unfold deleteCandidate
  split
  · exact issues_pure
  have hctx : Permitted u p .ctxErr := ⟨by simp, by simp, by simp⟩
  refine .andThen (issues_perform.2 hctx) fun _ => ?_
  dsimp only
  split
  · exact issues_pure
  split
  · exact issues_pure
  rename_i hmay
  split
  · exact issues_pure
  rename_i hwet
  have hdel : Permitted u p (.delete rp.repo c.digest) := by
    refine ⟨by simp, by simp, fun r d hop => ?_⟩
    cases hop
    exact ⟨by simpa using hwet, by simpa using hmay, rp, hrp, rfl, c, hc, rfl⟩
  exact .andThen (issues_ask hdel) fun _ => issues_pure

theorem deletePass_permitted (p : Prepared) : (deletePass u p).run.Issues (Permitted u p) := by
  refine .andThen ?_ fun st => ?_
  · refine issues_foldlM _ (fun st rp hrp => ?_) _
    exact issues_foldlM _ (fun st c hc => deleteCandidate_permitted hrp st hc) _
  · cases st.firstErr with
    | some | none => exact issues_ret _

def IsPodman : Op → Prop
  | .playKube _ _ _ => True
  | .waitForPodCompletion _ _ _ => True
  | .podStop _ _ => True
  | .podStart _ _ => True
  | .podRemove _ _ _ => True
  | .containerExec _ _ _ => True
  | _ => False

theorem startRegistry_podman (g : BlobGC) (n : Nat) : (startRegistry g n).Issues IsPodman := by
  induction n with
  | zero => exact issues_ret _
  | succ n ih =>
    cases n with
    | zero => exact issues_perform.2 trivial
    | succ n =>
      refine .bind (issues_perform.2 trivial) fun r => ?_
      cases r with
      | ok _ => exact issues_ret _
      | error _ => exact ih

theorem collect_podman (g : BlobGC) : (collect marshal g).Issues IsPodman := by
  refine .bind (issues_perform.2 trivial) fun stopped => ?_
  cases stopped with
  | error e => exact issues_ret _
  | ok _ =>
    dsimp only
    split
    · exact issues_ret _
    refine .bind (issues_perform.2 trivial) fun played => ?_
    cases played with
    | error e => exact issues_ret _
    | ok _ =>
      refine .bind (issues_perform.2 trivial) fun waited => ?_
      cases waited with
      | error | ok => exact issues_ret _

theorem reclaim_podman (g : BlobGC) (p : Payload) : (reclaim u marshal g p).Issues IsPodman := by
  have hsizing : ∀ op, IsSizing op → IsPodman op := by
    rintro op ⟨host, container, cmd, rfl⟩
    trivial
  unfold reclaim
  split
  · exact issues_ret _
  split
  · exact issues_ret _
  split
  · exact issues_ret _
  refine (storageBytes_issues.mono hsizing).bind fun before => (collect_podman g).bind fun out => ?_
  refine (startRegistry_podman g restartAttempts).bind fun started => ?_
  have hsettle := (settle_issues (g := g) before out.2 started).mono hsizing
  obtain ⟨played, err⟩ := out
  cases played with
  | true => exact ((issues_perform.2 trivial).bind fun _ => issues_ret _).bind fun _ => hsettle
  | false => exact hsettle

theorem finish_permitted (p : Prepared) : (finish u marshal h p).run.Issues (Permitted u p) := by
  refine .andThen (deletePass_permitted p) fun _ => ?_
  split
  · exact issues_pure
  split
  · exact issues_pure
  rename_i g _
  have hreclaim : (reclaim u marshal g p.payload).Issues (Permitted u p) := by
    refine (reclaim_podman g p.payload).mono fun op hop => ?_
    constructor
    · rintro rfl
      exact hop
    · rintro r rfl
      exact hop
    · rintro r d rfl
      exact hop.elim
  exact hreclaim.bind fun _ => issues_ret _

theorem prepare_noDelete (args : String) : (prepare u unmarshal h args).run.Issues IsNoDelete := by
  have hset : ∀ repos invalid, (validInUseSet u h repos invalid).run.Issues IsNoDelete := by
    intro repos invalid
    have hsweep := (inUseSet_reads (u := u) h repos).mono fun _ => IsSweepRead.noDelete
    refine .andThen (hsweep.bind fun _ => issues_ret _) fun out => ?_
    obtain ⟨set, err⟩ := out
    cases err with
    | some e => exact issues_throw
    | none => exact .andThen issues_require fun _ => issues_pure
  refine .andThen (.mapErr (issues_ret _)) fun p => ?_
  refine .andThen (.mapErr (issues_ret _)) fun _ => ?_
  refine .andThen (.mapErr (issues_perform.2 (by simp [IsNoDelete]))) fun listed => ?_
  refine .andThen (hset _ _) fun inUse => ?_
  refine .andThen ((classifyAll_listing _ inUse p.policy).mono fun _ =>
    IsListing.noDelete) fun plan => ?_
  refine .andThen ?_ fun fresh => issues_pure
  unfold recheck
  split
  · exact issues_pure
  · exact hset _ _

theorem Stages.justified {t later : History} {listed : List String} {t₁ t₂ t₃ : History} (hs : Stages u h p t listed plan t₁ t₂ t₃)
    (hlater : ∀ e ∈ later, Permitted u p e.1) {digest : String} (hop : Permitted u p (.delete repo digest)) :
    ∃ ev, Justified u h p.payload (t ++ later) repo digest ev := by
  obtain ⟨hwet, hmay, rp, hkept, rfl, c, hc, rfl⟩ := hop.deletes repo digest rfl
  obtain ⟨hwhole, hprotected, hplanned⟩ := classifyAll_ok hs.classified
  rw [hs.kept, tripwire, List.mem_filter] at hkept
  obtain ⟨hplan, htrip⟩ := hkept
  obtain ⟨-, l, clock, hpl⟩ := hplanned rp hplan
  simp only [mayDelete, Bool.and_eq_true, Bool.not_eq_true', Bool.or_eq_false_iff,
    List.contains_iff_mem] at hmay
  obtain ⟨⟨hrepo, hnot, hagain⟩, hshared⟩ := hmay
  have hfree : c.digest ∉ p.protectedDigests := by simpa using hshared
  have hmem : ∀ r, r ∈ p.repos ↔ r ∈ listed := by
    intro r
    rw [hs.repos, mem_sortStrings]
  have hreads₁ := hs.first.issued (inUseSet_reads h p.repos)
  have hlists := hs.classified.issued (classifyAll_listing p.repos p.inUse p.payload.policy)
  -- every listing of the run is one of the classification
  have hwhere : ∀ r l', ⟨.resolveTags r, .ok l'⟩ ∈ t ++ later → ⟨.resolveTags r, .ok l'⟩ ∈ t₂ := by
    intro r l' hin
    rw [hs.history] at hin
    simp only [List.cons_append, List.mem_cons, List.mem_append] at hin
    rcases hin with hin | (hin | hin | hin) | hin
    · cases hin
    · exact (hreads₁ _ hin).elim
    · exact hin
    · exact (hs.quiet _ hin).elim
    · exact absurd rfl ((hlater _ hin).notListing r)
  refine ⟨⟨listed, p.inUse, p.fresh, p.protectedDigests, l, clock, t₁, t₂, t₃, later⟩, ?_⟩
  exact {
    wet := hwet
    history := by rw [hs.history]; simp
    catalogOnce := by
      intro e he
      simp only [List.mem_append] at he
      rcases he with he | he | he | he
      · exact (hreads₁ e he).notCatalog
      · exact (hlists e he).notCatalog
      · exact (hs.quiet e he).notCatalog
      · exact (hlater e he).notCatalog
    deletesLater := by
      intro e he
      simp only [List.mem_append] at he
      rcases he with he | he | he
      · exact (hreads₁ e he).noDelete
      · exact (hlists e he).noDelete
      · exact (hs.quiet e he).noDelete
    inCatalog := (hmem rp.repo).1 hrepo
    firstSet := hs.repos ▸ hs.first
    firstValid := hs.firstValid
    secondSet := hs.repos ▸ hs.second hwet
    secondValid := hs.secondValid hwet
    notInUse := hnot
    notInUseAgain := hagain
    listedWhole := fun r hr => hwhole r ((hmem r).2 hr)
    unnamed := by
      intro r l' tg hl' htg hdigest
      by_contra hname
      have hnamed : NamedProtected p.payload.policy t₂ c.digest :=
        ⟨r, l', tg, hwhere r l' hl', htg, hdigest, by simpa using hname⟩
      exact hfree ((hprotected c.digest).2 hnamed)
    protectedDigests := hprotected
    listing := hpl.listing
    readings := hpl.readings
    taken := hpl.taken
    withinTripwire := by
      rw [← hpl.candidates]
      simpa using htrip
    group := mem_candidatesOf (hpl.candidates ▸ hc) }

/-- In every run of the handler, under every registry and every fleet, each
delete has passed every gate by the time it is issued. -/
theorem delete_justified {σ : Type} (S : Service calls σ) (s s' : σ) (u : Unicode)
    (marshal : GcPod → Except Error String) (unmarshal : String → Except Error Payload)
    (h : PruneHandler) (args : String) (past : History) (repo digest : String)
    (k : Except Error Unit → Prog calls (Except Error Unit))
    (hrun : Exec S s (run u marshal unmarshal h args).run past s' (.call (.delete repo digest) k)) :
    ∃ payload ev, unmarshal args = .ok payload ∧ Justified u h payload past repo digest ev := by
  suffices hall : Ensures (anything calls) (fun past op => ∀ r d, op = .delete r d →
      ∃ payload ev, unmarshal args = .ok payload ∧ Justified u h payload past r d ev)
      (fun _ _ => True) (run u marshal unmarshal h args).run [] from
    hall.issued (hrun.forget []) repo digest rfl
  refine ((prepare_noDelete args).ensures_returns ?_ []).andThen (fun _ _ _ => trivial) ?_
  · intro past op hno r d hop
    exact absurd hop (hno r d)
  rintro t p ⟨t', ht, hprepared⟩
  subst ht
  obtain ⟨hpayload, listed, plan, t₁, t₂, t₃, hs⟩ := prepare_ok hprepared
  -- since the preparation only permitted calls were made, and each of them leaves it so
  refine ((finish_permitted p).ensures
    (I := fun past => ∃ later, past = t ++ later ∧ ∀ e ∈ later, Permitted u p e.1) ?_ ?_
    ⟨[], by simp, by simp⟩).imp fun _ _ _ => trivial
  · rintro _ op r past' hop ⟨later, rfl, hlater⟩ hstep
    refine ⟨later ++ [⟨op, r⟩], by rw [hstep, List.append_assoc], ?_⟩
    intro e he
    rcases List.mem_append.1 he with he | he
    · exact hlater e he
    · rw [List.mem_singleton.1 he]
      exact hop
  · rintro _ op hop ⟨later, rfl, hlater⟩ r d rfl
    obtain ⟨ev, hev⟩ := hs.justified hlater hop
    exact ⟨p.payload, ev, hpayload, hev⟩

def exampleOrphan : String :=
  "sha256:dddddddddddddddddddddddddddddddd"

/-- The fleet of the earlier examples, with a registry that lists a released digest and an orphan, and
a host that does what it is asked. -/
def exampleAnswer : (op : Op) → op.Ans
  | .resolveTags _ =>
    .ok ⟨[⟨exampleTagDigest, ["1"], ⟨second⟩⟩, ⟨exampleOrphan, ["0a1b2c3"], ⟨second⟩⟩], []⟩
  | .delete _ _ => .ok ()
  | .playKube _ _ _ => .ok ()
  | .waitForPodCompletion _ _ _ => .ok 0
  | .podStop _ _ => .ok ()
  | .podStart _ _ => .ok ()
  | .podRemove _ _ _ => .ok ()
  | op => (exampleFleet "engine:1" "engine").answer ⟨2 * second⟩ op

def exampleHandler : PruneHandler where
  config := exampleConfig
  blobGC := some exampleGC

def examplePayload : Payload where
  policy := defaultPolicy
  dryRun := false
  skipBlobGC := false

def exampleUnmarshal (args : String) : Except Error Payload :=
  if args = "{}" then .ok examplePayload else .error (.text "unexpected end of JSON input")

@[irreducible]
def examplePrune : Except Error Unit × History × Unit :=
  (run .ascii exampleMarshal exampleUnmarshal exampleHandler "{}").run.eval
    (fun _ op => (exampleAnswer op, ())) ()

/-- The delete of the orphan, after eighteen calls. -/
theorem delete_justified_example : ∃ payload ev, exampleUnmarshal "{}" = .ok payload ∧
      Justified .ascii exampleHandler payload (examplePrune.2.1.take 18) "engine" exampleOrphan ev := by
  have hsplit : examplePrune.2.1 = examplePrune.2.1.take 18 ++
      ⟨.delete "engine" exampleOrphan, .ok ()⟩ :: examplePrune.2.1.drop 19 := by
    decide +kernel
  have hrun : Exec (Handler.service fun _ op => (exampleAnswer op, ())) ()
      (run .ascii exampleMarshal exampleUnmarshal exampleHandler "{}").run
      examplePrune.2.1 () (.ret examplePrune.1) := by
    exact exec_of_eval (examplePrune.eq_def ..)
  rw [hsplit] at hrun
  obtain ⟨s₁, k, hdelete⟩ := hrun.at_event
  exact delete_justified _ () s₁ .ascii exampleMarshal exampleUnmarshal exampleHandler "{}" _ "engine"
    exampleOrphan k hdelete

end Deletes

end PodmanApi.RegistryPrune
