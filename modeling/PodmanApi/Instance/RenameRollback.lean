/-
# PodmanApi.Instance.RenameRollback — what a failed rename leaves behind.

When the deploy of the new slug or the wait for it fails, a rename starts the old instance and deletes the new
one with its volumes. When the stop, the listing of the volumes or a step of the copy loop fails, it returns at
once: the old instance stays down, and the volumes made so far stay. `debt` keeps the account of both.
-/
import PodmanApi.Instance.Rename

namespace PodmanApi.Instance

open GoStd Calls

/-! ## The account -/

/-- What a rename owes: a start of the old instance, and the removal of the volumes it has created. -/
structure Debt where
  down : Bool
  made : List String
  deriving DecidableEq, Repr

/-- A stop of the pod is owed a start, and a created volume a removal, whatever podman answers. -/
def debt (host pod : String) (d : Debt) : Event calls → Debt
  | ⟨.podStop h n, _⟩ => if h = host ∧ n = pod then { d with down := true } else d
  | ⟨.podStart h n, _⟩ => if h = host ∧ n = pod then { d with down := false } else d
  | ⟨.volumeCreate h n, _⟩ => if h = host then { d with made := n :: d.made } else d
  | ⟨.volumeRemove h n _, _⟩ => if h = host then { d with made := d.made.filter (· ≠ n) } else d
  | _ => d

/-- A rename of an instance, the template it is rendered from, and what each volume of the host exports as. -/
structure Renaming where
  host : String
  tmpl : String
  slug : String
  req : RenameRequest
  template : Template
  content : String → Manifest

namespace Renaming

variable (n : Renaming)

def pod : String := podName n.tmpl n.slug

def oldName (v : Volume) : String := volumeName n.tmpl n.slug v.name

def newName (v : Volume) : String := volumeName n.tmpl n.req.newSlug v.name

/-- The answers that let a rename get as far as its deploy, and its rollback as far as the prune. Nothing is asked
of the deploy itself, of the wait, or of the start. -/
def Smooth (s : Service) : Event calls → Prop
  | ⟨.podStop h pod, r⟩ => h = n.host → pod = n.pod → r = .ok ()
  | ⟨.getTemplate id, r⟩ => id = n.tmpl → r = .ok n.template
  | ⟨.volumeInspect h v, r⟩ => h = n.host →
      (∃ found, r = .ok found ∧ found.name = v) ∨ ∃ e, r = .error e ∧ e.is .podmanNotFound = true
  | ⟨.volumeCreate h _, r⟩ => h = n.host → r = .ok ()
  | ⟨.volumeImport h _ _, r⟩ => h = n.host → r = .ok ()
  | ⟨.volumeExport h v, r⟩ => h = n.host →
      ∃ bytes, r = .ok bytes ∧ s.codec.buildManifest bytes = .ok (n.content v)
  | ⟨.podRemove h pod _, r⟩ => h = n.host → pod = podName n.tmpl n.req.newSlug →
      r = .ok () ∨ ∃ e, r = .error e ∧ e.is .podmanNotFound = true
  -- the old row is deleted only once the new instance is ready
  | ⟨.deleteSpec h t sl, _⟩ => ¬(h = n.host ∧ t = n.tmpl ∧ sl = n.slug)
  | _ => True

/-- The copies read back like their sources, if anybody looks. -/
def Faithful (s : Service) : Prop :=
  s.verifyVolumes = true → ∀ v ∈ n.template.metadata.volumes,
    Manifest.firstDiff (n.content (n.oldName v)) (n.content (n.newName v)) = none

abbrev owing (s : Service) : Calls.Service calls Debt :=
  tracking (debt n.host n.pod) (n.Smooth s)

end Renaming

def Settling : Op → Prop
  | .podStop _ _ | .podStart _ _ | .volumeCreate _ _ | .volumeRemove _ _ _ => False
  | _ => True

variable {op : Op}

section Steps

variable {s : Service} {n : Renaming} {x y : Debt} {α : Type}

theorem debt_settling {r : op.Ans} (h : n.owing s x op r y) (hop : Settling op) : y = x := by
  obtain ⟨-, rfl⟩ := h
  cases op with
  | podStop | podStart | volumeCreate | volumeRemove => exact hop.elim
  | _ => rfl

theorem settling_ensures {p : Prog calls α} (hp : p.Issues Settling) : Ends (n.owing s) (fun y _ => y = x) p x :=
  hp.ensures (fun _ _ _ _ hop hy h => (debt_settling h hop).trans hy) (fun _ _ _ _ => trivial) rfl

theorem owing_locked {m : Mutex} {p : Prog calls α} {Q : Debt → α → Prop} (h : Ends (n.owing s) Q p x) :
    Ends (n.owing s) Q (locked m p) x := by
  refine ensures_lock trivial fun y hy => ?_
  obtain rfl := debt_settling hy trivial
  exact h.imp fun z a hz => ⟨trivial, fun u hu => debt_settling hu trivial ▸ hz⟩

section

variable (hhost : (s.host n.host).isSome = true)

include hhost

theorem lookup_owing :
    Ends (n.owing s) (fun y r => y = x ∧ r = .ok n.template) (s.lookup n.host n.tmpl).run x :=
  ensures_lookup (fun h => nomatch hhost.symm.trans h) trivial (fun _ _ _ hr => ⟨hr.2, hr.1 rfl⟩)
    fun _ _ hr => nomatch (hr.1 rfl : Except.error _ = Except.ok n.template)

theorem stop_owing :
    Ends (n.owing s) (fun y r => y = { x with down := true } ∧ r = .ok ())
      (s.stop n.host n.tmpl n.slug).run x := by
  refine (lookup_owing hhost).andThen (fun _ _ h => nomatch h.2) fun y _ hy => ?_
  obtain ⟨rfl, -⟩ := hy
  refine owing_locked (ensures_mapErr.2 (ensures_issue (Op.podStop _ _) trivial fun r z hr => ?_))
  obtain ⟨hsmooth, rfl⟩ := hr
  obtain rfl : r = .ok () := hsmooth rfl rfl
  exact ⟨if_pos ⟨rfl, rfl⟩, rfl⟩

theorem start_owing :
    Ends (n.owing s) (fun y _ => y = { x with down := false })
      (s.start n.host n.tmpl n.slug).run x := by
  refine .andThen (P := fun y _ => y = { x with down := false }) ?_ (fun _ _ h => h) fun y _ hy => ?_
  · refine (lookup_owing hhost).andThen (fun _ _ h => nomatch h.2) fun y _ hy => ?_
    obtain ⟨rfl, -⟩ := hy
    refine owing_locked (ensures_mapErr.2 (ensures_issue (Op.podStart _ _) trivial fun r z hr => ?_))
    obtain ⟨-, rfl⟩ := hr
    exact if_pos ⟨rfl, rfl⟩
  · subst hy
    refine settling_ensures ?_
    refine (waitReady_issues _ |>.mono fun op h => ?_).attempt.andThen fun _ => get_issues.mono fun op h => ?_
    · cases h <;> trivial
    · cases h <;> trivial

theorem instanceVolumes_owing : Ends (n.owing s)
      (fun y r => y = x ∧ ∃ vols, r = .ok vols ∧ ∀ v ∈ vols, ∃ d ∈ n.template.metadata.volumes, v.name = n.oldName d)
      (s.instanceVolumes n.host n.tmpl n.slug).run x := by
  refine (lookup_owing hhost).andThen (fun _ _ h => nomatch h.2) fun y t hy => ?_
  obtain ⟨rfl, ht⟩ := hy
  obtain rfl := Except.ok.inj ht
  refine ensures_foldlM (fun _ vols z => z = y ∧ ∀ v ∈ vols, ∃ d ∈ n.template.metadata.volumes, v.name = n.oldName d)
    _ (fun done d rest hsplit vols z hz => ?_) (fun vols z hz => ⟨hz.1, vols, rfl, hz.2⟩) ⟨rfl, nofun⟩
  obtain ⟨rfl, hvols⟩ := hz
  have hd : d ∈ n.template.metadata.volumes := by simp [hsplit]
  refine ensures_ask_bind trivial fun r u hr => ?_
  obtain ⟨hsmooth, rfl⟩ := hr
  rcases hsmooth rfl with ⟨found, rfl, hname⟩ | ⟨e, rfl, he⟩
  · refine ensures_pure_step ⟨rfl, ?_⟩
    intro v hv
    rcases List.mem_append.1 hv with hv | hv
    · exact hvols v hv
    · exact ⟨d, hd, List.mem_singleton.1 hv ▸ hname⟩
  · dsimp only
    rw [if_pos he]
    exact ensures_pure_step ⟨rfl, hvols⟩

end

theorem volumeManifest_owing {v : String} : Ends (n.owing s) (fun y r => y = x ∧ r = .ok (n.content v))
      (s.volumeManifest n.host v).run x := by
  refine ensures_run_bind.2 (ensures_issue (Op.volumeExport _ _) trivial fun r y hr => ?_)
  obtain ⟨hsmooth, rfl⟩ := hr
  obtain ⟨bytes, rfl, hbuild⟩ := hsmooth rfl
  refine ⟨fun content hcontent => ?_, nofun⟩
  obtain rfl := Except.ok.inj hcontent
  rw [hbuild]
  exact ensures_ret.2 ⟨rfl, rfl⟩

theorem renameVolume_owing (hfaithful : n.Faithful s) {v : HostVolume} {d : Volume}
    (hd : d ∈ n.template.metadata.volumes) (hv : v.name = n.oldName d) : Ends (n.owing s)
      (fun y r => y = { x with made := n.newName d :: x.made } ∧ r = .ok ⟨⟩)
      (s.renameVolume n.host n.tmpl n.slug n.req.newSlug v).run x := by
  have hshort : volumeName n.tmpl n.req.newSlug (sliceFrom v.name (volumeNameStem n.tmpl n.slug).toList.length) =
      n.newName d := by
    rw [hv]
    exact congrArg _ (sliceFrom_volumeName _ _ _)
  unfold Service.renameVolume
  dsimp only
  rw [hshort, hv]
  refine ensures_run_bind.2 (ensures_mapErr.2 (ensures_issue (Op.volumeCreate _ _) trivial fun r y hr => ?_))
  obtain ⟨hsmooth, rfl⟩ := hr
  obtain rfl : r = .ok () := hsmooth rfl
  refine ⟨fun _ _ => ?_, nofun⟩
  rw [show debt n.host n.pod x ⟨.volumeCreate n.host (n.newName d), .ok ()⟩ =
    { x with made := n.newName d :: x.made } from if_pos rfl]
  generalize ({ x with made := n.newName d :: x.made } : Debt) = z
  refine .andThen (P := fun y r => y = z ∧ r = .ok (n.content (n.oldName d))) (ensures_mapErr.2 ?_)
    (fun _ _ h => nomatch h.2) fun y src hy => ?_
  · refine ensures_run_bind.2 (ensures_mapErr.2 (ensures_issue (Op.volumeExport _ _) trivial fun r y hr => ?_))
    obtain ⟨hsmooth, rfl⟩ := hr
    obtain ⟨bytes, rfl, hbuild⟩ := hsmooth rfl
    refine ⟨fun content hcontent => ?_, nofun⟩
    obtain rfl := Except.ok.inj hcontent
    refine ensures_run_bind.2 (ensures_mapErr.2 (ensures_issue (Op.volumeImport _ _ _) trivial fun r y hr => ?_))
    obtain ⟨hsmooth, rfl⟩ := hr
    obtain rfl : r = .ok () := hsmooth rfl
    refine ⟨fun _ _ => ensures_mapErr.2 ?_, nofun⟩
    rw [hbuild]
    exact ensures_ret.2 ⟨rfl, rfl⟩
  · obtain ⟨rfl, hsrc⟩ := hy
    obtain rfl := Except.ok.inj hsrc
    unfold Service.verifyRenamed
    split
    · rename_i hverify
      refine .andThen (ensures_mapErr.2 (volumeManifest_owing.imp fun u r hr => ?_))
        (P := fun u r => u = y ∧ r = .ok (n.content (n.newName d))) (fun _ _ h => nomatch h.2) fun u dst hu => ?_
      · exact ⟨hr.1, by rw [hr.2]; rfl⟩
      · obtain ⟨rfl, hdst⟩ := hu
        obtain rfl := Except.ok.inj hdst
        unfold compareManifests
        rw [hfaithful hverify d hd]
        exact ensures_pure.2 ⟨rfl, rfl⟩
    · exact ensures_pure.2 ⟨rfl, rfl⟩

/-! ### The rollback -/

/-- The volumes on the account are those the template declares, but for the ones already pruned. -/
def Outstanding (n : Renaming) (pruned : List String) (x : Debt) : Prop :=
  ∀ m ∈ x.made, ∃ d ∈ n.template.metadata.volumes, m = n.newName d ∧ d.name ∉ pruned

theorem outstanding_all (h : Outstanding n (n.template.metadata.volumes.map (·.name)) x) : x.made = [] := by
  refine List.eq_nil_iff_forall_not_mem.2 fun m hm => ?_
  obtain ⟨d, hd, -, hpruned⟩ := h m hm
  exact hpruned (List.mem_map_of_mem hd)

theorem removal_owing {name : String} {r : Except Error Unit} {pruned : List String} (hx : Outstanding n pruned x)
    (h : n.owing s x (.volumeRemove n.host name true) r y) :
    y.down = x.down ∧ Outstanding n pruned y ∧ name ∉ y.made := by
  obtain ⟨-, rfl⟩ := h
  rw [show debt n.host n.pod x ⟨.volumeRemove n.host name true, r⟩ = { x with made := x.made.filter (· ≠ name) }
    from if_pos rfl]
  exact ⟨rfl, fun m hm => hx m (List.mem_of_mem_filter hm), by simp⟩

theorem pruneInstanceResources_owing {inj : List InjectorSecret} (hx : Outstanding n [] x) :
    Ends (n.owing s) (fun y _ => y = { x with made := [] })
      (pruneInstanceResources n.host n.tmpl n.req.newSlug true true inj).run x := by
  refine ensures_ask_bind trivial fun found y hfound => ?_
  obtain rfl := (debt_settling hfound trivial).symm
  obtain rfl : found = .ok n.template := hfound.1 rfl
  refine .andThen (P := fun y r => (∃ u, r = .ok u) ∧ y.down = x.down ∧ Outstanding n [] y) ?_
    (fun _ _ h => nomatch h.1) fun y _ hy => ?_
  · refine ensures_forM (fun _ y => y.down = x.down ∧ Outstanding n [] y) _ (fun _ name _ _ y hy => ?_)
      (fun y hy => ⟨⟨_, rfl⟩, hy⟩) ⟨rfl, hx⟩
    refine ensures_ask_bind trivial fun _ z hz => ensures_ask_bind trivial fun _ u hu => ensures_pure.2 ?_
    obtain rfl := debt_settling hz trivial
    obtain ⟨hdown, houtstanding, -⟩ := removal_owing hy.2 hu
    exact ⟨fun _ => ⟨hdown.trans hy.1, houtstanding⟩, nofun⟩
  · refine ensures_forM (fun done z => z.down = x.down ∧ Outstanding n done z) _ (fun done short _ _ z hz => ?_)
      (fun z hz => ?_) hy.2
    · refine ensures_ask_bind trivial fun _ u hu => ensures_pure.2 ⟨fun _ => ?_, nofun⟩
      obtain ⟨hdown, houtstanding, hgone⟩ := removal_owing hz.2 hu
      refine ⟨hdown.trans hz.1, fun m hm => ?_⟩
      obtain ⟨d, hd, rfl, hdone⟩ := houtstanding m hm
      refine ⟨d, hd, rfl, fun hmem => ?_⟩
      rcases List.mem_append.1 hmem with hmem | hmem
      · exact hdone hmem
      · exact hgone (List.mem_singleton.1 hmem ▸ hm)
    · obtain ⟨down, made⟩ := z
      obtain ⟨rfl, hz⟩ := hz
      rw [show made = [] from outstanding_all hz]

theorem delete_owing (hhost : (s.host n.host).isSome = true) (hx : Outstanding n [] x) :
    Ends (n.owing s) (fun y _ => y = { x with made := [] })
      (s.delete n.host n.tmpl n.req.newSlug { pruneVolumes := true, pruneSecrets := true }).run x := by
  refine (lookup_owing hhost).andThen (fun _ _ h => nomatch h.2) fun y _ hy => owing_locked ?_
  obtain ⟨rfl, -⟩ := hy
  refine .andThen (P := fun z r => (∃ b, r = .ok b) ∧ z = y) ?_ (fun _ _ h => nomatch h.1) fun z existed hz => ?_
  · refine ensures_ask_bind trivial fun r z hr => ?_
    obtain ⟨hsmooth, rfl⟩ := hr
    rcases hsmooth rfl rfl with rfl | ⟨e, rfl, he⟩
    · exact ensures_pure.2 ⟨⟨_, rfl⟩, rfl⟩
    · dsimp only
      rw [if_pos he]
      exact ensures_pure.2 ⟨⟨_, rfl⟩, rfl⟩
  obtain ⟨-, rfl⟩ := hz
  refine .andThen (P := fun u r => (∃ inj, r = .ok inj) ∧ u = z) ?_ (fun _ _ h => nomatch h.1) fun u inj hu => ?_
  · refine ensures_ask_bind trivial fun r u hr => ?_
    obtain rfl := debt_settling hr trivial
    cases r with
    | ok | error => exact ensures_pure.2 ⟨⟨_, rfl⟩, rfl⟩
  obtain ⟨-, rfl⟩ := hu
  refine (pruneInstanceResources_owing hx).andThen (fun _ _ h => h) fun w _ hw => ?_
  subst hw
  refine settling_ensures ((forgetSpec_issues trivial).andThen fun _ => ?_)
  exact (refreshIngress_issues trivial).andThen fun _ => issues_require

theorem renameRollback_owing (hhost : (s.host n.host).isSome = true) (hx : Outstanding n [] x) :
    Ends (n.owing s) (fun y _ => y = ⟨false, []⟩) (s.renameRollback n.host n.tmpl n.slug n.req.newSlug).run x := by
  refine (start_owing hhost).attemptThen fun y _ hy => ?_
  subst hy
  have hmade : Outstanding n [] { x with down := false } := hx
  exact (delete_owing hhost hmade).attemptThen fun z _ hz => ensures_pure.2 hz

theorem renameOrRollback_owing {what : String} {step : Task Unit} (hhost : (s.host n.host).isSome = true)
    (hstep : step.run.Issues Settling) (hx : Outstanding n [] x) : Ends (n.owing s)
      (fun y r => (∀ e, r = .error e → y = ⟨false, []⟩) ∧ ∀ u, r = .ok u → y = x)
      (s.renameOrRollback n.host n.tmpl n.slug n.req.newSlug what step).run x := by
  refine (settling_ensures hstep).attemptThen fun y r hy => ?_
  subst hy
  cases r with
  | ok _ => exact ensures_pure.2 ⟨nofun, fun _ _ => rfl⟩
  | error e =>
    exact (renameRollback_owing hhost hx).andThen (fun _ _ h => ⟨fun _ _ => h, nofun⟩)
      fun _ _ h => ensures_throw.2 ⟨fun _ _ => h, nofun⟩

/-! ### The rename -/

theorem Applying.settling {host tmpl slug : String} (h : Applying host tmpl slug op) : Settling op := by
  cases h with
  | checking h => cases h <;> trivial
  | lock | unlock => trivial
  | committing h =>
    cases h with
    | pushing h => cases h <;> trivial
    | _ => trivial

theorem renameLocked_owing (hfaithful : n.Faithful s) :
    Ends (n.owing s) (fun y r => ∀ e, r = .error e → y = ⟨false, []⟩)
      (s.renameLocked n.host n.tmpl n.slug n.req).run ⟨false, []⟩ := by
  have hcheck : (s.checkRenameable n.host n.tmpl n.slug n.req).run.Issues Settling :=
    checkRenameable_issues trivial (fun _ => trivial) trivial
  refine ((settling_ensures hcheck).also checkRenameable_host).andThen (fun _ _ h _ _ => h.1) fun x₁ _ h₁ => ?_
  obtain ⟨rfl, hknown⟩ := h₁
  have hhost := hknown _ rfl
  have hget : (Act.lift (issue (.getSpec n.host n.tmpl n.slug)) : Task Spec).run.Issues Settling :=
    issues_perform.2 trivial
  refine (settling_ensures hget).andThen (fun _ _ h _ _ => h) fun x₂ spec h₂ => ?_
  subst h₂
  refine .andThen (P := fun y r => y = ⟨true, []⟩ ∧ r = .ok ())
    (ensures_mapErr.2 ((stop_owing hhost).imp fun y r h => ⟨h.1, by rw [h.2]; rfl⟩))
    (fun _ _ h => nomatch h.2) fun x₃ _ h₃ => ?_
  obtain ⟨rfl, -⟩ := h₃
  refine .andThen (P := fun y r => y = ⟨true, []⟩ ∧ ∃ vols, r = .ok vols ∧
      ∀ v ∈ vols, ∃ d ∈ n.template.metadata.volumes, v.name = n.oldName d)
    (ensures_mapErr.2 ((instanceVolumes_owing hhost).imp fun y r h => ?_))
    (fun _ _ h => nomatch h.2) fun x₄ vols h₄ => ?_
  · obtain ⟨hy, vols, rfl, hvols⟩ := h
    exact ⟨hy, vols, rfl, hvols⟩
  obtain ⟨rfl, vols', hvols', hvols⟩ := h₄
  obtain rfl := Except.ok.inj hvols'
  -- the loop puts declared volumes on the account and cannot fail
  refine .andThen (P := fun y r => (∃ u, r = .ok u) ∧ Outstanding n [] y) ?_ (fun _ _ h => nomatch h.1)
    fun x₅ _ h₅ => ?_
  · refine ensures_forM (fun _ y => Outstanding n [] y) _ (fun done v rest hsplit y hy => ?_)
      (fun y hy => ⟨⟨_, rfl⟩, hy⟩) nofun
    obtain ⟨d, hd, hname⟩ := hvols v (by simp [hsplit])
    refine (renameVolume_owing hfaithful hd hname).imp fun z r hz => ⟨fun _ => ?_, fun e he => ?_⟩
    · rw [hz.1]
      intro m hm
      rcases List.mem_cons.1 hm with rfl | hm
      · exact ⟨d, hd, rfl, nofun⟩
      · exact hy m hm
    · rw [hz.2] at he
      cases he
  have hdeploy : (Act.lift (s.apply n.host (Service.renameApply n.tmpl n.req spec) (Service.renameOptions n.slug) >>=
      fun out => pure out.1) : Task Unit).run.Issues Settling :=
    (apply_issues.mono fun _ h => h.settling).bind fun _ => issues_ret _
  refine (renameOrRollback_owing hhost hdeploy h₅.2).andThen (fun _ e h _ _ => h.1 e rfl) fun x₆ _ h₆ => ?_
  obtain rfl := h₆.2 _ rfl
  have hwait : (s.waitRunning n.host n.tmpl n.req.newSlug).run.Issues Settling :=
    waitRunning_issues.mono fun op h => by cases h <;> trivial
  refine (renameOrRollback_owing hhost hwait h₅.2).andThen (fun _ e h _ _ => h.1 e rfl) fun x₇ _ _ => ?_
  -- the first call after the wait deletes the old row
  unfold Service.renameSpecs forgetOldSpec
  refine .andThen (P := fun _ _ => False) ?_ (fun _ _ h => h.elim) fun _ _ h => h.elim
  refine .andThen (P := fun _ _ => False) ?_ (fun _ _ h => h.elim) fun _ _ h => h.elim
  refine ensures_ask_bind trivial fun r y hr => ?_
  obtain ⟨hsmooth, -⟩ := hr
  exact (hsmooth ⟨rfl, rfl, rfl⟩).elim

end Steps

/-! ## A volume that cannot be copied -/

def renamedTemplate : Template where
  metadata := ⟨"web", [⟨"slug", true, none⟩], ["token"], [], [⟨"data", "", [], none⟩], none, [], none, some []⟩
  body := "kind: Pod"

/-- `web/shop` becomes `web/store`. -/
def storeRename : Renaming where
  host := "engine-1"
  tmpl := "web"
  slug := "shop"
  req := ⟨"store", none, false⟩
  template := renamedTemplate
  content _ := []

def crowdedHost (full : Bool) : Handler calls Unit
  | _, .getTemplate _ => (.ok renamedTemplate, ())
  | _, .getSpec _ _ slug => (if slug = "shop" then .ok exampleRow else .error (.sentinel .storeNotFound), ())
  | _, .podInspect _ pod =>
    (if pod = "web-shop" then .ok ⟨"Running", []⟩ else .error (.sentinel .podmanNotFound), ())
  | _, .volumeImport _ _ _ => (if full then .error (.text "no space left on device") else .ok (), ())
  | _, .playKube _ _ _ _ => (.error (.text "port is already allocated"), ())
  | _, op => (op.plain, ())

@[irreducible]
def crowdedRename (full : Bool) : Except Error Unit × History × Unit :=
  (exampleService.rename "engine-1" "web" "shop" storeRename.req).run.eval (crowdedHost full) ()

theorem crowdedRename_exec (full : Bool) : Exec (crowdedHost full).service ()
    (exampleService.rename "engine-1" "web" "shop" storeRename.req).run (crowdedRename full).2.1
      (crowdedRename full).2.2 (.ret (crowdedRename full).1) := by
  exact exec_of_eval (crowdedRename.eq_def ..)

theorem crowdedHost_smooth {r : op.Ans} (h : r = (crowdedHost false () op).1)
    (hop : op ≠ .deleteSpec "engine-1" "web" "shop") : storeRename.Smooth exampleService ⟨op, r⟩ := by
  subst h
  cases op with
  | podStop | getTemplate | volumeCreate | volumeImport => exact fun _ => by intros; rfl
  | volumeInspect host name => exact fun _ => .inl ⟨_, rfl, rfl⟩
  | volumeExport host name => exact fun _ => ⟨_, rfl, rfl⟩
  | podRemove host name force => exact fun _ _ => .inl rfl
  | deleteSpec host tmpl slug =>
    rintro ⟨rfl, rfl, rfl⟩
    exact hop rfl
  | _ => trivial

end PodmanApi.Instance
