/-
# PodmanApi.RegistryPrune.Collection — the registry's contents over a whole prune.

Stage A protects by digest, stage B by reachability: the collector keeps what a tag points at. `Registry` is
what the registry holds, and `world` says what the job's calls do to it. A container that runs a digest whose
tag has moved on is in the set, is not deleted by stage A, and is collected by stage B.
-/
import PodmanApi.RegistryPrune.HandlerSpec

namespace PodmanApi.RegistryPrune

open GoStd Calls

/-! ## The registry -/

/-- What a registry holds: manifests by repository and digest, and tags that point at them. -/
structure Registry where
  manifests : List (String × String)
  tags : List (String × String × String)
  deriving DecidableEq, Repr

namespace Registry

/-- `Delete`: the manifest and its tags in that repository. -/
def delete (R : Registry) (repo digest : String) : Registry where
  manifests := R.manifests.filter (· ≠ (repo, digest))
  tags := R.tags.filter fun x => ¬(x.1 = repo ∧ x.2.2 = digest)

def tagged (R : Registry) (m : String × String) : Bool :=
  R.tags.any fun x => x.1 = m.1 ∧ x.2.2 = m.2

/-- `garbage-collect --delete-untagged`: every manifest that no tag points at goes. -/
def collect (R : Registry) : Registry where
  manifests := R.manifests.filter R.tagged
  tags := R.tags

variable {R : Registry} {m : String × String}

theorem tagged_iff : R.tagged m = true ↔ ∃ tag, (m.1, tag, m.2) ∈ R.tags := by
  simp only [tagged, List.any_eq_true, decide_eq_true_eq]
  constructor
  · rintro ⟨⟨repo, tag, digest⟩, hx, rfl, rfl⟩
    exact ⟨tag, hx⟩
  · rintro ⟨tag, hx⟩
    exact ⟨_, hx, rfl, rfl⟩

variable {repo digest : String}

theorem mem_delete : m ∈ (R.delete repo digest).manifests ↔ m ∈ R.manifests ∧ m ≠ (repo, digest) := by
  simp [delete]

theorem mem_collect : m ∈ R.collect.manifests ↔ m ∈ R.manifests ∧ R.tagged m = true := by
  simp [collect]

@[simp]
theorem collect_collect (R : Registry) : R.collect.collect = R.collect := by
  have htagged : R.collect.tagged = R.tagged := rfl
  unfold collect
  simp [show (⟨R.manifests.filter R.tagged, R.tags⟩ : Registry).tagged = R.tagged from htagged]

theorem tagged_delete (h : m ≠ (repo, digest)) : (R.delete repo digest).tagged m = R.tagged m := by
  rw [Bool.eq_iff_iff, tagged_iff, tagged_iff]
  refine exists_congr fun tag => ?_
  simp only [delete, List.mem_filter, decide_eq_true_eq, and_iff_left_iff_imp]
  rintro - ⟨rfl, rfl⟩
  exact h rfl

/-- Everything the registry holds is reachable through a tag. -/
def AllTagged (R : Registry) : Prop :=
  ∀ m ∈ R.manifests, R.tagged m = true

theorem allTagged_collect : R.collect.AllTagged := fun _ hm => (mem_collect.1 hm).2

theorem AllTagged.delete (h : R.AllTagged) (repo digest : String) : (R.delete repo digest).AllTagged := by
  intro m hm
  obtain ⟨hin, hne⟩ := mem_delete.1 hm
  rw [tagged_delete hne]
  exact h m hin

end Registry

/-! ## What the calls do to it -/

/-- The collector pod reaches every untagged manifest. -/
def GcPod.collects (pod : GcPod) : Bool :=
  pod.containers.any fun c => c.args.contains "garbage-collect" && c.args.contains "--delete-untagged"

structure World where
  registry : Registry
  collecting : List (String × String)
  deriving DecidableEq, Repr

section Semantics

-- how podman reads the document it is handed
variable (parse : String → Option GcPod)

/-- The effect of one answered call. A failed call may have taken effect. -/
inductive Effect (w : World) : (op : Op) → op.Ans → World → Prop where
  | deleted (repo digest : String) (r : Except Error Unit) :
      Effect w (.delete repo digest) r { w with registry := w.registry.delete repo digest }
  | notDeleted (repo digest : String) (e : Error) : Effect w (.delete repo digest) (.error e) w
  | played (host yaml : String) (replace : Bool) (r : Except Error Unit) (pod : GcPod)
      (hpod : parse yaml = some pod) (hgc : pod.collects = true) :
      Effect w (.playKube host yaml replace) r { w with collecting := (host, pod.name) :: w.collecting }
  | notPlayed (host yaml : String) (replace : Bool) (e : Error) :
      Effect w (.playKube host yaml replace) (.error e) w
  | playedOther (host yaml : String) (replace : Bool) (r : Except Error Unit)
      (hother : ∀ pod, parse yaml = some pod → pod.collects = false) :
      Effect w (.playKube host yaml replace) r w
  | collected (host pod : String) (timeout : Duration) (code : Int) (hin : (host, pod) ∈ w.collecting) :
      Effect w (.waitForPodCompletion host pod timeout) (.ok code)
        ⟨w.registry.collect, w.collecting.erase (host, pod)⟩
  | collectFailed (host pod : String) (timeout : Duration) (code : Int) (hcode : code ≠ 0)
      (hin : (host, pod) ∈ w.collecting) :
      Effect w (.waitForPodCompletion host pod timeout) (.ok code)
        { w with collecting := w.collecting.erase (host, pod) }
  | waitedOther (host pod : String) (timeout : Duration) (r : Except Error Int)
      (hin : (host, pod) ∈ w.collecting → ∃ e, r = .error e) :
      Effect w (.waitForPodCompletion host pod timeout) r w
  | other (op : Op) (r : op.Ans) (hdelete : ∀ repo digest, op ≠ .delete repo digest)
      (hplay : ∀ host yaml replace, op ≠ .playKube host yaml replace)
      (hwait : ∀ host pod timeout, op ≠ .waitForPodCompletion host pod timeout) : Effect w op r w

/-- The registry under the job's calls: each call has its effect, and a collector at work may finish
at any time. -/
def world : Service calls World :=
  fun w op r w' => ∃ mid, Effect parse w op r mid ∧
    (w' = mid ∨ (mid.collecting ≠ [] ∧ w' = { mid with registry := mid.registry.collect }))

end Semantics

variable {t : History} {m : String × String} {g : BlobGC} {u : Unicode} {op : Op} {r : op.Ans}

section Invariants

variable {parse : String → Option GcPod} {w w' : World}

/-- What a call does to the registry: a delete does what it says or nothing, no other call changes
it, and in either case a collection may follow. -/
theorem world_cases (h : world parse w op r w') :
    ∃ R, (R = w.registry ∨ ∃ repo digest, op = .delete repo digest ∧ R = w.registry.delete repo digest) ∧
      (w'.registry = R ∨ w'.registry = R.collect) := by
  obtain ⟨mid, heff, hmid⟩ := h
  cases heff <;> rcases hmid with rfl | ⟨-, rfl⟩ <;> simp

theorem kept_step (h : world parse w op r w')
    (hop : op ≠ .delete m.1 m.2) (hm : m ∈ w.registry.manifests) (ht : w.registry.tagged m = true) :
    m ∈ w'.registry.manifests ∧ w'.registry.tagged m = true := by
  obtain ⟨R, hR, hw'⟩ := world_cases h
  have hkept : m ∈ R.manifests ∧ R.tagged m = true := by
    rcases hR with rfl | ⟨repo, digest, rfl, rfl⟩
    · exact ⟨hm, ht⟩
    · have hne : m ≠ (repo, digest) := by
        rintro rfl
        exact hop rfl
      exact ⟨Registry.mem_delete.2 ⟨hm, hne⟩, by rw [Registry.tagged_delete hne]; exact ht⟩
  rcases hw' with hw' | hw'
  · rw [hw']
    exact hkept
  · rw [hw']
    exact ⟨Registry.mem_collect.2 hkept, hkept.2⟩

/-- Once everything is tagged it stays so: a delete takes the tags of what it deletes, and no other. -/
theorem allTagged_step (h : world parse w op r w') (ht : w.registry.AllTagged) : w'.registry.AllTagged := by
  obtain ⟨R, hR, hw'⟩ := world_cases h
  rcases hw' with hw' | hw'
  · rw [hw']
    rcases hR with rfl | ⟨repo, digest, -, rfl⟩
    · exact ht
    · exact ht.delete repo digest
  · rw [hw']
    exact Registry.allTagged_collect

theorem tags_step (h : world parse w op r w') : w'.registry.tags ⊆ w.registry.tags := by
  obtain ⟨R, hR, hw'⟩ := world_cases h
  have hshrinks : R.tags ⊆ w.registry.tags := by
    rcases hR with rfl | ⟨repo, digest, -, rfl⟩
    · exact fun _ hx => hx
    · exact List.filter_subset_self _
  rcases hw' with hw' | hw'
  · rw [hw']
    exact hshrinks
  · rw [hw']
    exact hshrinks

variable {α : Type} {p q : Prog calls α}

theorem tags_run (h : Exec (world parse) w p t w' q) : w'.registry.tags ⊆ w.registry.tags := by
  induction h with
  | refl => exact fun _ hx => hx
  | step hr _ ih => exact List.Subset.trans ih (tags_step hr)

theorem kept_run (hp : p.Issues fun op => op ≠ Op.delete m.1 m.2)
    (h : Exec (world parse) w p t w' q) (hm : m ∈ w.registry.manifests)
    (ht : w.registry.tagged m = true) : m ∈ w'.registry.manifests ∧ w'.registry.tagged m = true := by
  have hall : Ensures (world parse) (fun w _ => m ∈ w.registry.manifests ∧ w.registry.tagged m = true)
      (fun w _ => m ∈ w.registry.manifests ∧ w.registry.tagged m = true) p w :=
    hp.ensures (fun _ _ _ _ hop hI hr => kept_step hr hop hI.1 hI.2) (fun _ _ _ hI => hI) ⟨hm, ht⟩
  exact hall.reached h

variable {marshal : GcPod → Except Error String}

theorem pod_collects (g : BlobGC) : g.pod.collects = true := by
  simp [BlobGC.pod, GcPod.collects]

theorem collect_allTagged (hparse : ∀ yaml, marshal g.pod = .ok yaml → parse yaml = some g.pod) (w : World) :
    Ends (world parse) (fun w out => out.2 = none → w.registry.AllTagged) (collect marshal g) w := by
  refine ensures_call.2 ⟨trivial, fun stopped w₁ _ => ?_⟩
  cases stopped with
  | error e => exact ensures_ret.2 nofun
  | ok _ =>
    cases hyaml : g.manifest marshal with
    | error e => exact ensures_ret.2 nofun
    | ok yaml =>
      refine ensures_call.2 ⟨trivial, fun played w₂ hplay => ?_⟩
      cases played with
      | error e => exact ensures_ret.2 nofun
      | ok _ =>
        -- podman reads back the pod that was marshalled, so the collector is at work
        have hpod : parse yaml = some g.pod := by
          unfold BlobGC.manifest at hyaml
          split at hyaml
          · rename_i out hout
            cases hyaml
            exact hparse _ hout
          · cases hyaml
        have hwork : (g.hostID, g.podNameOrDefault) ∈ w₂.collecting := by
          obtain ⟨mid, heff, hmid⟩ := hplay
          have hmem : (g.hostID, g.podNameOrDefault) ∈ mid.collecting := by
            cases heff with
            | played _ _ _ _ pod hread _ =>
              cases hpod.symm.trans hread
              exact List.mem_cons_self
            | playedOther _ _ _ _ hother =>
              have := hother _ hpod
              cases this
            | other _ _ _ hplay _ => exact absurd rfl (hplay _ _ _)
          rcases hmid with rfl | ⟨-, rfl⟩ <;> exact hmem
        refine ensures_call.2 ⟨trivial, fun waited w₃ hwait => ?_⟩
        cases waited with
        | error e => exact ensures_ret.2 nofun
        | ok code =>
          refine ensures_ret.2 fun hnone => ?_
          have hcode : code = 0 := by
            by_contra hne
            simp [hne] at hnone
          obtain ⟨mid, heff, hmid⟩ := hwait
          have htagged : mid.registry.AllTagged := by
            cases heff with
            | collected => exact Registry.allTagged_collect
            | collectFailed _ _ _ _ hne _ => exact absurd hcode hne
            | waitedOther _ _ _ _ hother => cases (hother hwork).choose_spec
            | other _ _ _ _ hwait => exact absurd rfl (hwait _ _ _)
          rcases hmid with rfl | ⟨-, rfl⟩
          · exact htagged
          · exact Registry.allTagged_collect

theorem allTagged_run (h : Exec (world parse) w p t w' q) (ht : w.registry.AllTagged) : w'.registry.AllTagged := by
  induction h with
  | refl => exact ht
  | step hr _ ih => exact ih (allTagged_step hr ht)

variable {res : Result}

theorem restore_ok {before : Option Int} {played : Bool} {err : Option Error} (h : Returns (restore g before played err) t (res, none)) :
    err = none := by
  obtain ⟨_, t₂, started, -, hrest, -⟩ := returns_bind.1 h
  have hsettle : ∃ t₃, Returns (settle g before err started) t₃ (res, none) := by
    cases played with
    | true =>
      obtain ⟨_, t₃, _, -, hend, -⟩ := returns_bind.1 hrest
      exact ⟨t₃, hend⟩
    | false => exact ⟨t₂, hrest⟩
  obtain ⟨t₃, hend⟩ := hsettle
  cases started with
  | error e =>
    have hout := congrArg Prod.snd (returns_ret.1 hend).2
    cases err with
    | none => rfl
    | some e' => cases hout
  | ok _ =>
    obtain ⟨_, _, _, -, hret, -⟩ := returns_bind.1 hend
    exact (congrArg Prod.snd (returns_ret.1 hret).2).symm

theorem reclaim_allTagged
    (hparse : ∀ yaml, marshal g.pod = .ok yaml → parse yaml = some g.pod) {p : Payload} (hwet : p.dryRun = false)
    (hgc : p.skipBlobGC = false) (h : Exec (world parse) w (reclaim u marshal g p) t w' (.ret (res, none))) :
    w'.registry.AllTagged := by
  unfold reclaim at h
  rw [hwet, hgc] at h
  cases hvalid : g.validate u with
  | error e =>
    rw [hvalid] at h
    cases h.ret_inv.2.2
  | ok _ =>
    rw [hvalid] at h
    obtain ⟨_, _, w₁, before, -, h₁, -⟩ := h.bind_ret_inv
    obtain ⟨_, _, w₂, ⟨played, err⟩, hcollect, h₂, -⟩ := h₁.bind_ret_inv
    have hok := restore_ok h₂.returns
    exact allTagged_run h₂ ((collect_allTagged hparse w₁).post hcollect hok)

end Invariants

/-! ## Over a whole run -/

variable {marshal : GcPod → Except Error String} {h : PruneHandler} {p : Prepared} {w w' : World}

theorem finish_allTagged
    {parse : String → Option GcPod} (hparse : ∀ yaml, marshal g.pod = .ok yaml → parse yaml = some g.pod)
    (hwet : p.payload.dryRun = false) (hgc : h.blobGC = some g) (hskip : p.payload.skipBlobGC = false)
    (hrun : Exec (world parse) w (finish u marshal h p).run t w' (.ret (.ok ()))) : w'.registry.AllTagged := by
  obtain ⟨_, _, w₁, _, -, h₁, -⟩ := hrun.run_bind_ok
  rw [hwet, hgc] at h₁
  obtain ⟨_, _, w₂, ⟨res, err⟩, hreclaim, hret, -⟩ := Exec.bind_ret_inv (p := reclaim u marshal g p.payload) h₁
  obtain ⟨-, rfl, hout⟩ := hret.ret_inv
  cases err with
  | some e => cases hout
  | none => exact reclaim_allTagged hparse hwet hskip hreclaim

theorem finish_spares (hfresh : p.fresh.has u m.2 = true) :
    (finish u marshal h p).run.Issues fun op => op ≠ Op.delete m.1 m.2 := by
  refine (finish_permitted p).mono fun op hop hdelete => ?_
  obtain ⟨-, hmay, -⟩ := hop.deletes m.1 m.2 hdelete
  simp [mayDelete, hfresh] at hmay

/-- Over a complete run that deletes and collects, every manifest of the re-derived
in-use set survives if and only if each of them had a tag. -/
theorem kept_iff (u : Unicode) (marshal : GcPod → Except Error String) (parse : String → Option GcPod)
    (unmarshal : String → Except Error Payload) (h : PruneHandler) (g : BlobGC) (args : String)
    (payload : Payload) (t : History) (w w' : World)
    (hparse : ∀ yaml, marshal g.pod = .ok yaml → parse yaml = some g.pod)
    (hpayload : unmarshal args = .ok payload) (hwet : payload.dryRun = false)
    (hgc : h.blobGC = some g) (hskip : payload.skipBlobGC = false)
    (hrun : Exec (world parse) w (run u marshal unmarshal h args).run t w' (.ret (.ok ()))) :
    ∃ t₁ t₂ w₁ p, t = t₁ ++ t₂ ∧ Exec (world parse) w (prepare u unmarshal h args).run t₁ w₁ (.ret (.ok p)) ∧
      Exec (world parse) w₁ (finish u marshal h p).run t₂ w' (.ret (.ok ())) ∧
      ((∀ m ∈ w.registry.manifests, p.fresh.has u m.2 = true → m ∈ w'.registry.manifests) ↔
        ∀ m ∈ w.registry.manifests, p.fresh.has u m.2 = true → ∃ tag, (m.1, tag, m.2) ∈ w.registry.tags) := by
  have hall := tags_run hrun
  obtain ⟨t₁, t₂, w₁, p, hprep, hfin, rfl⟩ := hrun.run_bind_ok
  refine ⟨t₁, t₂, w₁, p, rfl, hprep, hfin, ?_⟩
  obtain ⟨hpayload', -⟩ := prepare_ok hprep.returns
  obtain rfl : payload = p.payload := Except.ok.inj (hpayload.symm.trans hpayload')
  constructor
  · intro hkept m hm hfresh
    have htagged := finish_allTagged hparse hwet hgc hskip hfin m (hkept m hm hfresh)
    obtain ⟨tag, hmem⟩ := Registry.tagged_iff.1 htagged
    exact ⟨tag, hall hmem⟩
  · intro htags m hm hfresh
    have htagged := Registry.tagged_iff.2 (htags m hm hfresh)
    have hspared : (prepare u unmarshal h args).run.Issues fun op => op ≠ Op.delete m.1 m.2 :=
      (prepare_noDelete args).mono fun op hop => hop m.1 m.2
    obtain ⟨hm₁, htagged₁⟩ := kept_run hspared hprep hm htagged
    exact (kept_run (finish_spares hfresh) hfin hm₁ htagged₁).1

/-! The tag `engine:1` has moved on from the digest that the example container still runs. -/

/-- A registry with the released digest, the one the container runs, and an orphan; the middle one is
reachable through `tag`, if that is set. -/
def exampleWorld (tag : Option String) : World where
  registry :=
    { manifests := [("engine", exampleTagDigest), ("engine", examplePinnedDigest), ("engine", exampleOrphan)]
      tags := [("engine", "1", exampleTagDigest), ("engine", "0a1b2c3", exampleOrphan)] ++
        tag.toList.map fun name => ("engine", name, examplePinnedDigest) }
  collecting := []

def exampleParse (yaml : String) : Option GcPod :=
  if exampleMarshal exampleGC.pod = .ok yaml then some exampleGC.pod else none

def exampleEffect (w : World) : Op → World
  | .delete repo digest => { w with registry := w.registry.delete repo digest }
  | .playKube host yaml _ =>
    match exampleParse yaml with
    | some pod => { w with collecting := (host, pod.name) :: w.collecting }
    | none => w
  | .waitForPodCompletion host pod _ =>
    if (host, pod) ∈ w.collecting then ⟨w.registry.collect, w.collecting.erase (host, pod)⟩ else w
  | _ => w

def exampleService : Handler calls World :=
  fun w op => (exampleAnswer op, exampleEffect w op)

theorem exampleParse_collects {yaml : String} {pod : GcPod} (h : exampleParse yaml = some pod) :
    pod.collects = true := by
  unfold exampleParse at h
  split at h
  · cases h
    exact pod_collects exampleGC
  · cases h

theorem exampleService_world (h : exampleService.service w op r w') : world exampleParse w op r w' := by
  cases h
  refine ⟨exampleEffect w op, ?_, .inl rfl⟩
  cases op with
  | delete repo digest => exact .deleted repo digest _
  | playKube host yaml replace =>
    unfold exampleEffect
    dsimp only
    split
    · rename_i pod hpod
      exact .played host yaml replace _ pod hpod (exampleParse_collects hpod)
    · rename_i hnone
      refine .playedOther host yaml replace _ fun pod hpod => ?_
      rw [hnone] at hpod
      cases hpod
  | waitForPodCompletion host pod timeout =>
    unfold exampleEffect
    dsimp only
    split
    · rename_i hin
      exact .collected host pod timeout 0 hin
    · rename_i hout
      exact .waitedOther host pod timeout _ fun hin => absurd hin hout
  | _ => exact .other _ _ (by simp) (by simp) (by simp)

@[irreducible]
def exampleCollection (tag : Option String) : Except Error Unit × History × World :=
  (run .ascii exampleMarshal exampleUnmarshal exampleHandler "{}").run.eval exampleService
    (exampleWorld tag)

@[irreducible]
def examplePreparation (tag : Option String) : Except Error Prepared × History × World :=
  (prepare .ascii exampleUnmarshal exampleHandler "{}").run.eval exampleService (exampleWorld tag)

theorem exampleCollection_exec (tag : Option String) : Exec (world exampleParse) (exampleWorld tag)
      (run .ascii exampleMarshal exampleUnmarshal exampleHandler "{}").run (exampleCollection tag).2.1
      (exampleCollection tag).2.2 (.ret (exampleCollection tag).1) := by
  unfold exampleCollection
  generalize (run .ascii exampleMarshal exampleUnmarshal exampleHandler "{}").run = p
  exact (exec_eval _ p _).mono fun _ _ _ _ => exampleService_world

theorem examplePreparation_exec (tag : Option String) : Exec (world exampleParse) (exampleWorld tag)
      (prepare .ascii exampleUnmarshal exampleHandler "{}").run (examplePreparation tag).2.1
      (examplePreparation tag).2.2 (.ret (examplePreparation tag).1) := by
  unfold examplePreparation
  generalize (prepare .ascii exampleUnmarshal exampleHandler "{}").run = p
  exact (exec_eval _ p _).mono fun _ _ _ _ => exampleService_world

/-- The run with the container's digest still reachable through a tag. -/
theorem kept_iff_example : ∃ t₁ t₂ w₁ p, (exampleCollection (some "old")).2.1 = t₁ ++ t₂ ∧
      Exec (world exampleParse) (exampleWorld (some "old"))
        (prepare .ascii exampleUnmarshal exampleHandler "{}").run t₁ w₁ (.ret (.ok p)) ∧
      Exec (world exampleParse) w₁ (finish .ascii exampleMarshal exampleHandler p).run t₂
        (exampleCollection (some "old")).2.2 (.ret (.ok ())) ∧
      ((∀ m ∈ (exampleWorld (some "old")).registry.manifests, p.fresh.has .ascii m.2 = true →
          m ∈ (exampleCollection (some "old")).2.2.registry.manifests) ↔
        ∀ m ∈ (exampleWorld (some "old")).registry.manifests, p.fresh.has .ascii m.2 = true →
          ∃ tag, (m.1, tag, m.2) ∈ (exampleWorld (some "old")).registry.tags) := by
  have hok : (exampleCollection (some "old")).1 = .ok () := by decide +kernel
  have hrun := exampleCollection_exec (some "old")
  rw [hok] at hrun
  have hparse : ∀ yaml, exampleMarshal exampleGC.pod = .ok yaml → exampleParse yaml = some exampleGC.pod := by
    intro yaml hyaml
    rw [exampleParse, if_pos hyaml]
  exact kept_iff .ascii exampleMarshal exampleParse exampleUnmarshal exampleHandler exampleGC "{}"
    examplePayload _ _ _ hparse rfl rfl rfl rfl hrun

/-- The digest that a container runs is in the re-derived set, and gone after the run. -/
theorem inUse_manifest_collected : ∃ t t₁ w₁ w' p, Exec (world exampleParse) (exampleWorld none)
        (run .ascii exampleMarshal exampleUnmarshal exampleHandler "{}").run t w' (.ret (.ok ())) ∧
      Exec (world exampleParse) (exampleWorld none)
        (prepare .ascii exampleUnmarshal exampleHandler "{}").run t₁ w₁ (.ret (.ok p)) ∧ t₁ <+: t ∧
      ("engine", examplePinnedDigest) ∈ (exampleWorld none).registry.manifests ∧
      p.fresh.has .ascii examplePinnedDigest = true ∧ ("engine", examplePinnedDigest) ∉ w'.registry.manifests := by
  obtain ⟨hok, hgone⟩ : (exampleCollection none).1 = .ok () ∧
      ("engine", examplePinnedDigest) ∉ (exampleCollection none).2.2.registry.manifests := by
    decide +kernel
  have hrun := exampleCollection_exec none
  rw [hok] at hrun
  have hprep := examplePreparation_exec none
  have hprefix : (examplePreparation none).2.1 <+: (exampleCollection none).2.1 := by decide +kernel
  have hfresh : ((examplePreparation none).1.toOption.map fun p =>
      p.fresh.has .ascii examplePinnedDigest) = some true := by decide +kernel
  cases hout : (examplePreparation none).1 with
  | error e =>
    rw [hout] at hfresh
    cases hfresh
  | ok p =>
    rw [hout] at hprep hfresh
    exact ⟨_, _, _, _, p, hrun, hprep, hprefix, by decide, Option.some.inj hfresh, hgone⟩

end PodmanApi.RegistryPrune
