/-
# PodmanApi.Instance.Prune — what a pruning delete leaves of an instance.

A delete with both prune flags removes what it can name: from the template as it is stored at that moment, and
from the injector secrets of the row. What exists was made by applies that read other versions of both. `Stock`
is the host and the store as far as this matters.
-/
import PodmanApi.Instance.SpecReconcile
import PodmanApi.Instance.Templates
import PodmanApi.Store

namespace PodmanApi.Instance

open GoStd Calls

/-! ## The host and the store -/

/-- The templates, the row of one instance, and the secrets and volumes of its host; beside them those that
applies have made. -/
structure Stock where
  templates : GoMap Template
  row : Option Spec
  secrets : List String
  volumes : List String
  madeSecrets : List String
  madeVolumes : List String
  deriving DecidableEq, Repr

namespace Stock

variable (w : Stock)

/-- A new secret; `making` tells that an apply is at work. -/
def createSecret (making : Bool) (name : String) : Stock :=
  { w with
    secrets := name :: w.secrets
    madeSecrets := if making then name :: w.madeSecrets else w.madeSecrets }

def removeSecret (name : String) : Stock :=
  { w with secrets := w.secrets.filter (· != name) }

def removeVolume (name : String) : Stock :=
  { w with volumes := w.volumes.filter (· != name) }

/-- The named volumes of a manifest that is played: those not there yet are made. -/
def createVolumes (making : Bool) (names : List String) : Stock :=
  let new := names.filter fun name => !w.volumes.contains name
  { w with
    volumes := new ++ w.volumes
    madeVolumes := if making then new ++ w.madeVolumes else w.madeVolumes }

def prunedSecrets (tmpl slug : String) : List String :=
  (((GoMap.get? w.templates tmpl).map (·.metadata.perInstance)).getD [] ++
    ((w.row.map (·.injectorSecrets)).getD []).map (·.name)).map (instanceSecretName tmpl slug)

/-- The names of the volumes that it prunes: the declared ones, and those that wrap a secret. -/
def prunedVolumes (tmpl slug : String) : List String :=
  w.prunedSecrets tmpl slug ++
    (((GoMap.get? w.templates tmpl).map (·.metadata.volumes)).getD []).map
      fun v => volumeName tmpl slug v.name

def Kept : Prop :=
  (∀ name ∈ w.madeSecrets, name ∈ w.secrets) ∧ ∀ name ∈ w.madeVolumes, name ∈ w.volumes

def Clean : Prop :=
  (∀ name ∈ w.madeSecrets, name ∉ w.secrets) ∧ ∀ name ∈ w.madeVolumes, name ∉ w.volumes

end Stock

/-- A host and a store in which every call works, around one instance. `kube` tells the named volumes podman
creates for a manifest. Removing what is not there reports that and changes nothing; other answers are free. -/
def stocked (host tmpl slug : String) (kube : String → List String) (making : Bool) :
    Calls.Service calls Stock := fun w op r w' =>
  match op, r with
  | .getTemplate id, r => r = found .storeNotFound (GoMap.get? w.templates id) ∧ w' = w
  | .putTemplate t, r => r = .ok () ∧ w' = { w with templates := GoMap.set w.templates t.metadata.id t }
  | .getSpec h t sl, r => ((⟨h, t, sl⟩ : SpecId) = ⟨host, tmpl, slug⟩ → r = found .storeNotFound w.row) ∧ w' = w
  | .putSpec sp, r => r = .ok () ∧ w' = if sp.id = ⟨host, tmpl, slug⟩ then { w with row := some sp } else w
  | .deleteSpec h t sl, _ =>
    w' = if (⟨h, t, sl⟩ : SpecId) = ⟨host, tmpl, slug⟩ then { w with row := none } else w
  | .secretInspect h name, r => (h = host → (r = .ok () ↔ name ∈ w.secrets)) ∧ w' = w
  | .secretCreate h name _, r => if h = host then r = .ok () ∧ w' = w.createSecret making name else w' = w
  | .secretRemove h name, r =>
    if h = host then (r = .ok () ↔ name ∈ w.secrets) ∧ w' = w.removeSecret name else w' = w
  | .volumeRemove h name _, _ => w' = if h = host then w.removeVolume name else w
  | .playKube h yaml _ _, r => if h = host then r = .ok () ∧ w' = w.createVolumes making (kube yaml) else w' = w
  | _, _ => w' = w

/-- One operation of a history: an apply of the instance, an edit of a template, or its boot converge. -/
inductive Operates (s : Service) (a : Authoring) (host tmpl slug : String) (kube : String → List String)
    (w w' : Stock) : Prop where
  | apply (req : ApplyRequest) (opts : ApplyOptions) (htmpl : req.template = tmpl) (hslug : req.slug = slug)
      {t : History} {r : Except Error Unit × GoMap String}
      (h : Exec (stocked host tmpl slug kube true) w (s.apply host req opts) t w' (.ret r))
  | update (new : Template) {t : History} {r : Except Error Unit}
      (h : Exec (stocked host tmpl slug kube false) w (s.updateTemplate a new).run t w' (.ret r))
  | converge {t : History} {r : Except Error Bool}
      (h : Exec (stocked host tmpl slug kube false) w (s.reconcileOneSpec host tmpl slug).run t w' (.ret r))

/-! ## A history keeps what it has made -/

def Adding : Op → Prop
  | .secretRemove _ _ | .volumeRemove _ _ _ => False
  | _ => True

variable {name : String} {α : Type} {p : Prog calls α} {op : Op} {r : op.Ans}

theorem Checking.adding (h : Checking op) : Adding op := by
  cases h <;> trivial

theorem Cataloging.adding (h : Cataloging op) : Adding op := by
  cases h with
  | checking h => exact h.adding
  | putTemplate | lock | unlock => trivial

section Keeps

variable {s : Service} {a : Authoring} {host tmpl slug : String} {kube : String → List String} {making : Bool}
  {w w' : Stock}

theorem Stock.Kept.createSecret (h : w.Kept) (name : String) : (w.createSecret making name).Kept := by
  refine ⟨fun n hn => ?_, h.2⟩
  cases making with
  | false => exact List.mem_cons_of_mem _ (h.1 n hn)
  | true =>
    rcases List.mem_cons.1 hn with rfl | hn
    · exact List.mem_cons_self
    · exact List.mem_cons_of_mem _ (h.1 n hn)

theorem Stock.Kept.createVolumes (h : w.Kept) (names : List String) : (w.createVolumes making names).Kept := by
  refine ⟨h.1, fun n hn => ?_⟩
  cases making with
  | false => exact List.mem_append_right _ (h.2 n hn)
  | true =>
    rcases List.mem_append.1 hn with hn | hn
    · exact List.mem_append_left _ hn
    · exact List.mem_append_right _ (h.2 n hn)

theorem adding_kept (hop : Adding op) (h : stocked host tmpl slug kube making w op r w')
    (hw : w.Kept) : w'.Kept := by
  cases op with
  | secretRemove | volumeRemove => cases hop
  | getTemplate | putTemplate | getSpec => exact h.2 ▸ hw
  | secretInspect h' name => exact h.2 ▸ hw
  | putSpec sp =>
    obtain ⟨-, rfl⟩ := h
    split <;> exact hw
  | deleteSpec h' t sl =>
    obtain rfl : w' = _ := h
    split <;> exact hw
  | secretCreate h' name value =>
    unfold stocked at h
    dsimp only at h
    split at h
    · exact h.2 ▸ hw.createSecret name
    · exact h ▸ hw
  | playKube h' yaml replace networks =>
    unfold stocked at h
    dsimp only at h
    split at h
    · exact h.2 ▸ hw.createVolumes (kube yaml)
    · exact h ▸ hw
  | _ =>
    obtain rfl : w' = w := h
    exact hw

/-- A program that keeps what applies have made. -/
abbrev Hoards (host tmpl slug : String) (kube : String → List String) (making : Bool) (p : Prog calls α) : Prop :=
  p.Keeps (stocked host tmpl slug kube making) (fun _ _ => True) Stock.Kept

theorem adding_hoards (hp : p.Issues Adding) : Hoards host tmpl slug kube making p :=
  hp.keeps (fun _ _ _ _ hop hw h => adding_kept hop h hw) fun _ _ _ _ => trivial

def Stock.KeptBut (name : String) (w : Stock) : Prop :=
  (∀ n ∈ w.madeSecrets, n ≠ name → n ∈ w.secrets) ∧ ∀ n ∈ w.madeVolumes, n ∈ w.volumes

theorem Stock.Kept.but (h : w.Kept) (name : String) : w.KeptBut name :=
  ⟨fun n hn _ => h.1 n hn, h.2⟩

theorem Stock.Kept.removeSecret (h : w.Kept) (name : String) : (w.removeSecret name).KeptBut name := by
  refine ⟨fun n hn hne => List.mem_filter.2 ⟨h.1 n hn, ?_⟩, h.2⟩
  simpa using hne

theorem Stock.KeptBut.createSecret (h : w.KeptBut name) : (w.createSecret making name).Kept := by
  have hold : ∀ n ∈ w.madeSecrets, n ∈ name :: w.secrets := by
    intro n hn
    by_cases hne : n = name
    · rw [hne]
      exact List.mem_cons_self
    · exact List.mem_cons_of_mem _ (h.1 n hn hne)
  refine ⟨fun n hn => ?_, h.2⟩
  cases making with
  | false => exact hold n hn
  | true =>
    rcases List.mem_cons.1 hn with rfl | hn
    · exact List.mem_cons_self
    · exact hold n hn

variable {value word : String}

theorem secretCreate_kept {f : Error → Error} (hw : w.KeptBut name) :
    Ends (stocked host tmpl slug kube making) (fun w' _ => w'.Kept)
      (Act.mapErr f (Act.lift (issue (.secretCreate host name value)))).run w := by
  refine ensures_mapErr.2 (ensures_issue (Op.secretCreate host name value) trivial fun r w' h => ?_)
  unfold stocked at h
  dsimp only at h
  rw [if_pos rfl] at h
  exact h.2 ▸ hw.createSecret

theorem dropSecret_kept (hw : w.Kept) : Ends (stocked host tmpl slug kube making)
      (fun w' r => w'.KeptBut name ∧ r = .ok ()) (dropSecret host word name).run w := by
  refine ensures_ask_bind trivial fun r w' h => ?_
  obtain ⟨hfound, rfl⟩ := h
  cases r with
  | error e => exact ensures_pure.2 ⟨hw.but name, rfl⟩
  | ok _ =>
    refine ensures_mapErr.2 (ensures_issue (Op.secretRemove host name) trivial fun r w'' h => ?_)
    unfold stocked at h
    dsimp only at h
    rw [if_pos rfl] at h
    obtain ⟨hremoved, rfl⟩ := h
    rw [hremoved.2 ((hfound rfl).1 rfl)]
    exact ⟨hw.removeSecret name, rfl⟩

variable {req : ApplyRequest} {opts : ApplyOptions} {key : String} {c : Codec}

theorem replaceSecret_hoards : Hoards host tmpl slug kube making (replaceSecret c host word name key value).run := by
  intro w hw
  exact (dropSecret_kept hw).andThen (fun _ _ h => nomatch h.2) fun _ _ h => secretCreate_kept h.1

theorem recreateSecret_hoards :
    Hoards host tmpl slug kube making (recreateSecret c host word name key value).run := by
  intro w hw
  refine .andThen (P := fun w' r => w'.KeptBut name ∧ r = .ok ()) ?_ (fun _ _ h => nomatch h.2)
    fun _ _ h => secretCreate_kept h.1
  refine ensures_ask_bind trivial fun r w' h => ?_
  obtain ⟨hfound, rfl⟩ := h
  cases r with
  | error e => exact ensures_pure.2 ⟨hw.but name, rfl⟩
  | ok _ =>
    refine ensures_ask_bind trivial fun r w'' h => ensures_pure.2 ⟨?_, rfl⟩
    unfold stocked at h
    dsimp only at h
    rw [if_pos rfl] at h
    exact h.2 ▸ hw.removeSecret name

theorem locked_kept {m : Mutex} {Q : Stock → α → Prop} (h : Ends (stocked host tmpl slug kube making) Q p w) :
    Ends (stocked host tmpl slug kube making) Q (locked m p) w := by
  refine ensures_lock trivial fun y hy => ?_
  obtain rfl : y = w := hy
  refine h.imp fun z a hz => ⟨trivial, fun u hu => ?_⟩
  obtain rfl : u = z := hu
  exact hz

theorem applyLocked_hoards : Hoards host tmpl slug kube making (s.applyLocked host req opts) := by
  refine .bind ?_ fun r => ?_
  · refine .andThen (adding_hoards (applyChecks_issues.mono fun _ h => h.adding)) fun prep => ?_
    exact .andThen (keeps_forM _ fun p _ => replaceSecret_hoards) fun _ => keeps_ret _
  cases r with
  | error e => exact keeps_ret _
  | ok prep =>
    refine .bind ?_ fun _ => keeps_ret _
    refine .andThen (keeps_forM _ fun sec _ => replaceSecret_hoards) fun _ => ?_
    refine .andThen (adding_hoards (ensureNetworks_issues _ fun _ => trivial)) fun _ => ?_
    refine .andThen (adding_hoards (.mapErr (issues_perform.2 trivial))) fun _ => ?_
    refine .andThen (adding_hoards ((persistSpec_issues _).mono fun _ h => ?_)) fun _ => ?_
    · cases h <;> trivial
    · exact adding_hoards (refreshIngress_issues trivial)

theorem apply_hoards : Hoards host tmpl slug kube making (s.apply host req opts) := by
  intro w hw
  unfold Service.apply
  split
  · exact locked_kept (applyLocked_hoards w hw)
  · exact locked_kept (locked_kept (applyLocked_hoards w hw))

theorem replay_hoards {t : Template} {spec : Spec} {podMissing : Bool} :
    Hoards host tmpl slug kube making (s.replay host tmpl slug t spec podMissing).run := by
  refine .andThen (adding_hoards issues_lift_pure.mapErr) fun _ => ?_
  refine .andThen (adding_hoards issues_lift_pure.mapErr) fun yaml => ?_
  refine .andThen (adding_hoards (reinject_issues fun _ _ _ _ => trivial)) fun out => ?_
  refine .andThen (keeps_forM _ fun p _ => recreateSecret_hoards) fun _ => ?_
  refine .andThen (keeps_forM _ fun sec _ => recreateSecret_hoards) fun _ => ?_
  refine .andThen (adding_hoards (ensureNetworks_issues _ fun _ => trivial)) fun _ => ?_
  refine .andThen (adding_hoards (.mapErr (issues_perform.2 trivial))) fun _ => ?_
  exact .andThen (adding_hoards (issues_ask trivial)) fun _ => keeps_ret _

theorem reconcileOneSpec_hoards : Hoards host tmpl slug kube making (s.reconcileOneSpec host tmpl slug).run := by
  refine reconcileOneSpec_keeps (P := fun _ _ => True) (fun x op hop hx => ⟨trivial, fun r y h => ?_⟩)
    (fun _ _ _ _ _ _ _ _ => trivial) fun spec t podMissing _ => ?_
  · exact adding_kept (by cases op <;> trivial) h hx
  · exact .andThen (adding_hoards (refuseRename_issues fun _ => trivial)) fun _ =>
      .andThen replay_hoards fun _ => keeps_ret _

/-- **One operation** keeps what was made. -/
theorem Operates.kept (h : Operates s a host tmpl slug kube w w') (hw : w.Kept) : w'.Kept := by
  cases h with
  | apply req opts htmpl hslug h => exact (apply_hoards w hw).post h
  | update new h => exact (adding_hoards (updateTemplate_issues.mono fun _ h => h.adding) w hw).post h
  | converge h => exact (reconcileOneSpec_hoards w hw).post h

/-- **A history** does. -/
theorem history_kept (h : Relation.ReflTransGen (Operates s a host tmpl slug kube) w w') (hw : w.Kept) :
    w'.Kept := by
  induction h with
  | refl => exact hw
  | tail _ hstep ih => exact hstep.kept ih

end Keeps

/-! ## What a delete removes -/

/-- What is left when the secrets and the volumes with the given names are gone. -/
structure Purged (w w' : Stock) (secrets volumes : List String) : Prop where
  madeSecrets : w'.madeSecrets = w.madeSecrets
  madeVolumes : w'.madeVolumes = w.madeVolumes
  secrets : ∀ n, n ∈ w'.secrets ↔ n ∈ w.secrets ∧ n ∉ secrets
  volumes : ∀ n, n ∈ w'.volumes ↔ n ∈ w.volumes ∧ n ∉ volumes

/-- The calls that change nothing on the host or in the record of it. -/
def Idle : Op → Prop
  | .secretRemove _ _ | .volumeRemove _ _ _ | .secretCreate _ _ _ | .playKube _ _ _ _ => False
  | _ => True

section Deletes

variable {s : Service} {host tmpl slug : String} {kube : String → List String} {making : Bool}
  {w w' w'' : Stock} {secrets volumes : List String}

theorem Purged.refl : Purged w w [] [] :=
  ⟨rfl, rfl, by simp, by simp⟩

theorem Purged.secret (h : Purged w w' secrets volumes) (name : String) :
    Purged w ((w'.removeSecret name).removeVolume name) (secrets ++ [name]) (volumes ++ [name]) := by
  refine ⟨h.madeSecrets, h.madeVolumes, fun n => ?_, fun n => ?_⟩
  · show n ∈ w'.secrets.filter (· != name) ↔ _
    simp only [List.mem_filter, h.secrets, bne_iff_ne, List.mem_append, List.mem_singleton, not_or, and_assoc]
  · show n ∈ w'.volumes.filter (· != name) ↔ _
    simp only [List.mem_filter, h.volumes, bne_iff_ne, List.mem_append, List.mem_singleton, not_or, and_assoc]

theorem Purged.volume (h : Purged w w' secrets volumes) (name : String) :
    Purged w (w'.removeVolume name) secrets (volumes ++ [name]) := by
  refine ⟨h.madeSecrets, h.madeVolumes, h.secrets, fun n => ?_⟩
  show n ∈ w'.volumes.filter (· != name) ↔ _
  simp only [List.mem_filter, h.volumes, bne_iff_ne, List.mem_append, List.mem_singleton, not_or, and_assoc]

theorem idle_pruned (hop : Idle op) (h : stocked host tmpl slug kube making w' op r w'')
    (hw : Purged w w' secrets volumes) : Purged w w'' secrets volumes := by
  cases op with
  | secretRemove | volumeRemove | secretCreate | playKube => cases hop
  | getTemplate id => exact h.2 ▸ hw
  | getSpec h' t sl => exact h.2 ▸ hw
  | secretInspect h' name => exact h.2 ▸ hw
  | putTemplate t =>
    obtain ⟨-, rfl⟩ := h
    exact ⟨hw.1, hw.2, hw.3, hw.4⟩
  | putSpec sp =>
    obtain ⟨-, rfl⟩ := h
    split <;> exact ⟨hw.1, hw.2, hw.3, hw.4⟩
  | deleteSpec h' t sl =>
    obtain rfl : w'' = _ := h
    split <;> exact ⟨hw.1, hw.2, hw.3, hw.4⟩
  | _ =>
    obtain rfl : w'' = w' := h
    exact hw

theorem idle_ensures (hp : p.Issues Idle) (hw : Purged w w' secrets volumes) :
    Ends (stocked host tmpl slug kube making) (fun w'' _ => Purged w w'' secrets volumes) p w' :=
  hp.ensures (fun _ _ _ _ hop hw h => idle_pruned hop h hw) (fun _ _ _ _ => trivial) hw

theorem secretRemove_step {r : Except Error Unit}
    (h : stocked host tmpl slug kube making w (.secretRemove host name) r w') : w' = w.removeSecret name := by
  unfold stocked at h
  dsimp only at h
  rw [if_pos rfl] at h
  exact h.2

theorem volumeRemove_step {force : Bool} {r : Except Error Unit}
    (h : stocked host tmpl slug kube making w (.volumeRemove host name force) r w') : w' = w.removeVolume name := by
  unfold stocked at h
  dsimp only at h
  rwa [if_pos rfl] at h

theorem pruneSecret_pruned (hw : Purged w w' secrets volumes) : Ends (stocked host tmpl slug kube making)
      (fun w'' _ => Purged w w'' (secrets ++ [name]) (volumes ++ [name])) (pruneSecret host name).run w' := by
  refine ensures_ask_bind trivial fun r u hu => ensures_ask_bind trivial fun r v hv => ensures_pure.2 ?_
  obtain rfl := secretRemove_step hu
  obtain rfl := volumeRemove_step hv
  exact hw.secret name

theorem pruneVolume_pruned (hw : Purged w w' secrets volumes) : Ends (stocked host tmpl slug kube making)
      (fun w'' _ => Purged w w'' secrets (volumes ++ [name])) (pruneVolume host name).run w' := by
  refine ensures_ask_bind trivial fun r u hu => ensures_pure.2 ?_
  obtain rfl := volumeRemove_step hu
  exact hw.volume name

theorem pruneSecrets_pruned (names : List String) (hw : Purged w w' [] []) :
    Ends (stocked host tmpl slug kube making)
      (OnOk fun w'' _ => Purged w w'' (names.map (instanceSecretName tmpl slug))
        (names.map (instanceSecretName tmpl slug)))
      (forM names fun name => pruneSecret host (instanceSecretName tmpl slug name)).run w' := by
  refine ensures_forM (fun done w'' => Purged w w'' (done.map (instanceSecretName tmpl slug))
    (done.map (instanceSecretName tmpl slug))) names (fun done name rest _ w'' h => ?_)
    (fun w'' h => onOk_ok.2 h) hw
  refine (pruneSecret_pruned h).imp fun u r hu => ⟨fun _ => ?_, fun e _ => onOk_error e⟩
  rw [List.map_append]
  exact hu

theorem pruneVolumes_pruned (names : List String) (hw : Purged w w' secrets volumes) :
    Ends (stocked host tmpl slug kube making)
      (OnOk fun w'' _ => Purged w w'' secrets (volumes ++ names.map (volumeName tmpl slug)))
      (forM names fun short => pruneVolume host (volumeName tmpl slug short)).run w' := by
  refine ensures_forM (fun done w'' => Purged w w'' secrets (volumes ++ done.map (volumeName tmpl slug)))
    names (fun done name rest _ w'' h => ?_) (fun w'' h => onOk_ok.2 h) (by simpa using hw)
  refine (pruneVolume_pruned h).imp fun u r hu => ⟨fun _ => ?_, fun e _ => onOk_error e⟩
  rw [List.map_append, ← List.append_assoc]
  exact hu

theorem pruneInstanceResources_pruned (hw : Purged w w' [] []) (htemplates : w'.templates = w.templates)
    {injected : List InjectorSecret} (hinjected : injected = (w.row.map (·.injectorSecrets)).getD []) :
    Ends (stocked host tmpl slug kube making)
      (OnOk fun w'' _ => Purged w w'' (w.prunedSecrets tmpl slug) (w.prunedVolumes tmpl slug))
      (pruneInstanceResources host tmpl slug true true injected).run w' := by
  refine ensures_ask_bind trivial fun r u hu => ?_
  obtain ⟨rfl, rfl⟩ := hu
  rw [htemplates]
  refine (pruneSecrets_pruned _ hw).thenOk fun v _ hv => ?_
  refine (pruneVolumes_pruned _ hv).imp fun z r hz a ha => ?_
  have hdone := hz a ha
  unfold Stock.prunedVolumes Stock.prunedSecrets
  rw [← hinjected]
  cases hfound : GoMap.get? w.templates tmpl with
  | some t =>
    rw [hfound] at hdone
    simpa [found, List.map_map, Function.comp_def] using hdone
  | none =>
    rw [hfound] at hdone
    simpa [found] using hdone

theorem storedInjectorSecrets_row : Ends (stocked host tmpl slug kube making)
    (OnOk fun w' out => w' = w ∧ out = (w.row.map (·.injectorSecrets)).getD [])
    (storedInjectorSecrets host tmpl slug).run w := by
  refine ensures_ask_bind trivial fun r u hu => ?_
  obtain ⟨hrow, rfl⟩ := hu
  obtain rfl := hrow rfl
  cases hfound : u.row with
  | none | some => exact ensures_pure_onOk ⟨rfl, rfl⟩

/-- **A delete** with both prune flags that returns no error removes these names, and these only. -/
theorem delete_prunes : Ends (stocked host tmpl slug kube making)
    (OnOk fun w'' _ => Purged w w'' (w.prunedSecrets tmpl slug) (w.prunedVolumes tmpl slug))
    (s.delete host tmpl slug ⟨true, true⟩).run w := by
  refine (ensures_lookup_onOk (P := fun u _ => u = w) trivial fun _ _ _ hv => hv.2).thenOk fun u _ hu => ?_
  subst hu
  refine locked_kept ?_
  show Ensures _ _ _ (s.deleteLocked host tmpl slug ⟨true, true⟩).run u
  refine .thenOk (P := fun v _ => v = u) ?_ fun v podExisted hv => ?_
  · refine ensures_ask_bind trivial fun r v hv => ?_
    obtain rfl : v = u := hv
    cases r with
    | ok _ => exact ensures_pure_onOk rfl
    | error e => exact ensures_pure_or_throw_onOk fun _ => rfl
  subst hv
  refine storedInjectorSecrets_row.thenOk fun z injected hz => ?_
  obtain ⟨rfl, hinjected⟩ := hz
  refine (pruneInstanceResources_pruned .refl rfl hinjected).thenOk fun y _ hy => ?_
  -- the row and the routes go last, and neither is on the host
  refine (idle_ensures ?_ hy).imp fun _ _ h _ _ => h
  refine .andThen ?_ fun _ => .andThen ?_ fun _ => issues_require
  · exact forgetSpec_issues trivial
  · exact refreshIngress_issues trivial

end Deletes

/-- After every history of applies, template edits and boot converges in which every call works, a delete with
both prune flags that returns no error leaves no secret and no volume that an apply has made exactly when the
template and the row stored at that moment name every one of them. -/
theorem prune_complete_iff (s : Service) (a : Authoring) (host tmpl slug : String) (kube : String → List String)
    {w₀ w₁ w₂ : Stock} {t : History} (hnew : w₀.madeSecrets = [] ∧ w₀.madeVolumes = [])
    (hhistory : Relation.ReflTransGen (Operates s a host tmpl slug kube) w₀ w₁)
    (hdelete : Exec (stocked host tmpl slug kube false) w₁ (s.delete host tmpl slug ⟨true, true⟩).run t w₂
      (.ret (.ok ()))) : w₂.Clean ↔ (∀ name ∈ w₁.madeSecrets, name ∈ w₁.prunedSecrets tmpl slug) ∧
      ∀ name ∈ w₁.madeVolumes, name ∈ w₁.prunedVolumes tmpl slug := by
  have hkept : w₁.Kept := history_kept hhistory ⟨by simp [hnew.1], by simp [hnew.2]⟩
  have hpruned := delete_prunes.post hdelete () rfl
  unfold Stock.Clean
  rw [hpruned.madeSecrets, hpruned.madeVolumes]
  refine and_congr (forall₂_congr fun name hname => ?_) (forall₂_congr fun name hname => ?_)
  · rw [hpruned.secrets, not_and, not_not]
    exact ⟨fun h => h (hkept.1 name hname), fun h _ => h⟩
  · rw [hpruned.volumes, not_and, not_not]
    exact ⟨fun h => h (hkept.2 name hname), fun h _ => h⟩

/-! ## A secret that the template drops -/

def stockHandler (host tmpl slug : String) (kube : String → List String) (making : Bool) :
    Handler calls Stock := fun w op =>
  match op with
  | .getTemplate id => (found .storeNotFound (GoMap.get? w.templates id), w)
  | .putTemplate t => (.ok (), { w with templates := GoMap.set w.templates t.metadata.id t })
  | .getSpec h t sl =>
    (found .storeNotFound (if (⟨h, t, sl⟩ : SpecId) = ⟨host, tmpl, slug⟩ then w.row else none), w)
  | .putSpec sp => (.ok (), if sp.id = ⟨host, tmpl, slug⟩ then { w with row := some sp } else w)
  | .deleteSpec h t sl =>
    (.ok (), if (⟨h, t, sl⟩ : SpecId) = ⟨host, tmpl, slug⟩ then { w with row := none } else w)
  | .secretInspect _ name =>
    (if w.secrets.contains name then .ok () else .error (.sentinel .podmanNotFound), w)
  | .secretCreate h name _ => (.ok (), if h = host then w.createSecret making name else w)
  | .secretRemove h name =>
    (if w.secrets.contains name then .ok () else .error (.sentinel .podmanNotFound),
      if h = host then w.removeSecret name else w)
  | .volumeRemove h name _ => (.ok (), if h = host then w.removeVolume name else w)
  | .playKube h yaml _ _ => (.ok (), if h = host then w.createVolumes making (kube yaml) else w)
  | op => (op.plain, w)

theorem contains_answer {names : List String} :
    (if names.contains name then .ok () else .error (.sentinel .podmanNotFound) : Except Error Unit) = .ok () ↔
      name ∈ names := by
  rw [← List.contains_iff_mem]
  cases names.contains name
  · exact ⟨nofun, nofun⟩
  · exact ⟨fun _ => rfl, fun _ => rfl⟩

variable {kube : String → List String} {host tmpl slug : String} {w : Stock} {making : Bool}

theorem stocked_handler {w' : Stock} (h : stockHandler host tmpl slug kube making w op = (r, w')) :
    stocked host tmpl slug kube making w op r w' := by
  cases op with
  | getTemplate | putTemplate | putSpec sp => cases h; exact ⟨rfl, rfl⟩
  | getSpec h' t sl =>
    cases h
    exact ⟨fun hid => by rw [if_pos hid], rfl⟩
  | secretInspect h' name => cases h; exact ⟨fun _ => contains_answer, rfl⟩
  | secretCreate h' name value | playKube h' yaml replace networks =>
    cases h
    unfold stocked
    dsimp only
    split
    · exact ⟨rfl, rfl⟩
    · rfl
  | secretRemove h' name =>
    cases h
    unfold stocked
    dsimp only
    split
    · exact ⟨contains_answer, rfl⟩
    · rfl
  | _ => cases h; exact rfl

theorem stocked_eval (p : Prog calls α) (w : Stock) : Exec (stocked host tmpl slug kube making) w p
      (p.eval (stockHandler host tmpl slug kube making) w).2.1
      (p.eval (stockHandler host tmpl slug kube making) w).2.2
      (.ret (p.eval (stockHandler host tmpl slug kube making) w).1) :=
  (exec_eval _ p w).mono fun _ _ _ _ h => stocked_handler h

def freshStock : Stock :=
  ⟨[("web", exampleTemplate)], none, [], [], [], []⟩

def tokenRequest : ApplyRequest :=
  ⟨"web", "shop", [], [("token", "s3cret")], [], []⟩

def tokenlessTemplate : Template :=
  { exampleTemplate with metadata := { exampleTemplate.metadata with perInstance := [] } }

@[irreducible]
def deployedStock : Stock :=
  ((exampleService.apply "engine-1" tokenRequest ⟨true, false, false, none, ""⟩).eval
    (stockHandler "engine-1" "web" "shop" (fun _ => []) true) freshStock).2.2

@[irreducible]
def editedStock : Stock :=
  ((exampleService.updateTemplate plainAuthoring tokenlessTemplate).run.eval
    (stockHandler "engine-1" "web" "shop" (fun _ => []) false) deployedStock).2.2

@[irreducible]
def deleteRun (w : Stock) : Except Error Unit × History × Stock :=
  (exampleService.delete "engine-1" "web" "shop" ⟨true, true⟩).run.eval
    (stockHandler "engine-1" "web" "shop" (fun _ => []) false) w

theorem deployed_operates : Operates exampleService plainAuthoring "engine-1" "web" "shop" (fun _ => [])
    freshStock deployedStock := by
  unfold deployedStock
  exact .apply tokenRequest _ rfl rfl (stocked_eval _ _)

theorem edited_operates : Operates exampleService plainAuthoring "engine-1" "web" "shop" (fun _ => [])
    deployedStock editedStock := by
  unfold editedStock
  exact .update tokenlessTemplate (stocked_eval _ _)

theorem deleteRun_exec (h : (deleteRun w).1 = .ok ()) : Exec (stocked "engine-1" "web" "shop" (fun _ => []) false) w
      (exampleService.delete "engine-1" "web" "shop" ⟨true, true⟩).run (deleteRun w).2.1 (deleteRun w).2.2
      (.ret (.ok ())) := by
  rw [← h]
  unfold deleteRun
  exact stocked_eval _ _

/-- The template drops a secret after the deployment, and the delete leaves
it on the host. -/
theorem dropped_secret_survives :
    Relation.ReflTransGen (Operates exampleService plainAuthoring "engine-1" "web" "shop" fun _ => [])
      freshStock editedStock ∧ Exec (stocked "engine-1" "web" "shop" (fun _ => []) false) editedStock
      (exampleService.delete "engine-1" "web" "shop" ⟨true, true⟩).run (deleteRun editedStock).2.1
      (deleteRun editedStock).2.2 (.ret (.ok ())) ∧ ¬(deleteRun editedStock).2.2.Clean := by
  refine ⟨.tail (.single deployed_operates) edited_operates, deleteRun_exec (by decide +kernel), fun h => ?_⟩
  exact h.1 "web-shop-token" (by decide +kernel) (by decide +kernel)

/-- Without the edit the delete leaves nothing. -/
theorem delete_after_deployment_clean : (deleteRun deployedStock).2.2.Clean :=
  (prune_complete_iff exampleService plainAuthoring "engine-1" "web" "shop" (fun _ => []) ⟨rfl, rfl⟩
    (.single deployed_operates) (deleteRun_exec (by decide +kernel))).2 (by decide +kernel)

/-! ## A delete that keeps the volumes -/

def shelved (host tmpl slug : String) (t : Template) (row : Option Spec) : Calls.Service calls Unit :=
  fun _ op r _ => match op, r with
    | .getTemplate id, r => id = tmpl → ∀ t', r = .ok t' → t' = t
    | .getSpec h id sl, r => h = host → id = tmpl → sl = slug → ∀ sp, r = .ok sp → row = some sp
    | _, _ => True

/-- The short names of the secrets that a prune removes, each with the volume podman wraps it in. -/
def wrappedNames (t : Template) (row : Option Spec) : List String :=
  t.metadata.perInstance ++ ((row.map (·.injectorSecrets)).getD []).map (·.name)

section Keeping

variable {s : Service} {host tmpl slug short : String} {t : Template} {row : Option Spec}

def shelfAnswers (t : Template) (row : Option Spec) : (op : Op) → op.Ans
  | .getTemplate _ => .ok t
  | .getSpec _ _ _ => row.elim (.error (.sentinel .storeNotFound)) .ok
  | op => op.plain

theorem delete_removes_wrapper (hhost : (s.host host).isSome = true) (hshort : short ∈ wrappedNames t row) :
    ∃ h q, Exec (shelved host tmpl slug t row) () (s.delete host tmpl slug ⟨false, true⟩).run h () q ∧
      q.next = some (.volumeRemove host (volumeName tmpl slug short) true) := by
  refine Prog.exec_of_asked (A := shelfAnswers t row) (fun op => ?_) ?_
  · cases op
    case getTemplate => exact fun _ _ ht => (Except.ok.inj ht).symm
    case getSpec =>
      intro _ _ _ sp hsp
      cases row with
      | none => cases hsp
      | some sp' => rw [Except.ok.inj hsp]
    all_goals trivial
  refine Act.asked_right (given_lookup hhost rfl) (withLock_asked ?_)
  refine Act.asked_right (a := true) rfl ?_
  refine Act.asked_right (a := (row.map (·.injectorSecrets)).getD []) ?_ (Act.asked_left ?_)
  · cases row <;> rfl
  refine Act.asked_right (a := .ok t) rfl (Act.asked_left ?_)
  refine Act.asked_forM (x := short) (fun _ _ => rfl) hshort ?_
  exact Act.asked_right rfl (Act.asked_left Act.mem_asked_ask)

/-- A delete without `PruneVolumes` removes no volume the template declares
exactly when it prunes no secrets either, or no declared volume shares its name with one of them. -/
theorem delete_keeps_volumes_iff (s : Service) (host tmpl slug : String) (t : Template) (row : Option Spec)
    (pruneSecrets : Bool) : (∀ h q force, ∀ v ∈ t.metadata.volumes,
      Exec (shelved host tmpl slug t row) () (s.delete host tmpl slug ⟨false, pruneSecrets⟩).run h () q →
      q.next ≠ some (.volumeRemove host (volumeName tmpl slug v.name) force)) ↔
    ((s.host host).isSome = true → pruneSecrets = true →
      ∀ v ∈ t.metadata.volumes, v.name ∉ wrappedNames t row) := by
  constructor
  · rintro hkeeps hhost rfl v hv hname
    obtain ⟨h, q, hrun, hnext⟩ := delete_removes_wrapper hhost hname
    exact hkeeps h q true v hv hrun hnext
  · intro hapart h q force v hv hrun hnext
    cases hhost : (s.host host).isSome with
    | false =>
      -- an unknown host is refused before the first call
      have hrefused : (s.delete host tmpl slug ⟨false, pruneSecrets⟩).run =
          .ret (.error (.sentinel .unknownHost)) := by
        unfold Service.delete Service.lookup
        rw [hhost]
        rfl
      rw [hrefused] at hrun
      cases hrun
      cases hnext
    | true =>
      suffices hdraws : Ensures (shelved host tmpl slug t row)
          (fun _ op => ∀ f, op ≠ .volumeRemove host (volumeName tmpl slug v.name) f) (OnOk fun _ _ => True)
          (s.delete host tmpl slug ⟨false, pruneSecrets⟩).run () from (hdraws.exec hrun).next hnext force rfl
      refine delete_draws (N := (· ∈ wrappedNames t row)) (V := fun _ => True)
        nofun nofun nofun nofun nofun nofun nofun ?_ ?_ ?_ nofun
      · intro _ t' _ ht
        obtain rfl := ht rfl t' rfl
        exact ⟨fun _ _ => trivial, fun n hn => List.mem_append_left _ hn⟩
      · intro _ sp _ hsp i hi
        obtain rfl := hsp rfl rfl rfl sp rfl
        exact List.mem_append_right _ (List.mem_map_of_mem hi)
      · intro hon n hn
        refine ⟨nofun, fun f heq => hapart hhost hon v hv ?_⟩
        have hfull : volumeName tmpl slug n = volumeName tmpl slug v.name := (Op.volumeRemove.inj heq).2.1
        rwa [← volumeName_inj.1 hfull]

end Keeping

def sameNameTemplate : Template :=
  { exampleTemplate with metadata := { exampleTemplate.metadata with
      perInstance := ["data"], volumes := [⟨"data", "", [], none⟩] } }

/-- Registration accepts it, and a delete that is to prune secrets only removes the data volume. -/
theorem secret_prune_removes_data : exampleService.validateTemplate plainAuthoring sameNameTemplate none = .ok () ∧
    "data" ∈ sameNameTemplate.metadata.volumes.map (·.name) ∧
    ∃ h q, Exec (shelved "engine-1" "web" "shop" sameNameTemplate none) ()
      (exampleService.delete "engine-1" "web" "shop" ⟨false, true⟩).run h () q ∧
      q.next = some (.volumeRemove "engine-1" (volumeName "web" "shop" "data") true) :=
  ⟨by decide +kernel, by decide, delete_removes_wrapper (by decide) (by decide)⟩

end PodmanApi.Instance
