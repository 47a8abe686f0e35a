/-
# PodmanApi.Instance.MigrateFrame — what a failed move leaves on its destination.

The preflight of a move refuses a destination that has the pod, but does not look for volumes or for a row. Once
the source has been stopped, every failure ends in a delete on the destination that goes by names: it takes what
the move has brought and what was there before. `Holding` is what the destination has under those names.
-/
import Mathlib.Logic.Function.Basic
import PodmanApi.Instance.MigrateRestarts
import PodmanApi.Instance.Recovery

namespace PodmanApi.Instance

open GoStd Calls
open Function (update update_self update_of_ne)

/-! ## The destination -/

/-- The volumes of the destination, with their content, and its row of the instance. -/
structure Holding where
  volumes : String → Option Bytes
  row : Option Spec

variable {host name : String} {op : Op} {t : History}

namespace Holding

def setVolume (w : Holding) (name : String) (content : Option Bytes) : Holding :=
  { w with volumes := update w.volumes name content }

def setRow (w : Holding) (row : Option Spec) : Holding :=
  { w with row := row }

@[simp] theorem setRow_row (w : Holding) (row : Option Spec) : (w.setRow row).row = row := rfl

theorem setVolume_none {w : Holding} {n : String} (h : w.volumes n = none ∨ n = name) :
    (w.setVolume name none).volumes n = none := by
  show update w.volumes name none n = none
  rcases h with h | rfl
  · by_cases hn : n = name
    · rw [hn, update_self]
    · rw [update_of_ne hn, h]
  · rw [update_self]

end Holding

/-- The names of the volumes of the moved instance: those the template declares, and those podman keeps for
its secrets. -/
def InstanceVolume (req : MigrateRequest) (tmpl : Template) (name : String) : Prop :=
  (∃ v ∈ tmpl.metadata.volumes, name = volumeName req.template req.slug v.name) ∨
    ∃ n ∈ tmpl.metadata.perInstance, name = instanceSecretName req.template req.slug n

/-- The destination during a move. A removal or a write of a row that fails changes nothing, and one that reports
that there is nothing is right; an import leaves any content; a volume that exists is not created anew; the
containers of a manifest write what they like. -/
def receiving (req : MigrateRequest) (tmpl : Template) : Calls.Service calls Holding := fun w op r w' =>
  match op, r with
  | .getTemplate id, r => (id = req.template → ∀ t, r = .ok t → t = tmpl) ∧ w' = w
  | .volumeCreate h name, _ =>
    w' = w ∨ h = req.toHost ∧ w.volumes name = none ∧ ∃ c, w' = w.setVolume name (some c)
  | .volumeImport h name _, _ => w' = w ∨ h = req.toHost ∧ ∃ c, w' = w.setVolume name (some c)
  | .playKube h _ _ _, _ => w' = w ∨ h = req.toHost ∧ w'.row = w.row
  | .volumeRemove h name _, .ok _ => w' = if h = req.toHost then w.setVolume name none else w
  | .volumeRemove h name _, .error e =>
    (h = req.toHost → e.is .podmanNotFound = true → w.volumes name = none) ∧ w' = w
  | .putSpec sp, .ok _ => w' = if sp.id = req.dest then w.setRow (some sp) else w
  | .deleteSpec h t sl, .ok _ => w' = if (⟨h, t, sl⟩ : SpecId) = req.dest then w.setRow none else w
  | .deleteSpec h t sl, .error e =>
    ((⟨h, t, sl⟩ : SpecId) = req.dest → e.is .storeNotFound = true → w.row = none) ∧ w' = w
  | _, _ => w' = w

/-- The destination holds nothing under the names of the instance. -/
def Bare (req : MigrateRequest) (tmpl : Template) (w : Holding) : Prop :=
  (∀ name, InstanceVolume req tmpl name → w.volumes name = none) ∧ w.row = none

/-- What the destination held under those names it still holds. -/
def Respected (req : MigrateRequest) (tmpl : Template) (w w' : Holding) : Prop :=
  (∀ name content, InstanceVolume req tmpl name → w.volumes name = some content →
    w'.volumes name = some content) ∧ ∀ sp, w.row = some sp → w'.row = some sp

def MigrateRequest.stopEvent (req : MigrateRequest) : Event calls :=
  ⟨.podStop req.fromHost (podName req.template req.slug), .ok ()⟩

/-- The answers that let a delete do its work: the template is read, removals succeed or find nothing, and the
routes are refreshed. -/
def Cooperates (req : MigrateRequest) : (op : Op) → op.Ans → Prop
  | .getTemplate id, r => id = req.template → ∃ t, r = .ok t
  | .podRemove _ _ _, r => ∀ e, r = .error e → e.is .podmanNotFound = true
  | .volumeRemove _ _ _, r => ∀ e, r = .error e → e.is .podmanNotFound = true
  | .deleteSpec _ _ _, r => ∀ e, r = .error e → e.is .storeNotFound = true
  | .reconcile _, r => r = .ok ()
  | _, _ => True

/-! ## Before the stop -/

/-- The calls that touch neither what the destination holds nor the pod of the source. -/
def Aside : Op → Prop
  | .volumeCreate _ _ | .volumeImport _ _ _ | .playKube _ _ _ _ | .volumeRemove _ _ _ | .putSpec _
  | .deleteSpec _ _ _ | .podStop _ _ => False
  | _ => True

theorem Preflighting.aside {req : MigrateRequest} (h : Preflighting req op) : Aside op := by
  cases h <;> trivial

theorem Waiting.aside (h : Waiting host name op) : Aside op := by
  cases h <;> trivial

theorem Reading.aside {tmpl slug : String} (h : Reading host tmpl slug op) : Aside op := by
  cases h <;> trivial

theorem Starting.aside {tmpl slug : String} (h : Starting host tmpl slug op) : Aside op := by
  cases h with
  | waiting h => exact h.aside
  | reading h => exact h.aside
  | lock | podStart | unlock => trivial

section Frame

variable {s : Service} {req : MigrateRequest} {tmpl : Template} {w w' : Holding}
  {S : Calls.Service calls Holding} {x y : Holding × History}

theorem aside_step (op : Op) {r : op.Ans} (hop : Aside op) (h : receiving req tmpl w op r w') : w' = w := by
  cases op with
  | volumeCreate | volumeImport | playKube | volumeRemove | putSpec | deleteSpec | podStop => cases hop
  | getTemplate id => exact h.2
  | _ => exact h

theorem aside_event {r : op.Ans} (hop : Aside op) : req.stopEvent ≠ ⟨op, r⟩ := by
  intro h
  have hfst : Op.podStop req.fromHost (podName req.template req.slug) = op := congrArg Sigma.fst h
  subst hfst
  exact hop

/-- Nothing has happened to the destination since, nor has the stop of the source succeeded since. -/
def Unstirred (req : MigrateRequest) (x y : Holding × History) : Prop :=
  y.1 = x.1 ∧ (req.stopEvent ∈ y.2 ↔ req.stopEvent ∈ x.2)

theorem unstirred_step (op : Op) {r : op.Ans} {z : Holding × History} (hop : Aside op)
    (hS : ∀ w op r w', S w op r w' → receiving req tmpl w op r w') (hxy : Unstirred req x y)
    (h : traced S y op r z) : Unstirred req x z := by
  obtain ⟨hstep, hpast⟩ := h
  refine ⟨(aside_step _ hop (hS _ _ _ _ hstep)).trans hxy.1, ?_⟩
  rw [hpast, List.mem_append, List.mem_singleton, hxy.2]
  exact or_iff_left (aside_event hop)

theorem unstirred_ensures {α : Type} {p : Prog calls α} (hp : p.Issues Aside)
    (hS : ∀ w op r w', S w op r w' → receiving req tmpl w op r w') :
    Ends (traced S) (fun y _ => Unstirred req x y) p x :=
  hp.ensures (fun _ _ _ _ hop hy h => unstirred_step _ hop hS hy h) (fun _ _ _ _ => trivial) ⟨rfl, Iff.rfl⟩

theorem Unstirred.trans {z : Holding × History} (hxy : Unstirred req x y) (hyz : Unstirred req y z) :
    Unstirred req x z :=
  ⟨hyz.1.trans hxy.1, hyz.2.trans hxy.2⟩

section

variable (hS : ∀ w op r w', S w op r w' → receiving req tmpl w op r w')

include hS

theorem stop_recorded : Ends (traced S)
      (fun y r => (∀ u, r = .ok u → req.stopEvent ∈ y.2) ∧ ∀ e, r = .error e → Unstirred req x y)
      (s.stop req.fromHost req.template req.slug).run x := by
  refine (unstirred_ensures (issues_lookup trivial) hS).andThen (fun y e hy => ⟨nofun, fun _ _ => hy⟩)
    fun y _ hy => ensures_lock trivial fun z hz => ?_
  have hlocked := unstirred_step (.lock _) trivial hS hy hz
  refine ensures_mapErr.2 (ensures_issue (Op.podStop req.fromHost (podName req.template req.slug)) trivial fun r u hu => ?_)
  refine ⟨trivial, fun v hv => ?_⟩
  have hunlock := unstirred_step (.unlock _) trivial hS (x := u) ⟨rfl, Iff.rfl⟩ hv
  cases r with
  | ok _ =>
    refine ⟨fun _ _ => hunlock.2.2 ?_, nofun⟩
    rw [hu.2]
    exact List.mem_append_right _ List.mem_cons_self
  | error e =>
    refine ⟨nofun, fun _ _ => (hlocked.trans ?_).trans hunlock⟩
    refine ⟨hS _ _ _ _ hu.1, ?_⟩
    rw [hu.2, List.mem_append, List.mem_singleton]
    refine or_iff_left fun hev => ?_
    cases hev

theorem lookup_known {id : String} : Ends (traced S)
      (fun y r => Unstirred req x y ∧ ∀ t, r = .ok t → (s.host host).isSome = true) (s.lookup host id).run x := by
  exact (unstirred_ensures (issues_lookup trivial) hS).and lookup_host

/-- A move up to its stop. What follows the stop has to establish `Q` wherever the stop is on record; an error
before it leaves everything as it was. -/
theorem migrate_stages {Q : Holding × History → Except Error Unit → Prop}
    (hkeep : ∀ y z r, Unstirred req y z → Q y r → Q z r) (hearly : ∀ y e, Unstirred req (w, []) y → Q y (.error e))
    (hlate : ∀ y t spec, req.stopEvent ∈ y.2 → (s.host req.fromHost).isSome = true →
      (s.host req.toHost).isSome = true → Ends (traced S) Q
        (Act.embed (s.migratePostStop req t spec) >>= s.migrateFinish req : Task Unit).run y) :
    Ends (traced S) Q (s.migrate req).run (w, []) := by
  refine ensures_lock trivial fun x hx => ?_
  have hstart := unstirred_step (.lock _) trivial hS ⟨rfl, Iff.rfl⟩ hx
  have hunlock : ∀ {p : Prog calls (Except Error Unit)} {y}, Ends (traced S) Q p y →
      Ends (traced S) (fun z a => True ∧ ∀ u,
        traced S z (.unlock (migrateLock req.template req.slug)) () u → Q u a) p y := fun h =>
    h.imp fun z a hz => ⟨trivial, fun u hu =>
      hkeep z u a (unstirred_step (.unlock _) trivial hS ⟨rfl, Iff.rfl⟩ hu) hz⟩
  refine hunlock ?_
  refine ensures_require_bind (fun _ => hearly x _ hstart) fun _ => ?_
  refine ensures_require_bind (fun _ => hearly x _ hstart) fun hfrom => ?_
  refine (lookup_known hS).andThen (fun y e hy => hearly y e (hstart.trans hy.1)) fun y t hy => ?_
  have hto := hy.2 t rfl
  -- every stretch before the stop asks calls that are aside
  have hquiet : ∀ {α : Type} {p : Task α} {f : α → Task Unit} {y}, Unstirred req (w, []) y →
      p.run.Issues Aside → (∀ z a, Unstirred req (w, []) z → Ends (traced S) Q (f a).run z) →
      Ends (traced S) Q (p >>= f).run y := fun hy hp hf =>
    (unstirred_ensures hp hS).andThen (fun z e hz => hearly z e (hy.trans hz)) fun z a hz => hf z a (hy.trans hz)
  refine hquiet (hstart.trans hy.1) (issues_perform.2 trivial) fun y spec hy => ?_
  refine hquiet hy ((preflightDest_issues t _).mono fun op h => h.aside) fun y _ hy => ?_
  refine ensures_run_bind.2 ?_
  rw [ensures_mapErr]
  refine (stop_recorded (s := s) (x := y) hS).imp fun z r hz => ?_
  cases r with
  | error e => exact ⟨nofun, fun _ _ => hearly z _ (hy.trans (hz.2 e rfl))⟩
  | ok u => exact ⟨fun _ _ => hlate z t spec (hz.1 u rfl) hfrom hto, nofun⟩

end

variable {r : Except Error Unit} {names : List String}

/-- **Before the stop of the source has succeeded** no call of a move touches what the destination holds. -/
theorem untouched_before_stop
    (h : Exec (receiving req tmpl) w (s.migrate req).run t w' (.ret r)) (hstop : req.stopEvent ∉ t) : w' = w := by
  have hspec : Ends (traced (receiving req tmpl))
      (fun y _ => req.stopEvent ∉ y.2 → y.1 = w) (s.migrate req).run (w, []) := by
    refine migrate_stages (fun _ _ _ _ h => h) (fun y z r hyz hy hz => ?_) (fun y e hy _ => hy.1)
      fun y t spec hy _ _ => ?_
    · exact hyz.1.trans (hy fun hmem => hz (hyz.2.2 hmem))
    · refine ((issues_true _).ensures (I := fun z => req.stopEvent ∈ z.2)
        (fun z op r u _ hz hu => ?_) (fun _ _ _ _ => trivial) hy).imp fun z r hz hnot => absurd hz hnot
      rw [hu.2]
      exact List.mem_append_left _ hz
  exact hspec.post (h.traced []) hstop

/-! ## After the stop -/

abbrev cooperating (req : MigrateRequest) (tmpl : Template) : Calls.Service calls Holding :=
  (receiving req tmpl).answering (Cooperates req)

theorem aside_cooperating {α : Type} {p : Prog calls α} (hp : p.Issues Aside) :
    Ends (cooperating req tmpl) (fun y _ => y = w) p w :=
  hp.ensures (fun _ _ _ _ hop hy h => (aside_step _ hop h.1).trans hy) (fun _ _ _ _ => trivial) rfl

theorem volumeRemove_rid (h : cooperating req tmpl w (.volumeRemove req.toHost name true) r w') :
    w'.row = w.row ∧ ∀ n, w.volumes n = none ∨ n = name → w'.volumes n = none := by
  obtain ⟨hstep, hworks⟩ := h
  cases r with
  | ok _ =>
    have hset : w' = if req.toHost = req.toHost then w.setVolume name none else w := hstep
    rw [if_pos rfl] at hset
    subst hset
    exact ⟨rfl, fun n hn => Holding.setVolume_none hn⟩
  | error e =>
    obtain ⟨habsent, rfl⟩ := hstep
    refine ⟨rfl, fun n hn => ?_⟩
    rcases hn with hn | rfl
    · exact hn
    · exact habsent rfl (hworks e rfl)

def Rid (names : List String) (w : Holding) : Prop :=
  ∀ n ∈ names, w.volumes n = none

theorem Rid.remove (hw : Rid names w)
    (h : cooperating req tmpl w (.volumeRemove req.toHost name true) r w') : Rid (names ++ [name]) w' := by
  intro n hn
  refine (volumeRemove_rid h).2 n ?_
  rcases List.mem_append.1 hn with hn | hn
  · exact .inl (hw n hn)
  · exact .inr (List.mem_singleton.1 hn)

theorem pruneVolume_rid (hw : Rid names w) : Ends (cooperating req tmpl) (fun y _ => Rid (names ++ [name]) y)
      (pruneVolume req.toHost name).run w := by
  refine ensures_ask_bind trivial fun r y hy => ensures_pure.2 ?_
  exact hw.remove hy

theorem pruneSecret_rid (hw : Rid names w) : Ends (cooperating req tmpl) (fun y _ => Rid (names ++ [name]) y)
      (pruneSecret req.toHost name).run w := by
  refine ensures_ask_bind trivial fun r y hy => ensures_ask_bind trivial fun r z hz => ensures_pure.2 ?_
  obtain rfl := aside_step (.secretRemove _ _) trivial hy.1
  exact hw.remove hz

theorem pruneLoop_rid {γ : Type} {body : String → Task PUnit} {f : γ → String} (items : List γ)
    (hbody : ∀ name names y, Rid names y → Ends (cooperating req tmpl)
      (fun z _ => Rid (names ++ [name]) z) (body name).run y) (hw : Rid names w) :
    Ends (cooperating req tmpl) (OnOk fun y _ => Rid (names ++ items.map f) y)
      (forM items fun i => body (f i)).run w := by
  refine ensures_forM (fun done y => Rid (names ++ done.map f) y) items (fun done i rest _ y hy => ?_)
    (fun y hy => onOk_ok.2 hy) (by simpa using hw)
  refine (hbody (f i) _ y hy).imp fun z r hz => ⟨fun _ => ?_, fun e _ => onOk_error e⟩
  rw [List.map_append, ← List.append_assoc]
  exact hz

theorem pruneInstanceResources_rid {injected : List InjectorSecret} : Ends (cooperating req tmpl)
      (OnOk fun y _ => ∀ name, InstanceVolume req tmpl name → y.volumes name = none)
      (pruneInstanceResources req.toHost req.template req.slug true true injected).run w := by
  refine ensures_ask_bind trivial fun r y hy => ?_
  obtain ⟨t, rfl⟩ := hy.2 rfl
  obtain rfl := hy.1.1 rfl t rfl
  have hnone : Rid [] y := nofun
  refine (pruneLoop_rid _ (fun _ _ _ h => pruneSecret_rid h) hnone).thenOk fun z _ hz => ?_
  refine (pruneLoop_rid _ (fun _ _ _ h => pruneVolume_rid h) hz).imp fun u r hu a ha name hname => ?_
  refine hu a ha name ?_
  rcases hname with ⟨v, hv, rfl⟩ | ⟨n, hn, rfl⟩
  · exact List.mem_append_right _ (List.mem_map_of_mem (List.mem_map_of_mem hv))
  · exact List.mem_append_left _ (List.mem_append_right _ (List.mem_map_of_mem (List.mem_append_left _ hn)))

theorem lookup_cooperates (hhost : (s.host host).isSome = true) :
    Ends (cooperating req tmpl) (fun y r => y = w ∧ ∃ t, r = .ok t) (s.lookup host req.template).run w := by
  refine ensures_lookup (fun h => nomatch hhost.symm.trans h) trivial
    (fun _ t y hy => ⟨hy.1.2, t, rfl⟩) fun e y hy => ?_
  obtain ⟨t, ht⟩ := hy.2 rfl
  cases ht

theorem removePod_cooperates : Ends (cooperating req tmpl) (fun y r => y = w ∧ ∃ b, r = .ok b)
      (removePod host req.template req.slug).run w := by
  refine ensures_ask_bind trivial fun r y hy => ?_
  obtain rfl := aside_step (.podRemove _ _ _) trivial hy.1
  cases r with
  | ok _ => exact ensures_pure.2 ⟨rfl, true, rfl⟩
  | error e =>
    dsimp only
    rw [if_pos (hy.2 e rfl)]
    exact ensures_pure.2 ⟨rfl, false, rfl⟩

theorem forgetSpec_cooperates : Ends (cooperating req tmpl)
      (fun y r => r = .ok () ∧ y.volumes = w.volumes ∧ (host = req.toHost → y.row = none))
      (forgetSpec host req.template req.slug).run w := by
  refine ensures_ask_bind trivial fun r y hy => ?_
  obtain ⟨hstep, hworks⟩ := hy
  cases r with
  | ok _ =>
    obtain rfl : y = if (⟨host, req.template, req.slug⟩ : SpecId) = req.dest then w.setRow none else w := hstep
    refine ensures_pure.2 ⟨rfl, ?_, fun hhost => ?_⟩
    · split <;> rfl
    · subst hhost
      have hkey : (⟨req.toHost, req.template, req.slug⟩ : SpecId) = req.dest := rfl
      rw [if_pos hkey, Holding.setRow_row]
  | error e =>
    obtain ⟨habsent, rfl⟩ := hstep
    dsimp only
    rw [if_pos (hworks e rfl)]
    refine ensures_pure.2 ⟨rfl, rfl, fun hhost => habsent ?_ (hworks e rfl)⟩
    subst hhost
    rfl

theorem refreshIngress_cooperates : Ends (cooperating req tmpl) (fun y r => r = .ok () ∧ y = w)
      (s.refreshIngress host).run w := by
  unfold Service.refreshIngress
  split
  · refine ensures_mapErr.2 (ensures_issue (Op.reconcile host) trivial fun r y hy => ?_)
    obtain ⟨hstep, rfl⟩ := hy
    exact ⟨rfl, hstep⟩
  · exact ensures_pure.2 ⟨rfl, rfl⟩

/-- **A delete** with both prune flags succeeds, and on the destination leaves nothing. -/
theorem delete_cooperates (hhost : (s.host host).isSome = true) : Ends (cooperating req tmpl)
      (fun y r => r = .ok () ∧ (host = req.toHost → Bare req tmpl y))
      (s.delete host req.template req.slug { pruneVolumes := true, pruneSecrets := true }).run w := by
  refine (lookup_cooperates hhost).andThen (fun y e h => nomatch h.2) fun y _ hy => ?_
  refine ensures_lock trivial fun z hz => ?_
  have hunlock : ∀ {y z : Holding} {m : Mutex} {r : Except Error Unit},
      r = .ok () ∧ (host = req.toHost → Bare req tmpl y) → cooperating req tmpl y (.unlock m) () z →
      r = .ok () ∧ (host = req.toHost → Bare req tmpl z) := by
    intro y z m r h hstep
    obtain rfl := aside_step (.unlock m) trivial hstep.1
    exact h
  refine .imp ?_ fun u r hu => ⟨trivial, fun v hv => hunlock hu hv⟩
  refine removePod_cooperates.andThen (fun y e h => nomatch h.2) fun y existed hy => ?_
  refine (storedInjectorSecrets_never_fails.ensures).andThen (fun y e h => (h e rfl).elim) fun y injected _ => ?_
  have hprune : Ends (cooperating req tmpl)
      (fun z r => (∀ e, r = .error e → False) ∧ OnOk (fun z _ => host = req.toHost →
        ∀ name, InstanceVolume req tmpl name → z.volumes name = none) z r)
      (pruneInstanceResources host req.template req.slug true true injected).run y := by
    refine pruneInstanceResources_never_fails.ensures.and ?_
    by_cases hto : host = req.toHost
    · subst hto
      exact pruneInstanceResources_rid.imp fun z r hz a ha _ => hz a ha
    · exact (ensures_any _).imp fun z r _ a _ h => absurd h hto
  refine hprune.andThen (fun y e h => (h.1 e rfl).elim) fun u _ hu => ?_
  refine forgetSpec_cooperates.andThen (fun y e h => nomatch h.1) fun v _ hv => ?_
  refine refreshIngress_cooperates.andThen (fun y e h => nomatch h.1) fun z' _ hz' => ?_
  obtain ⟨-, rfl⟩ := hz'
  refine ensures_require.2 ⟨fun _ => ⟨rfl, fun hto => ⟨fun name hname => ?_, hv.2.2 hto⟩⟩, fun h => ?_⟩
  · rw [hv.2.1]
    exact hu.2 _ rfl hto name hname
  · simp at h

theorem startPaired_cooperates (stopped : List PairedInstanceRef) :
    Ends (cooperating req tmpl) (fun y r => y = w ∧ ∀ e, r = .error e → False)
      (forM stopped (s.startPaired req.fromHost)).run w := by
  refine Ensures.and (aside_cooperating (startPaired_issues fun ps op h => h.aside)) (FailsOnly.ensures ?_)
  refine failsOnly_forM _ fun ps _ => ?_
  exact (failsOnly_attempt _).andThen fun _ => failsOnly_pure _

theorem migrateFinish_clears (hfrom : (s.host req.fromHost).isSome = true)
    (hto : (s.host req.toHost).isSome = true) (out : List PairedInstanceRef × Except Error Unit) :
    Ends (cooperating req tmpl) (fun y r => ∀ e, r = .error e → Bare req tmpl y)
      (s.migrateFinish req out).run w := by
  obtain ⟨stopped, r⟩ := out
  cases r with
  | ok _ =>
    -- the source is deleted without an error, so the move succeeds
    show Ensures _ _ _ (s.migrateCommit req stopped).run w
    refine ensures_run_bind.2 ?_
    rw [ensures_mapErr]
    refine (delete_cooperates hfrom).imp fun y r hy => ?_
    obtain ⟨rfl, -⟩ := hy
    exact ⟨fun _ _ => (startPaired_cooperates stopped).imp fun z r hz e he => (hz.2 e he).elim, nofun⟩
  | error e =>
    show Ensures _ _ _ (s.migrateRollback req stopped >>= fun _ => throw e : Task Unit).run w
    refine .andThen (P := fun y _ => Bare req tmpl y) ?_ (fun y e hy _ _ => hy)
      fun y _ hy => ensures_throw.2 fun _ _ => hy
    refine (ensures_any _).attemptThen fun y _ _ => ?_
    refine (delete_cooperates hto).attemptThen fun z _ hz => ?_
    exact (startPaired_cooperates stopped).imp fun u r hu => hu.1 ▸ hz.2 rfl

/-- **After the stop of the source has succeeded** a move whose deletes can work, and that fails, leaves nothing
under the names of the instance. -/
theorem migrate_clears {e : Error} (h : Exec (receiving req tmpl) w (s.migrate req).run t w' (.ret (.error e)))
    (hworks : ∀ ev ∈ t, Cooperates req ev.1 ev.2) (hstop : req.stopEvent ∈ t) : Bare req tmpl w' := by
  have hspec : Ends (traced (cooperating req tmpl))
      (fun y r => ∀ e, r = .error e → req.stopEvent ∈ y.2 → Bare req tmpl y.1) (s.migrate req).run (w, []) := by
    refine migrate_stages (fun _ _ _ _ h => h.1) (fun y z r hyz hy e he hmem => ?_) (fun y e hy _ _ hmem => ?_)
      fun y t spec hy hfrom hto => ?_
    · rw [hyz.1]
      exact hy e he (hyz.2.1 hmem)
    · exact nomatch hy.2.1 hmem
    · have hlate : Ends (cooperating req tmpl) (fun z r => ∀ e, r = .error e → Bare req tmpl z)
          (Act.embed (s.migratePostStop req t spec) >>= s.migrateFinish req : Task Unit).run y.1 :=
        (ensures_any _).embedThen fun z out _ => migrateFinish_clears hfrom hto out
      exact (hlate.recorded y.2).imp fun z r hz e he _ => hz e he
  exact hspec.post ((h.answering hworks).traced []) e rfl hstop

theorem Respected.of_eq (h : w' = w) : Respected req tmpl w w' := by
  subst h
  exact ⟨fun _ _ _ h => h, fun _ h => h⟩

theorem Bare.respected (h : Bare req tmpl w) : Respected req tmpl w w' := by
  refine ⟨fun name content hname hheld => ?_, fun sp hheld => ?_⟩
  · rw [h.1 name hname] at hheld
    cases hheld
  · rw [h.2] at hheld
    cases hheld

theorem Respected.bare (h : Respected req tmpl w w') (hbare : Bare req tmpl w') : Bare req tmpl w := by
  refine ⟨fun name hname => ?_, ?_⟩
  · cases hheld : w.volumes name with
    | none => rfl
    | some content =>
      have hkept := h.1 name content hname hheld
      rw [hbare.1 name hname] at hkept
      cases hkept
  · cases hheld : w.row with
    | none => rfl
    | some sp =>
      have hkept := h.2 sp hheld
      rw [hbare.2] at hkept
      cases hkept

end Frame

/-- A move that fails has respected what its destination held under the names of the instance if it failed before
the stop of the source had succeeded, or if there was nothing. When the calls of its deletes work, these are the
only cases. -/
theorem failed_move_frame (s : Service) (req : MigrateRequest) (tmpl : Template) {w w' : Holding} {t : History}
    {e : Error} (h : Exec (receiving req tmpl) w (s.migrate req).run t w' (.ret (.error e))) :
    (req.stopEvent ∉ t ∨ Bare req tmpl w → Respected req tmpl w w') ∧ ((∀ ev ∈ t, Cooperates req ev.1 ev.2) →
        (Respected req tmpl w w' ↔ req.stopEvent ∉ t ∨ Bare req tmpl w)) := by
  have hkept : req.stopEvent ∉ t ∨ Bare req tmpl w → Respected req tmpl w w' := by
    rintro (hstop | hbare)
    · exact .of_eq (untouched_before_stop h hstop)
    · exact hbare.respected
  refine ⟨hkept, fun hworks => ⟨fun hrespected => ?_, hkept⟩⟩
  by_cases hstop : req.stopEvent ∈ t
  · exact .inr (hrespected.bare (migrate_clears h hworks hstop))
  · exact .inl hstop

/-! ## A leftover volume -/

def ledgerTemplate : Template :=
  { exampleTemplate with metadata := { exampleTemplate.metadata with volumes := [⟨"data", "", [], none⟩] } }

def ledgerMove : MigrateRequest :=
  ⟨"engine-1", "engine-2", "web", "shop", [], []⟩

/-- Hosts on which every call works, except the export of a volume, and with `busy` the stop of a pod. -/
def ledgerHosts (busy : Bool) : Handler calls Holding := fun w op =>
  match op with
  | .getSpec _ _ _ => (.ok exampleRow, w)
  | .getTemplate _ => (.ok ledgerTemplate, w)
  | .podInspect host _ =>
    (if host = "engine-2" then .error (.sentinel .podmanNotFound) else .ok ⟨"Running", []⟩, w)
  | .podStop _ _ => (if busy then .error (.text "device or resource busy") else .ok (), w)
  | .volumeExport _ _ => (.error (.text "connection reset by peer"), w)
  | .volumeRemove h name _ => (.ok (), if h = ledgerMove.toHost then w.setVolume name none else w)
  | .putSpec sp => (.ok (), if sp.id = ledgerMove.dest then w.setRow (some sp) else w)
  | .deleteSpec h t sl =>
    (.ok (), if (⟨h, t, sl⟩ : SpecId) = ledgerMove.dest then w.setRow none else w)
  | op => (op.plain, w)

theorem ledgerHosts_receiving {busy : Bool} {w w' : Holding} {r : op.Ans}
    (h : ledgerHosts busy w op = (r, w')) : receiving ledgerMove ledgerTemplate w op r w' := by
  cases op with
  | getTemplate id =>
    cases h
    exact ⟨fun _ t ht => (Except.ok.inj ht).symm, rfl⟩
  | volumeCreate | volumeImport | playKube => cases h; exact .inl rfl
  | _ => cases h; rfl

/-- The destination before the move, with a volume and a row that an earlier deployment has left. -/
def leftover : Holding :=
  ⟨fun name => if name = "web-shop-data" then some [1] else none, some { exampleRow with host := "engine-2" }⟩

@[irreducible]
def ledgerRun (busy : Bool) : Except Error Unit × History × Holding :=
  (exampleService.migrate ledgerMove).run.eval (ledgerHosts busy) leftover

theorem ledgerRun_exec (busy : Bool) : Exec (receiving ledgerMove ledgerTemplate) leftover
    (exampleService.migrate ledgerMove).run (ledgerRun busy).2.1 (ledgerRun busy).2.2
    (.ret (ledgerRun busy).1) := by
  exact (exec_of_eval (ledgerRun.eq_def ..)).mono fun _ _ _ _ h => ledgerHosts_receiving h

def isStopped : Event calls → Bool
  | ⟨.podStop _ _, .ok _⟩ => true
  | _ => false

theorem not_stopped {req : MigrateRequest} (h : t.any isStopped = false) : req.stopEvent ∉ t := by
  intro hmem
  have hany : t.any isStopped = true := List.any_eq_true.2 ⟨_, hmem, rfl⟩
  rw [h] at hany
  cases hany

/-- The export of the source's volume fails, before anything was written on the destination; the move returns that
error, and the volume and the row that the destination held are gone. -/
theorem failed_move_removes_leftovers :
    ∃ t e w', Exec (receiving ledgerMove ledgerTemplate) leftover (exampleService.migrate ledgerMove).run t w'
        (.ret (.error e)) ∧ InstanceVolume ledgerMove ledgerTemplate "web-shop-data" ∧
      leftover.volumes "web-shop-data" = some [1] ∧ w'.volumes "web-shop-data" = none ∧
      leftover.row.isSome ∧ w'.row = none ∧ ¬Respected ledgerMove ledgerTemplate leftover w' := by
  have hret : (ledgerRun false).1 = .error (.wrap "copy volume \"web-shop-data\": "
      (.wrap "export volume \"web-shop-data\" from engine-1: " (.text "connection reset by peer") "") "") := by
    decide +kernel
  have hvolume : InstanceVolume ledgerMove ledgerTemplate "web-shop-data" :=
    .inl ⟨_, List.mem_cons_self, by decide +kernel⟩
  have hgone : (ledgerRun false).2.2.volumes "web-shop-data" = none := by decide +kernel
  have hrun := ledgerRun_exec false
  rw [hret] at hrun
  refine ⟨_, _, _, hrun, hvolume, rfl, hgone, rfl, by decide +kernel, fun h => ?_⟩
  have hkept := h.1 _ _ hvolume rfl
  rw [hgone] at hkept
  cases hkept

/-- A move whose source cannot be stopped leaves both. -/
theorem early_failure_respects_leftovers : Respected ledgerMove ledgerTemplate leftover (ledgerRun true).2.2 := by
  have hret : (ledgerRun true).1 = .error (.wrap "stop source: " (.text "device or resource busy") "") := by
    decide +kernel
  have hrun := ledgerRun_exec true
  rw [hret] at hrun
  exact (failed_move_frame exampleService ledgerMove ledgerTemplate hrun).1 (.inl (not_stopped (by decide +kernel)))

end PodmanApi.Instance
