/-
# PodmanApi.Instance.MigrateRestarts — the instances a move has stopped.

A move stops pods on its source: the instance it moves, and the paired ones that share its volumes. `owe` keeps
the account: a stop puts a pod on it, a start or a removal takes it off.

The account is kept whatever the destination does, but not when the source itself fails: a stop that reports an
error is never undone, a failed stop of a paired instance loses the list of those stopped before it, and a commit
that fails returns before the paired instances are started. `faulty` names those answers.
-/
import PodmanApi.Instance.Migrate

namespace PodmanApi.Instance

open GoStd Calls

/-! ## The account -/

/-- The pods of a host that have been stopped and neither started nor removed since. -/
def owe (host : String) (owed : List String) : Event calls → List String
  | ⟨.podStop h n, _⟩ => if h = host then n :: owed else owed
  | ⟨.podStart h n, _⟩ => if h = host then owed.filter (· ≠ n) else owed
  | ⟨.podRemove h n _, .ok _⟩ => if h = host then owed.filter (· ≠ n) else owed
  | _ => owed

def MigrateRequest.templates (req : MigrateRequest) : List String :=
  req.template :: req.alsoStop.map (·.template)

/-- The failures on the source that a move does not compensate: of a stop, of the deletion, and of a template
lookup of an instance it stops. -/
def faulty (req : MigrateRequest) : Event calls → Bool
  | ⟨.podStop h _, .error _⟩ => h == req.fromHost
  | ⟨.podRemove h _ _, .error _⟩ => h == req.fromHost
  | ⟨.deleteSpec h _ _, .error e⟩ => h == req.fromHost && !e.is .storeNotFound
  | ⟨.reconcile h, .error _⟩ => h == req.fromHost
  | ⟨.getTemplate id, .error _⟩ => req.templates.contains id
  | _ => false

abbrev accounting (req : MigrateRequest) : Calls.Service calls (List String) :=
  tracking (owe req.fromHost) fun e => faulty req e = false

/-- The calls that put nothing on the account. -/
def Unstopping (host : String) : Op → Prop
  | .podStop h _ => h ≠ host
  | _ => True

variable {host tmpl slug h n : String} {op : Op}

section Account

variable {req : MigrateRequest} {x y : List String} {s : Service}

theorem owe_subset {r : op.Ans} (hop : Unstopping req.fromHost op) (h : accounting req x op r y) : y ⊆ x := by
  obtain ⟨-, rfl⟩ := h
  cases op with
  | podStop host n =>
    show (if host = req.fromHost then n :: x else x) ⊆ x
    rw [if_neg hop]
    exact List.Subset.refl x
  | podStart host n =>
    show (if host = req.fromHost then x.filter (· ≠ n) else x) ⊆ x
    split
    · exact List.filter_subset_self _
    · exact List.Subset.refl x
  | podRemove host n force =>
    cases r with
    | error e => exact List.Subset.refl x
    | ok _ =>
      show (if host = req.fromHost then x.filter (· ≠ n) else x) ⊆ x
      split
      · exact List.filter_subset_self _
      · exact List.Subset.refl x
  | _ => exact List.Subset.refl x

theorem unstopping_ensures {α : Type} {p : Prog calls α} {owed : List String}
    (hp : p.Issues (Unstopping req.fromHost)) (hx : x ⊆ owed) : Ends (accounting req) (fun y _ => y ⊆ owed) p x :=
  hp.ensures (fun _ _ _ _ hop hy h => List.Subset.trans (owe_subset hop h) hy) (fun _ _ _ _ => trivial) hx

theorem lookup_steady (hhost : (s.host host).isSome = true) (htmpl : tmpl ∈ req.templates) :
    Ends (accounting req) (fun y r => y = x ∧ ∃ t, r = .ok t) (s.lookup host tmpl).run x := by
  refine ensures_lookup (fun h => nomatch hhost.symm.trans h) trivial (fun _ t y hr => ⟨hr.2, t, rfl⟩)
    fun e y hr => ?_
  have hsteady := hr.1
  simp [faulty, htmpl] at hsteady

theorem ensures_locked_account {α : Type} {m : Mutex} {p : Prog calls α}
    {Q : List String → α → Prop} (h : Ends (accounting req) Q p x) : Ends (accounting req) Q (locked m p) x := by
  refine ensures_lock trivial fun y hy => ?_
  obtain ⟨-, rfl⟩ := hy
  refine h.imp fun z a hz => ⟨trivial, fun u hu => ?_⟩
  obtain ⟨-, rfl⟩ := hu
  exact hz

theorem stop_owes (hhost : (s.host req.fromHost).isSome = true) (htmpl : tmpl ∈ req.templates) :
    Ends (accounting req)
      (fun y r => r = .ok () ∧ y ⊆ podName tmpl slug :: x) (s.stop req.fromHost tmpl slug).run x := by
  refine (lookup_steady hhost htmpl).andThen (fun _ _ h => nomatch h.2) fun y t hy => ?_
  obtain ⟨rfl, -⟩ := hy
  refine ensures_locked_account (ensures_mapErr.2 ?_)
  refine ensures_issue (Op.podStop req.fromHost (podName tmpl slug)) trivial fun r z hr => ?_
  obtain ⟨hsteady, rfl⟩ := hr
  cases r with
  | error e => exact (by simp [faulty] at hsteady)
  | ok _ =>
    refine ⟨rfl, ?_⟩
    show (if req.fromHost = req.fromHost then podName tmpl slug :: y else y) ⊆ _
    rw [if_pos rfl]
    exact List.Subset.refl _

theorem filter_settles : x.filter (· ≠ n) ⊆ x ∧ n ∉ x.filter (· ≠ n) :=
  ⟨List.filter_subset_self _, by simp⟩

theorem Reading.unstopping (hop : Reading h tmpl slug op) : Unstopping host op := by
  cases hop <;> trivial

theorem Waiting.unstopping (hop : Waiting h n op) : Unstopping host op := by
  cases hop <;> trivial

theorem Pruning.unstopping (hop : Pruning h tmpl op) : Unstopping host op := by
  cases hop <;> trivial

theorem start_settles (hhost : (s.host req.fromHost).isSome = true) (htmpl : tmpl ∈ req.templates) :
    Ends (accounting req) (fun y _ => y ⊆ x ∧ podName tmpl slug ∉ y) (s.start req.fromHost tmpl slug).run x := by
  have hissued : Ends (accounting req) (fun y _ => y ⊆ x ∧ podName tmpl slug ∉ y)
      (s.lifecycle req.fromHost tmpl slug fun h n => issue (.podStart h n)).run x := by
    refine (lookup_steady hhost htmpl).andThen (fun _ _ h => nomatch h.2) fun y t hy => ?_
    obtain ⟨rfl, -⟩ := hy
    refine ensures_locked_account (ensures_mapErr.2 ?_)
    refine ensures_issue (Op.podStart req.fromHost (podName tmpl slug)) trivial fun r z hr => ?_
    obtain ⟨-, rfl⟩ := hr
    show _ ∧ podName tmpl slug ∉ if req.fromHost = req.fromHost then _ else y
    simp only [owe]
    exact filter_settles
  -- what follows the start stops nothing, so a settled pod stays settled
  have hkeep : ∀ {α : Type} {p : Prog calls α} {y : List String},
      p.Issues (Unstopping req.fromHost) → y ⊆ x ∧ podName tmpl slug ∉ y →
      Ends (accounting req) (fun z _ => z ⊆ x ∧ podName tmpl slug ∉ z) p y := by
    intro α p y hp hy
    refine (unstopping_ensures hp (List.Subset.refl y)).imp fun z a hz => ?_
    exact ⟨List.Subset.trans hz hy.1, fun hmem => hy.2 (hz hmem)⟩
  refine hissued.andThen (fun _ _ h => h) fun y _ hy => ?_
  refine (hkeep ((waitReady_issues _).mono fun op h => h.unstopping).attempt hy).andThen
    (fun _ _ h => h) fun z _ hz => ?_
  exact hkeep (get_issues.mono fun op h => h.unstopping) hz

theorem storedInjectorSecrets_never_fails : FailsOnly (fun _ => False) (storedInjectorSecrets host tmpl slug) := by
  refine (failsOnly_ask _).andThen fun r => ?_
  cases r with
  | ok | error => exact failsOnly_pure _

theorem pruneInstanceResources_never_fails {secrets volumes : Bool} {inj : List InjectorSecret} :
    FailsOnly (fun _ => False) (pruneInstanceResources host tmpl slug secrets volumes inj) := by
  refine (failsOnly_ask _).andThen fun found => ?_
  refine (failsOnly_forM _ fun n _ => ?_).andThen fun _ => failsOnly_forM _ fun n _ => ?_
  · exact (failsOnly_ask _).andThen fun _ => (failsOnly_ask _).andThen fun _ => failsOnly_pure _
  · exact (failsOnly_ask _).andThen fun _ => failsOnly_pure _

theorem delete_settles (hhost : (s.host req.fromHost).isSome = true) (htmpl : tmpl ∈ req.templates) :
    Ends (accounting req) (fun y r => r = .ok () ∧ y ⊆ x ∧ podName tmpl slug ∉ y)
      (s.delete req.fromHost tmpl slug { pruneVolumes := true, pruneSecrets := true }).run x := by
  refine (lookup_steady hhost htmpl).andThen (fun _ _ h => nomatch h.2) fun y t hy => ?_
  obtain ⟨rfl, -⟩ := hy
  refine ensures_locked_account ?_
  have hremove : Ends (accounting req) (fun z r => r = .ok true ∧ z ⊆ y ∧ podName tmpl slug ∉ z)
      (removePod req.fromHost tmpl slug).run y := by
    refine ensures_ask_bind trivial fun r z hr => ?_
    obtain ⟨hsteady, rfl⟩ := hr
    cases r with
    | error e => exact (by simp [faulty] at hsteady)
    | ok _ =>
      refine ensures_pure.2 ⟨rfl, ?_⟩
      simp only [owe]
      exact filter_settles
  have hforget : ∀ z, Ends (accounting req) (fun u r => r = .ok () ∧ u = z)
      (forgetSpec req.fromHost tmpl slug).run z := by
    intro z
    refine ensures_ask_bind trivial fun r u hr => ?_
    obtain ⟨hsteady, rfl⟩ := hr
    cases r with
    | ok _ => exact ensures_pure.2 ⟨rfl, rfl⟩
    | error e =>
      have hmissing : e.is .storeNotFound = true := by simpa [faulty] using hsteady
      dsimp only
      rw [if_pos hmissing]
      exact ensures_pure.2 ⟨rfl, rfl⟩
  have hrefresh : ∀ z, Ends (accounting req) (fun u r => r = .ok () ∧ u = z)
      (s.refreshIngress req.fromHost).run z := by
    intro z
    unfold Service.refreshIngress
    split
    · refine ensures_mapErr.2 (ensures_issue (Op.reconcile req.fromHost) trivial fun r u hr => ?_)
      obtain ⟨hsteady, rfl⟩ := hr
      cases r with
      | ok _ => exact ⟨rfl, rfl⟩
      | error e => exact (by simp [faulty] at hsteady)
    · exact ensures_pure.2 ⟨rfl, rfl⟩
  refine hremove.andThen (fun _ _ h => by cases h.1) fun z existed hz => ?_
  obtain ⟨-, hsub, hout⟩ := hz
  have hsecrets : Ends (accounting req) (fun y _ => y ⊆ z)
      (storedInjectorSecrets req.fromHost tmpl slug).run z :=
    unstopping_ensures (storedInjectorSecrets_issues trivial) (List.Subset.refl z)
  refine (hsecrets.and storedInjectorSecrets_never_fails.ensures).andThen
    (fun _ e h => (h.2 e rfl).elim) fun u inj hu => ?_
  have hprune : Ends (accounting req) (fun y _ => y ⊆ z)
      (pruneInstanceResources req.fromHost tmpl slug true true inj).run u :=
    unstopping_ensures ((pruneInstanceResources_issues true true inj).mono fun op h => h.unstopping)
      hu.1
  refine (hprune.and pruneInstanceResources_never_fails.ensures).andThen
    (fun _ e h => (h.2 e rfl).elim) fun v _ hv => ?_
  refine (hforget v).andThen (fun _ _ h => by cases h.1) fun v' _ hv' => ?_
  obtain ⟨-, rfl⟩ := hv'
  refine (hrefresh v').andThen (fun _ _ h => by cases h.1) fun w _ hw => ?_
  obtain ⟨-, rfl⟩ := hw
  refine ensures_require.2 ⟨fun _ => ⟨rfl, ?_, ?_⟩, by simp⟩
  · exact List.Subset.trans hv.1 hsub
  · exact fun hmem => hout (hv.1 hmem)

end Account

/-! ## The move -/

def PairedInstanceRef.pod (ps : PairedInstanceRef) : String :=
  podName ps.template ps.slug

section Move

variable {req : MigrateRequest} {x y : List String} {s : Service}

theorem Checking.unstopping (h : Checking op) : Unstopping host op := by
  cases h <;> trivial

theorem Applying.unstopping (hop : Applying h tmpl slug op) : Unstopping host op := by
  cases hop with
  | checking h => exact h.unstopping
  | committing h =>
    cases h with
    | pushing h => cases h <;> trivial
    | _ => trivial
  | lock | unlock => trivial

theorem Deleting.unstopping (hop : Deleting h tmpl slug op) : Unstopping host op := by
  cases hop with
  | pruning h => exact h.unstopping
  | _ => trivial

theorem Preflighting.unstopping (h : Preflighting req op) : Unstopping host op := by
  cases h <;> trivial

theorem Provisioning.unstopping (h : Provisioning req op) : Unstopping host op := by
  cases h <;> trivial

theorem Copying.unstopping {fromHost toHost : String} (h : Copying fromHost toHost op) : Unstopping host op := by
  cases h <;> trivial

theorem mem_templates {ps : PairedInstanceRef} (h : ps ∈ req.alsoStop) : ps.template ∈ req.templates :=
  List.mem_cons_of_mem _ (List.mem_map_of_mem h)

theorem migratePrepare_owes (hhost : (s.host req.fromHost).isSome = true) (tmpl : Template) (hx : x ⊆ [req.pod]) :
    Ends (accounting req) (fun y r => (∀ stopped, r = .ok stopped → stopped = req.alsoStop ∧
        y ⊆ req.pod :: stopped.map (·.pod)) ∧ ∀ e, r = .error e → y ⊆ [req.pod])
      (s.migratePrepare req tmpl).run x := by
  refine (unstopping_ensures (issues_forM _ fun name _ =>
    (provisionHostSecret_issues s.codec name).mono fun op h => h.unstopping) hx).andThen
    (fun y e hy => ⟨nofun, fun _ _ => hy⟩) fun y _ hy => ?_
  refine ensures_foldlM (fun done stopped z => stopped = done ∧ z ⊆ req.pod :: done.map (·.pod))
    req.alsoStop ?_ ?_ ⟨rfl, hy⟩
  · intro done ps rest hlist stopped z hz
    obtain ⟨rfl, hz⟩ := hz
    have hmem : ps ∈ req.alsoStop := by
      rw [hlist]
      simp
    refine (stop_owes hhost (mem_templates hmem)).attemptThen fun u r hu => ?_
    obtain ⟨rfl, hsub⟩ := hu
    refine ensures_pure_step ⟨rfl, fun n hn => ?_⟩
    rcases List.mem_cons.1 (hsub hn) with rfl | hn
    · simp [PairedInstanceRef.pod]
    · rcases List.mem_cons.1 (hz hn) with rfl | hn
      · exact List.mem_cons_self
      · rw [List.map_append]
        exact List.mem_cons_of_mem _ (List.mem_append_left _ hn)
  · rintro stopped z ⟨rfl, hz⟩
    exact ⟨fun stopped' h => Except.ok.inj h ▸ ⟨rfl, hz⟩, nofun⟩

theorem migratePostStop_owes (hhost : (s.host req.fromHost).isSome = true) (tmpl : Template)
    (spec : Spec) (hx : x ⊆ [req.pod]) : Ends (accounting req)
      (fun y out => out.1 ⊆ req.alsoStop ∧ y ⊆ req.pod :: out.1.map (·.pod))
      (s.migratePostStop req tmpl spec) x := by
  refine (migratePrepare_owes hhost tmpl hx).bind fun y r hy => ?_
  cases r with
  | error e => exact ensures_ret.2 ⟨List.nil_subset _, hy.2 e rfl⟩
  | ok stopped =>
    obtain ⟨rfl, hsub⟩ := hy.1 stopped rfl
    have hvolumes : (s.migrateVolumes req).run.Issues (Unstopping req.fromHost) :=
      migrateVolumes_issues (fun op h => h.unstopping) fun op h => h.unstopping
    have hdeploy : (s.migrateDeploy req spec).run.Issues (Unstopping req.fromHost) := by
      refine .andThen (.mapErr ?_) fun _ =>
        (waitRunning_issues.mono fun op h => h.unstopping).mapErr
      exact (apply_issues.mono fun op h => h.unstopping).bind fun out => issues_ret _
    refine (unstopping_ensures (hvolumes.andThen fun _ => hdeploy)
      hsub).bind fun z r hz => ?_
    exact ensures_ret.2 ⟨List.Subset.refl _, hz⟩

theorem startPaired_settles (hhost : (s.host req.fromHost).isSome = true)
    {stopped : List PairedInstanceRef} (hlisted : stopped ⊆ req.alsoStop) (hx : x ⊆ stopped.map (·.pod)) :
    Ends (accounting req) (fun y r => y = [] ∧ r = .ok ⟨⟩) (forM stopped (s.startPaired req.fromHost)).run x := by
  refine ensures_forM (fun done y => y ⊆ stopped.map (·.pod) ∧ ∀ ps ∈ done, ps.pod ∉ y) stopped
    ?_ ?_ ⟨hx, nofun⟩
  · rintro done ps rest hlist y ⟨hsub, hsettled⟩
    have hmem : ps ∈ stopped := by
      rw [hlist]
      simp
    refine (start_settles hhost (mem_templates (hlisted hmem))).attemptThen fun z r hz => ?_
    refine ensures_pure.2 ⟨fun _ => ⟨List.Subset.trans hz.1 hsub, fun ps' hps' => ?_⟩, nofun⟩
    rcases List.mem_append.1 hps' with hdone | hlast
    · exact fun hmem => hsettled ps' hdone (hz.1 hmem)
    · rw [List.mem_singleton.1 hlast]
      exact hz.2
  · rintro y ⟨hsub, hsettled⟩
    refine ⟨List.eq_nil_iff_forall_not_mem.2 fun n hn => ?_, rfl⟩
    obtain ⟨ps, hps, rfl⟩ := List.mem_map.1 (hsub hn)
    exact hsettled ps hps hn

theorem pairs_owe {pods : List String} (hx : x ⊆ n :: pods) (hn : n ∉ x) : x ⊆ pods := by
  intro m hm
  rcases List.mem_cons.1 (hx hm) with rfl | hmem
  · exact (hn hm).elim
  · exact hmem

theorem migrateFinish_settles (hhost : (s.host req.fromHost).isSome = true)
    {out : List PairedInstanceRef × Except Error Unit} (hlisted : out.1 ⊆ req.alsoStop)
    (hx : x ⊆ req.pod :: out.1.map (·.pod)) :
    Ends (accounting req) (fun y _ => y = []) (s.migrateFinish req out).run x := by
  have htmpl : req.template ∈ req.templates := List.mem_cons_self
  obtain ⟨stopped, r⟩ := out
  cases r with
  | ok _ =>
    show Ensures _ _ _ (s.migrateCommit req stopped).run x
    refine ensures_run_bind.2 ?_
    rw [ensures_mapErr]
    refine (delete_settles hhost htmpl).imp fun y r hy => ?_
    obtain ⟨rfl, hsub, hout⟩ := hy
    refine ⟨fun _ _ => ?_, nofun⟩
    exact (startPaired_settles hhost hlisted (pairs_owe (List.Subset.trans hsub hx) hout)).imp
      fun z r hz => hz.1
  | error e =>
    show Ensures _ _ _ (s.migrateRollback req stopped >>= fun _ => throw e : Task Unit).run x
    have hroll : Ends (accounting req) (fun y r => y = [] ∧ r = .ok ())
        (s.migrateRollback req stopped).run x := by
      refine (start_settles hhost htmpl).attemptThen fun y r hy => ?_
      refine (unstopping_ensures ((delete_issues _).mono fun op h => h.unstopping)
        (List.Subset.refl y)).attemptThen fun z r hz => ?_
      refine startPaired_settles hhost hlisted (pairs_owe ?_ fun hmem => hy.2 (hz hmem))
      exact List.Subset.trans (List.Subset.trans hz hy.1) hx
    exact hroll.andThen (fun _ _ h => nomatch h.2) fun y _ hy => ensures_throw.2 hy.1

end Move

/-! ## A move whose destination fails, and one whose source does -/

/-- A host whose pods run, without the moved instance on `engine-2`; `refused` is the one pod that
cannot be stopped. -/
def stubbornHost (refused : String) : Handler calls Unit
  | _, .getSpec _ _ _ => (.ok exampleRow, ())
  | _, .getTemplate _ => (.ok exampleTemplate, ())
  | _, .podInspect host _ =>
    (if host = "engine-2" then .error (.sentinel .podmanNotFound) else .ok ⟨"Running", []⟩, ())
  | _, .podStop _ n => (if n = refused then .error (.text "device or resource busy") else .ok (), ())
  | _, op => (op.plain, ())

def pairedMove : MigrateRequest :=
  ⟨"engine-1", "engine-2", "web", "shop", [], [⟨"web", "cache"⟩, ⟨"web", "queue"⟩]⟩

@[irreducible]
def stubbornRun (refused : String) : Except Error Unit × History × Unit :=
  (exampleService.migrate pairedMove).run.eval (stubbornHost refused) ()

theorem stubbornRun_returns (refused : String) :
    Returns (exampleService.migrate pairedMove).run (stubbornRun refused).2.1 (stubbornRun refused).1 := by
  exact (exec_of_eval (stubbornRun.eq_def ..)).returns

end PodmanApi.Instance
