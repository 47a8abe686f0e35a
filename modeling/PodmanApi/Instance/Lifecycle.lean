/-
# PodmanApi.Instance.Lifecycle — starting, stopping, waiting for, reading and deleting an instance.

The primitives of `internal/instance/service.go` and `ready.go` that the long operations are built from, and
their footprints, the calls each of them can issue. `waitReady` polls until the clock passes its deadline; the
loop is unrolled to a number of polls that the service carries, and results hold for every such number.
-/
import PodmanApi.Instance.Apply

namespace PodmanApi.Instance

open GoStd Calls

/-! ## Readiness -/

def podReady (u : Unicode) (p : Pod) : Bool :=
  u.equalFold p.status "running" && p.containers.all fun c =>
    u.equalFold c.status "running" && (c.health == "" || u.equalFold c.health "healthy")

def anyStarting (u : Unicode) (p : Pod) : Bool :=
  p.containers.any fun c => u.equalFold c.health "starting"

/-- `startupDeadline`; the zero time when no container declares a healthcheck. -/
def startupDeadline (now : Time) (p : Pod) : Time :=
  p.containers.foldl (fun latest c =>
    if c.healthStartPeriod ≤ 0 then latest
    else
      let started := if c.startedAt.isZero then now else c.startedAt
      let finish := started.ns + c.healthStartPeriod + c.healthInterval
      if latest.ns < finish then ⟨finish⟩ else latest) ⟨0⟩

structure ReadyOpts where
  timeout : Duration
  stableCount : Nat
  grantStartPeriod : Bool
  deriving DecidableEq, Repr

/-- The local variables of `waitReady`. -/
structure Wait where
  deadline : Time
  extended : Bool
  starting : Bool
  stable : Nat
  deriving DecidableEq, Repr

/-- The error of a wait whose deadline has passed. -/
def Wait.timeout (w : Wait) : Error :=
  if w.starting then .wrap2 "" (.sentinel .readyTimeout) ": " (.sentinel .stillStarting)
  else .sentinel .readyTimeout

/-- A poll that found the pod not ready: progress is lost, and the first such poll may extend the
deadline. -/
def resetWait (u : Unicode) (o : ReadyOpts) (w : Wait) (p : Pod) : Task Wait :=
  if o.grantStartPeriod && !w.extended then do
    let now ← ask .now
    let granted := startupDeadline now p
    pure ⟨if w.deadline.ns < granted.ns then granted else w.deadline, true, anyStarting u p, 0⟩
  else pure { w with starting := anyStarting u p, stable := 0 }

/-- One poll; `none` says that the pod has been ready often enough. -/
def pollReady (u : Unicode) (host name : String) (o : ReadyOpts) (w : Wait) : Task (Option Wait) := do
  match ← ask (.podInspect host name) with
  | .ok p =>
    if podReady u p then
      pure (if o.stableCount ≤ w.stable + 1 then none else some { w with stable := w.stable + 1 })
    else do
      let w ← resetWait u o w p
      pure (some w)
  | .error _ => pure (some w)

/-- The loop of `waitReady`. -/
def waitLoop (u : Unicode) (host name : String) (o : ReadyOpts) : Nat → Wait → Task Unit
  | 0, w => throw w.timeout
  | n + 1, w => do
    match ← pollReady u host name o w with
    | none => pure ()
    | some w =>
      let now ← ask .now
      if w.deadline.ns < now.ns then throw w.timeout
      else do
        Act.lift (issue .tick)
        waitLoop u host name o n w

namespace Service

variable (s : Service)

def waitReady (host tmpl slug : String) (o : ReadyOpts) : Task Unit :=
  if o.timeout = 0 then pure ()
  else do
    let now ← ask .now
    waitLoop s.unicode host (podName tmpl slug) o (s.polls + 1) ⟨⟨now.ns + o.timeout⟩, false, false, 0⟩

def waitRunning (host tmpl slug : String) : Task Unit :=
  Act.mapErr (fun e =>
      if e.is .readyTimeout then
        if e.is .stillStarting then
          .text ("pod " ++ podName tmpl slug ++ " still inside its healthcheck start period after " ++
            showDuration s.verifyTimeout ++
            " — it has not failed, but did not report healthy in time")
        else .text ("pod " ++ podName tmpl slug ++ " not running within " ++
          showDuration s.verifyTimeout)
      else e)
    (s.waitReady host tmpl slug ⟨s.verifyTimeout, s.verifyStableCount, true⟩)

end Service

/-! ## Reading an instance -/

/-- `Observed`, as far as an operation reads it. -/
structure Observed where
  status : String
  images : List String
  volumes : List HostVolume
  deriving DecidableEq, Repr

/-- One round of the volume listing of `Get`, which skips what it cannot inspect. -/
def observeVolume (host tmpl slug : String) (out : List HostVolume) (v : Volume) : Task (List HostVolume) := do
  match ← ask (.volumeInspect host (volumeName tmpl slug v.name)) with
  | .ok vv => pure (out ++ [vv])
  | .error _ => pure out

/-- One round of `InstanceVolumes`: a volume that does not exist is skipped, a failed inspect is not. -/
def listVolume (host tmpl slug : String) (out : List HostVolume) (v : Volume) : Task (List HostVolume) := do
  let name := volumeName tmpl slug v.name
  match ← ask (.volumeInspect host name) with
  | .ok vv => pure (out ++ [vv])
  | .error e =>
    if e.is .podmanNotFound then pure out
    else throw (.wrap ("inspect volume " ++ quote name ++ ": ") e "")

namespace Service

variable (s : Service) (host tmpl slug : String)

/-- `Get`. The stored spec feeds the redaction of fields that no operation reads. -/
def get : Task Observed := do
  let t ← s.lookup host tmpl
  match ← ask (.podInspect host (podName tmpl slug)) with
  | .error e => throw (if e.is .podmanNotFound then .sentinel .instanceNotFound else e)
  | .ok p =>
    let vols ← t.metadata.volumes.foldlM (observeVolume host tmpl slug) []
    let _ ← ask (.getSpec host tmpl slug)
    pure ⟨p.status, p.containers.map (·.image), vols⟩

def instanceVolumes : Task (List HostVolume) := do
  let t ← s.lookup host tmpl
  t.metadata.volumes.foldlM (listVolume host tmpl slug) []

/-! ## Starting and stopping -/

def lifecycle (op : String → String → Prog calls (Except Error Unit)) : Task Unit := do
  let _ ← s.lookup host tmpl
  withLock (instanceLock host tmpl slug)
    (Act.mapErr (fun e => if e.is .podmanNotFound then .sentinel .instanceNotFound else e)
      (Act.lift (op host (podName tmpl slug))))

def start : Task Observed := do
  s.lifecycle host tmpl slug fun h n => issue (.podStart h n)
  let _ ← Act.attempt (s.waitReady host tmpl slug
    ⟨s.deployVerifyTimeout, s.deployVerifyStableCount, false⟩)
  s.get host tmpl slug

def stop : Task Unit :=
  s.lifecycle host tmpl slug fun h n => issue (.podStop h n)

/-! ## Copying volumes -/

def volumeManifest (host name : String) : Task Manifest := do
  let content ← Act.lift (issue (.volumeExport host name))
  Act.lift (pure (s.codec.buildManifest content))

/-- The stream from one volume into another; the manifest is built from what was exported. -/
def copyStream (fromHost toHost fromName toName label : String) : Task Manifest := do
  let content ← Act.mapErr
    (fun e => .wrap ("export volume " ++ quote fromName ++ " from " ++ fromHost ++ ": ") e "")
    (Act.lift (issue (.volumeExport fromHost fromName)))
  Act.mapErr (fun e => .wrap ("import volume " ++ quote toName ++ " to " ++ toHost ++ ": ") e "")
    (Act.lift (issue (.volumeImport toHost toName content)))
  Act.mapErr (fun e => .wrap ("copy volume " ++ label ++ ": build manifest: ") e "")
    (Act.lift (pure (s.codec.buildManifest content)))

def copyVolume (fromHost toHost name : String) : Task Manifest :=
  s.copyStream fromHost toHost name name (quote name)

def copyVolumeAs (fromHost toHost fromName toName : String) : Task Manifest :=
  s.copyStream fromHost toHost fromName toName (quote fromName ++ " -> " ++ quote toName)

end Service

/-! ## Deleting -/

structure DeleteOptions where
  pruneVolumes : Bool := false
  pruneSecrets : Bool := false
  deriving DecidableEq, Repr

/-- Remove one secret and the volume podman wraps it in; neither failure is reported. -/
def pruneSecret (host full : String) : Task PUnit := do
  let _ ← ask (.secretRemove host full)
  let _ ← ask (.volumeRemove host full true)
  pure ⟨⟩

def pruneVolume (host full : String) : Task PUnit := do
  let _ ← ask (.volumeRemove host full true)
  pure ⟨⟩

/-- `pruneInstanceResources`. Without the template only the injector's secrets are known. -/
def pruneInstanceResources (host tmpl slug : String) (secrets volumes : Bool)
    (injectorSecrets : List InjectorSecret) : Task Unit := do
  let found ← ask (.getTemplate tmpl)
  let declared : List String × List String := match found with
    | .ok t => (t.metadata.perInstance, t.metadata.volumes.map (·.name))
    | .error _ => ([], [])
  forM (if secrets then declared.1 ++ injectorSecrets.map (·.name) else [])
    fun name => pruneSecret host (instanceSecretName tmpl slug name)
  forM (if volumes then declared.2 else []) fun short => pruneVolume host (volumeName tmpl slug short)

def removePod (host tmpl slug : String) : Task Bool := do
  match ← ask (.podRemove host (podName tmpl slug) true) with
  | .ok _ => pure true
  | .error e => if e.is .podmanNotFound then pure false else throw e

def forgetSpec (host tmpl slug : String) : Task Unit := do
  match ← ask (.deleteSpec host tmpl slug) with
  | .ok _ => pure ()
  | .error e => if e.is .storeNotFound then pure () else throw (.wrap "delete spec: " e "")

/-- The injector secrets of a row, as far as it can be read. -/
def storedInjectorSecrets (host tmpl slug : String) : Task (List InjectorSecret) := do
  match ← ask (.getSpec host tmpl slug) with
  | .ok sp => pure sp.injectorSecrets
  | .error _ => pure []

namespace Service

variable (s : Service)

/-- `Delete`, under the instance lock. -/
def deleteLocked (host tmpl slug : String) (opts : DeleteOptions) : Task Unit := do
  let podExisted ← removePod host tmpl slug
  let injectorSecrets ← storedInjectorSecrets host tmpl slug
  pruneInstanceResources host tmpl slug opts.pruneSecrets opts.pruneVolumes injectorSecrets
  forgetSpec host tmpl slug
  s.refreshIngress host
  Act.require (podExisted || opts.pruneSecrets || opts.pruneVolumes) (.sentinel .instanceNotFound)

def delete (host tmpl slug : String) (opts : DeleteOptions) : Task Unit := do
  let _ ← s.lookup host tmpl
  withLock (instanceLock host tmpl slug) (s.deleteLocked host tmpl slug opts)

end Service

/-! ## Footprints -/

inductive Waiting (host name : String) : Op → Prop where
  | now : Waiting host name .now
  | tick : Waiting host name .tick
  | podInspect : Waiting host name (.podInspect host name)

inductive Reading (host tmpl slug : String) : Op → Prop where
  | getTemplate : Reading host tmpl slug (.getTemplate tmpl)
  | podInspect : Reading host tmpl slug (.podInspect host (podName tmpl slug))
  | volumeInspect (name : String) : Reading host tmpl slug (.volumeInspect host name)
  | getSpec : Reading host tmpl slug (.getSpec host tmpl slug)

inductive Starting (host tmpl slug : String) : Op → Prop where
  | waiting {op : Op} (h : Waiting host (podName tmpl slug) op) : Starting host tmpl slug op
  | reading {op : Op} (h : Reading host tmpl slug op) : Starting host tmpl slug op
  | lock : Starting host tmpl slug (.lock (instanceLock host tmpl slug))
  | podStart : Starting host tmpl slug (.podStart host (podName tmpl slug))
  | unlock : Starting host tmpl slug (.unlock (instanceLock host tmpl slug))

inductive Stopping (host tmpl slug : String) : Op → Prop where
  | getTemplate : Stopping host tmpl slug (.getTemplate tmpl)
  | lock : Stopping host tmpl slug (.lock (instanceLock host tmpl slug))
  | podStop : Stopping host tmpl slug (.podStop host (podName tmpl slug))
  | unlock : Stopping host tmpl slug (.unlock (instanceLock host tmpl slug))

inductive Pruning (host tmpl : String) : Op → Prop where
  | getTemplate : Pruning host tmpl (.getTemplate tmpl)
  | secretRemove (name : String) : Pruning host tmpl (.secretRemove host name)
  | volumeRemove (name : String) : Pruning host tmpl (.volumeRemove host name true)

inductive Deleting (host tmpl slug : String) : Op → Prop where
  | pruning {op : Op} (h : Pruning host tmpl op) : Deleting host tmpl slug op
  | lock : Deleting host tmpl slug (.lock (instanceLock host tmpl slug))
  | podRemove : Deleting host tmpl slug (.podRemove host (podName tmpl slug) true)
  | getSpec : Deleting host tmpl slug (.getSpec host tmpl slug)
  | deleteSpec : Deleting host tmpl slug (.deleteSpec host tmpl slug)
  | reconcile : Deleting host tmpl slug (.reconcile host)
  | unlock : Deleting host tmpl slug (.unlock (instanceLock host tmpl slug))

section Footprints

variable {s : Service} {host tmpl slug name : String} {U : Op → Prop}

theorem pollReady_issues (u : Unicode) (o : ReadyOpts) (w : Wait) :
    (pollReady u host name o w).run.Issues (Waiting host name) := by
  refine (issues_ask .podInspect).andThen fun r => ?_
  cases r with
  | error e => exact issues_pure
  | ok p =>
    dsimp only
    split
    · exact issues_pure
    refine .andThen ?_ fun w => issues_pure
    unfold resetWait
    split
    · exact (issues_ask .now).andThen fun _ => issues_pure
    · exact issues_pure

theorem waitLoop_issues (u : Unicode) (o : ReadyOpts) (n : Nat) (w : Wait) :
    (waitLoop u host name o n w).run.Issues (Waiting host name) := by
  induction n generalizing w with
  | zero => exact issues_throw
  | succ n ih =>
    refine (pollReady_issues u o w).andThen fun next => ?_
    cases next with
    | none => exact issues_pure
    | some w =>
      refine (issues_ask .now).andThen fun now => ?_
      split
      · exact issues_throw
      · exact .andThen (issues_perform.2 .tick) fun _ => ih w

theorem waitReady_issues (o : ReadyOpts) :
    (s.waitReady host tmpl slug o).run.Issues (Waiting host (podName tmpl slug)) := by
  unfold Service.waitReady
  split
  · exact issues_pure
  · exact (issues_ask .now).andThen fun _ => waitLoop_issues _ _ _ _

theorem waitRunning_issues : (s.waitRunning host tmpl slug).run.Issues (Waiting host (podName tmpl slug)) :=
  (waitReady_issues _).mapErr

theorem get_issues : (s.get host tmpl slug).run.Issues (Reading host tmpl slug) := by
  refine (issues_lookup .getTemplate).andThen fun t => ?_
  refine (issues_ask .podInspect).andThen fun r => ?_
  cases r with
  | error e => exact issues_throw
  | ok p =>
    refine (issues_foldlM _ (fun out v _ => ?_) _).andThen fun vols => ?_
    · refine (issues_ask (.volumeInspect _)).andThen fun r => ?_
      cases r with
      | ok | error => exact issues_pure
    · exact (issues_ask .getSpec).andThen fun _ => issues_pure

theorem instanceVolumes_issues : (s.instanceVolumes host tmpl slug).run.Issues (Reading host tmpl slug) := by
  refine (issues_lookup .getTemplate).andThen fun t => issues_foldlM _ (fun out v _ => ?_) _
  exact (issues_ask (.volumeInspect _)).cases (fun _ => issues_pure) fun _ => issues_pure_or_throw

theorem lifecycle_issues {op : String → String → Prog calls (Except Error Unit)}
    (ht : U (.getTemplate tmpl)) (hl : U (.lock (instanceLock host tmpl slug)))
    (hop : (op host (podName tmpl slug)).Issues U) (hu : U (.unlock (instanceLock host tmpl slug))) :
    (s.lifecycle host tmpl slug op).run.Issues U := by
  exact (issues_lookup ht).andThen fun _ => issues_withLock hl hu (.mapErr hop)

theorem start_issues : (s.start host tmpl slug).run.Issues (Starting host tmpl slug) := by
  refine (lifecycle_issues (.reading .getTemplate) .lock (issues_perform.2 .podStart)
    .unlock).andThen fun _ => ?_
  refine .andThen ?_ fun _ => get_issues.mono fun op h => .reading h
  exact ((waitReady_issues _).mono fun op h => .waiting h).attempt

theorem stop_issues : (s.stop host tmpl slug).run.Issues (Stopping host tmpl slug) :=
  lifecycle_issues .getTemplate .lock (issues_perform.2 .podStop) .unlock

theorem volumeManifest_issues (h : U (.volumeExport host name)) : (s.volumeManifest host name).run.Issues U := by
  exact .andThen (issues_perform.2 h) fun _ => issues_lift_pure

theorem copyStream_issues {toHost toName label : String} (he : U (.volumeExport host name))
    (hi : ∀ content, U (.volumeImport toHost toName content)) :
    (s.copyStream host toHost name toName label).run.Issues U := by
  refine .andThen (.mapErr (issues_perform.2 he)) fun content => ?_
  refine .andThen (.mapErr (issues_perform.2 (hi content))) fun _ => ?_
  exact issues_lift_pure.mapErr

theorem pruneLoops_issues {names shorts : List String}
    (hnames : ∀ n ∈ names, U (.secretRemove host (instanceSecretName tmpl slug n)) ∧
      U (.volumeRemove host (instanceSecretName tmpl slug n) true))
    (hshorts : ∀ v ∈ shorts, U (.volumeRemove host (volumeName tmpl slug v) true)) : (do
      forM names fun name => pruneSecret host (instanceSecretName tmpl slug name)
      forM shorts fun short => pruneVolume host (volumeName tmpl slug short) : Task PUnit).run.Issues U := by
  refine (issues_forM names fun n hn => ?_).andThen fun _ => issues_forM shorts fun v hv => ?_
  · refine (issues_ask (hnames n hn).1).andThen fun _ => ?_
    exact (issues_ask (hnames n hn).2).andThen fun _ => issues_pure
  · exact (issues_ask (hshorts v hv)).andThen fun _ => issues_pure

theorem pruneInstanceResources_issues (secrets volumes : Bool) (inj : List InjectorSecret) :
    (pruneInstanceResources host tmpl slug secrets volumes inj).run.Issues (Pruning host tmpl) := by
  refine (issues_ask .getTemplate).andThen fun found => ?_
  exact pruneLoops_issues (fun n _ => ⟨.secretRemove _, .volumeRemove _⟩) fun v _ => .volumeRemove _

theorem removePod_issues (h : U (.podRemove host (podName tmpl slug) true)) :
    (removePod host tmpl slug).run.Issues U :=
  (issues_ask h).cases (fun _ => issues_pure) fun _ => issues_pure_or_throw

theorem storedInjectorSecrets_issues (h : U (.getSpec host tmpl slug)) :
    (storedInjectorSecrets host tmpl slug).run.Issues U :=
  (issues_ask h).cases (fun _ => issues_pure) fun _ => issues_pure

theorem forgetSpec_issues (h : U (.deleteSpec host tmpl slug)) : (forgetSpec host tmpl slug).run.Issues U :=
  (issues_ask h).cases (fun _ => issues_pure) fun _ => issues_pure_or_throw

section Removals

variable {opts : DeleteOptions} (hget : U (.getTemplate tmpl)) (hlock : U (.lock (instanceLock host tmpl slug)))
  (hpod : U (.podRemove host (podName tmpl slug) true)) (hread : U (.getSpec host tmpl slug))
  (hforget : U (.deleteSpec host tmpl slug)) (hingress : U (.reconcile host))
  (hunlock : U (.unlock (instanceLock host tmpl slug)))

section

include hget hlock hpod hread hforget hingress hunlock

theorem delete_issues_prune (hprune : ∀ inj,
      (pruneInstanceResources host tmpl slug opts.pruneSecrets opts.pruneVolumes inj).run.Issues U) :
    (s.delete host tmpl slug opts).run.Issues U := by
  refine (issues_lookup hget).andThen fun _ => issues_withLock hlock hunlock ?_
  refine (removePod_issues hpod).andThen fun existed => ?_
  refine (storedInjectorSecrets_issues hread).andThen fun inj => ?_
  refine (hprune inj).andThen fun _ => ?_
  refine (forgetSpec_issues hforget).andThen fun _ => ?_
  exact (refreshIngress_issues hingress).andThen fun _ => issues_require

theorem delete_issues_keeping : (s.delete host tmpl slug {}).run.Issues U := by
  refine delete_issues_prune hget hlock hpod hread hforget hingress hunlock fun inj => ?_
  refine (issues_ask hget).andThen fun found => ?_
  exact issues_pure.andThen fun _ => issues_pure

end

theorem delete_issues (opts : DeleteOptions) :
    (s.delete host tmpl slug opts).run.Issues (Deleting host tmpl slug) :=
  delete_issues_prune (.pruning .getTemplate) .lock .podRemove .getSpec .deleteSpec .reconcile .unlock fun inj =>
    (pruneInstanceResources_issues _ _ inj).mono fun _ h => .pruning h

variable {σ : Type} {S : Calls.Service calls σ} {x : σ} {N V : String → Prop}
  (htmpl : ∀ x t y, S x (.getTemplate tmpl) (.ok t) y →
    (∀ v ∈ t.metadata.volumes, V v.name) ∧ ∀ n ∈ t.metadata.perInstance, N n)
  (hrow : ∀ x row y, S x (.getSpec host tmpl slug) (.ok row) y → ∀ i ∈ row.injectorSecrets, N i.name)
  (hsecret : opts.pruneSecrets = true → ∀ n, N n → U (.secretRemove host (instanceSecretName tmpl slug n)) ∧
    U (.volumeRemove host (instanceSecretName tmpl slug n) true))
  (hvolume : opts.pruneVolumes = true → ∀ v, V v → U (.volumeRemove host (volumeName tmpl slug v) true))

include hget htmpl hsecret hvolume

theorem pruneInstanceResources_draws {inj : List InjectorSecret} (hinj : ∀ i ∈ inj, N i.name) :
    Ensures S (fun _ op => U op) (OnOk fun _ _ => True)
      (pruneInstanceResources host tmpl slug opts.pruneSecrets opts.pruneVolumes inj).run x := by
  have hinjected : ∀ n ∈ inj.map (·.name), N n := by simpa using hinj
  have hloops : ∀ {names shorts : List String} {y : σ}, (∀ n ∈ names, N n) → (∀ v ∈ shorts, V v) →
      Ensures S (fun _ op => U op) (OnOk fun _ _ => True) (do
        forM (if opts.pruneSecrets then names else []) fun name =>
          pruneSecret host (instanceSecretName tmpl slug name)
        forM (if opts.pruneVolumes then shorts else []) fun short =>
          pruneVolume host (volumeName tmpl slug short) : Task PUnit).run y := by
    intro names shorts y hnames hshorts
    refine Prog.Issues.ensures_onOk (pruneLoops_issues (fun n hn => ?_) fun v hv => ?_) fun _ _ h => h
    · obtain ⟨hon, hn⟩ := List.mem_ite_nil_right.1 hn
      exact hsecret hon n (hnames n hn)
    · obtain ⟨hon, hv⟩ := List.mem_ite_nil_right.1 hv
      exact hvolume hon v (hshorts v hv)
  refine ensures_ask_bind hget fun r y hr => ?_
  cases r with
  | error e => exact hloops (by simpa using hinjected) nofun
  | ok t =>
    obtain ⟨hvols, hsecs⟩ := htmpl _ t y hr
    refine hloops (fun n hn => ?_) (by simpa using hvols)
    exact (List.mem_append.1 hn).elim (hsecs n) (hinjected n)

include hlock hpod hread hforget hingress hunlock hrow

theorem delete_draws :
    Ensures S (fun _ op => U op) (OnOk fun _ _ => True) (s.delete host tmpl slug opts).run x := by
  have hissues : ∀ {α : Type} {a : Task α} {y : σ}, a.run.Issues U →
      Ensures S (fun _ op => U op) (OnOk fun _ _ => True) a.run y :=
    fun ha => ha.ensures_onOk fun _ _ h => h
  have hstored : ∀ y, Ensures S (fun _ op => U op) (OnOk fun _ inj => ∀ i ∈ inj, N i.name)
      (storedInjectorSecrets host tmpl slug).run y := by
    intro y
    refine ensures_ask_bind hread fun r z hr => ?_
    cases r with
    | ok row => exact ensures_pure_onOk (hrow _ row z hr)
    | error e => exact ensures_pure_onOk nofun
  refine (hissues (issues_lookup hget)).thenOk fun y _ _ => ?_
  refine Ensures.imp (ensures_lock (Q := fun _ _ => True) hlock fun z _ => ?_) fun _ _ _ _ _ => trivial
  refine Ensures.imp (Q := OnOk fun _ _ => True) ?_ fun _ _ _ => ⟨hunlock, fun _ _ => trivial⟩
  refine (hissues (removePod_issues hpod)).thenOk fun _ existed _ => (hstored _).thenOk fun _ inj hinj => ?_
  refine (pruneInstanceResources_draws hget htmpl hsecret hvolume hinj).thenOk fun _ _ _ => hissues ?_
  exact (forgetSpec_issues hforget).andThen fun _ => (refreshIngress_issues hingress).andThen fun _ =>
    issues_require

end Removals

end Footprints

end PodmanApi.Instance
