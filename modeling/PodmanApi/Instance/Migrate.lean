/-
# PodmanApi.Instance.Migrate — moving an instance to another host, and finishing an interrupted move.

`Migrate` of `internal/instance/migrate.go` stops the source, copies its volumes, applies the spec on the
destination, waits for its pod, and then deletes the source; failures before that are compensated.
`ReconcileMigrate` of `reconcile.go` decides from what it finds on both hosts whether an interrupted move goes
forward or back: a ready destination pod with a stored row counts as committed.

The source returns early from many places; the recovery pass is an `Act` whose error is a verdict.
-/
import PodmanApi.Instance.Lifecycle

namespace PodmanApi.Instance

open GoStd Calls

/-! ## Requests -/

structure PairedInstanceRef where
  template : String
  slug : String
  deriving DecidableEq, Repr

structure MigrateRequest where
  fromHost : String
  toHost : String
  template : String
  slug : String
  parameters : GoMap Value
  alsoStop : List PairedInstanceRef
  deriving DecidableEq, Repr

def MigrateRequest.pod (req : MigrateRequest) : String :=
  podName req.template req.slug

def mergeParams (base override : GoMap Value) : GoMap Value :=
  override.foldl (fun out p => GoMap.set out p.1 p.2) base

/-- The parameters of the moved instance: the row's, those of the request over them, and the slug
over both. -/
def MigrateRequest.effective (req : MigrateRequest) (spec : Spec) : GoMap Value :=
  GoMap.set (mergeParams spec.parameters req.parameters) "slug" (.string req.slug)

/-! ## Preflight -/

/-- What `preflightIssues` returns: the problems found, and the host secrets the source can provide. -/
structure Preflight where
  issues : List Error
  provisionable : List String
  deriving DecidableEq, Repr

def Preflight.add (acc : Preflight) (e : Error) : Preflight :=
  { acc with issues := acc.issues ++ [e] }

/-- A stretch of `preflightIssues`; an early return is its error. -/
abbrev Scan (α : Type) : Type := Act calls Preflight α

def preflightPod (req : MigrateRequest) (acc : Preflight) : Scan Preflight := do
  match ← Act.ask (Γ := calls) (.podInspect req.toHost (podName req.template req.slug)) with
  | .ok _ => pure (acc.add (.sentinel .instanceExists))
  | .error e =>
    if e.is .podmanNotFound then pure acc else throw (acc.add (.wrap "inspect dest pod: " e ""))

/-- `hostSecretProvisionable`, for a secret the destination does not have. -/
def preflightProvision (req : MigrateRequest) (acc : Preflight) (name : String) : Scan Preflight := do
  match ← Act.ask (Γ := calls) (.getHostSecret req.fromHost name) with
  | .ok _ => pure { acc with provisionable := acc.provisionable ++ [name] }
  | .error e =>
    pure (acc.add (if e.is .storeNotFound then .wrap "" (.sentinel .hostSecretMissing) (": " ++ name)
      else .wrap ("lookup persisted host secret " ++ quote name ++ ": ") e ""))

def preflightSecret (req : MigrateRequest) (acc : Preflight) (name : String) : Scan Preflight := do
  match ← Act.ask (Γ := calls) (.secretInspect req.toHost name) with
  | .ok _ => pure acc
  | .error e =>
    if e.is .podmanNotFound then preflightProvision req acc name
    else throw (acc.add (.wrap ("inspect host secret " ++ quote name ++ ": ") e ""))

def preflightImage (req : MigrateRequest) (acc : Preflight) (img : String) : Scan Preflight := do
  match ← Act.ask (Γ := calls) (.imagePull req.toHost img) with
  | .ok _ => pure acc
  | .error e =>
    pure (acc.add (.wrap "" (.sentinel .imagePull) (": " ++ img ++ ": " ++ Error.string e)))

namespace Service

variable (s : Service) (req : MigrateRequest)

def preflightPorts (want : List Int) (acc : Preflight) : Scan Preflight :=
  if want.isEmpty then pure acc
  else do
    Act.require (s.host req.toHost).isSome
      (acc.add (.wrap "ports in use: " (.sentinel .unknownHost) ""))
    match ← Act.ask (Γ := calls) (.usedHostPorts req.toHost) with
    | .error e => throw (acc.add (.wrap "ports in use: " e ""))
    | .ok used =>
      let busy := used.map (·.hostPort)
      pure ((want.filter busy.contains).foldl
        (fun acc p => acc.add (.wrap "" (.sentinel .portConflict) (": " ++ toString p))) acc)

/-- The checks of `preflightIssues` on the rendered manifest. -/
def preflightRendered (acc : Preflight) (pullImages : Bool) : Except Error String → Scan Preflight
  | .error e => throw (acc.add (.wrap "render: " e ""))
  | .ok rendered => do
    let acc ← s.preflightPorts req (s.hostPorts rendered) acc
    (if pullImages then Render.containerImages s.engine rendered else []).foldlM
      (preflightImage req) acc

def preflightIssues (tmpl : Template) (eff : GoMap Value) (pullImages : Bool) : Scan Preflight := do
  let drained : List Error :=
    if ((s.host req.toHost).map (·.drain)).getD false then [.sentinel .hostDraining] else []
  let acc ← preflightPod req ⟨drained, []⟩
  let acc ← tmpl.metadata.perHostReferenced.foldlM (preflightSecret req) acc
  s.preflightRendered req acc pullImages (s.engine.render tmpl.body eff)

def firstIssue : Except Preflight Preflight → Except Error Unit
  | .ok out | .error out =>
    match out.issues with
    | [] => .ok ()
    | e :: _ => .error e

def preflightDest (tmpl : Template) (eff : GoMap Value) : Task Unit :=
  Act.lift ((s.preflightIssues req tmpl eff true).run >>= fun out => pure (firstIssue out))

end Service

/-! ## The move -/

def recordHostSecret (toHost name value : String) : Task PUnit := do
  let _ ← ask (.putHostSecret toHost name value)
  pure ⟨⟩

/-- A secret whose creation failed may have been created by a concurrent move. -/
def provisionFailed (toHost name : String) (e : Error) : Task PUnit := do
  match ← ask (.secretInspect toHost name) with
  | .ok _ => pure ⟨⟩
  | .error _ => throw (.wrap ("provision host secret " ++ quote name ++ ": ") e "")

/-- The creation of a missing host secret from the source's stored value. -/
def provisionSecret (c : Codec) (toHost name value : String) : Task PUnit := do
  match ← ask (.secretCreate toHost name (wrapAsKubeSecret c name name value)) with
  | .ok _ => recordHostSecret toHost name value
  | .error e => provisionFailed toHost name e

def provisionMissing (c : Codec) (req : MigrateRequest) (name : String) : Task PUnit := do
  match ← ask (.getHostSecret req.fromHost name) with
  | .ok value => provisionSecret c req.toHost name value
  | .error e =>
    if e.is .storeNotFound then pure ⟨⟩
    else throw (.wrap ("load host secret " ++ quote name ++ ": ") e "")

/-- One round of the provisioning loop of `migratePostStop`. -/
def provisionHostSecret (c : Codec) (req : MigrateRequest) (name : String) : Task PUnit := do
  match ← ask (.secretInspect req.toHost name) with
  | .ok _ => pure ⟨⟩
  | .error e =>
    if e.is .podmanNotFound then provisionMissing c req name
    else throw (.wrap ("inspect dest host secret " ++ quote name ++ ": ") e "")

namespace Service

variable (s : Service) (req : MigrateRequest)

/-- One round of the loop over `AlsoStop`, with the instances stopped so far. -/
def stopPaired (fromHost : String) (stopped : List PairedInstanceRef) (ps : PairedInstanceRef) :
    Task (List PairedInstanceRef) := do
  match ← Act.attempt (s.stop fromHost ps.template ps.slug) with
  | .ok _ => pure (stopped ++ [ps])
  | .error e =>
    if e.is .instanceNotFound then pure stopped
    else throw (.wrap ("stop paired instance " ++ ps.template ++ "/" ++ ps.slug ++ ": ") e "")

def verifyCopied (toHost name : String) (src : Manifest) : Task Unit :=
  if s.verifyVolumes then do
    let dst ← Act.mapErr (fun e => .wrap ("verify volume " ++ quote name ++ ": re-export dest: ") e "")
      (s.volumeManifest toHost name)
    match Manifest.firstDiff src dst with
    | none => pure ()
    | some diff => throw (.wrap "" (.sentinel .volumeIntegrity)
        (": volume " ++ quote name ++ " differs at " ++ quote diff))
  else pure ()

/-- One round of the volume loop of `migratePostStop`. -/
def migrateVolume (fromHost toHost : String) (v : HostVolume) : Task PUnit := do
  Act.mapErr (fun e => .wrap ("create dest volume " ++ quote v.name ++ ": ") e "")
    (Act.lift (issue (.volumeCreate toHost v.name)))
  let src ← Act.mapErr (fun e => .wrap ("copy volume " ++ quote v.name ++ ": ") e "")
    (s.copyVolume fromHost toHost v.name)
  s.verifyCopied toHost v.name src

def migrateApply (spec : Spec) : ApplyRequest where
  template := req.template
  slug := req.slug
  parameters := req.effective spec
  secrets := spec.secrets
  domains := spec.domains
  networks := spec.appliedNetworks

/-- The first part of `migratePostStop`: host secrets, and the paired instances. -/
def migratePrepare (tmpl : Template) : Task (List PairedInstanceRef) := do
  forM tmpl.metadata.perHostReferenced (provisionHostSecret s.codec req)
  req.alsoStop.foldlM (s.stopPaired req.fromHost) []

/-- The copies of `migratePostStop`. -/
def migrateVolumes : Task Unit := do
  let vols ← Act.mapErr (fun e => .wrap "list source volumes: " e "")
    (s.instanceVolumes req.fromHost req.template req.slug)
  forM vols (s.migrateVolume req.fromHost req.toHost)

def migrateDeploy (spec : Spec) : Task Unit := do
  Act.mapErr (fun e => .wrap "apply on dest: " e "")
    (Act.lift (s.apply req.toHost (migrateApply req spec)
      { replace := false, allowMissingSecrets := true } >>= fun out => pure out.1))
  Act.mapErr (fun e => .wrap "verify dest: " e "") (s.waitRunning req.toHost req.template req.slug)

/-- `migratePostStop`: the paired instances it stopped, and its error. When a paired instance cannot
be stopped, the list is nil. -/
def migratePostStop (tmpl : Template) (spec : Spec) :
    Prog calls (List PairedInstanceRef × Except Error Unit) := do
  match ← (s.migratePrepare req tmpl).run with
  | .error e => pure ([], .error e)
  | .ok stopped =>
    let r ← (do s.migrateVolumes req; s.migrateDeploy req spec : Task Unit).run
    pure (stopped, r)

def startPaired (fromHost : String) (ps : PairedInstanceRef) : Task PUnit := do
  let _ ← Act.attempt (s.start fromHost ps.template ps.slug)
  pure ⟨⟩

def migrateRollback (stopped : List PairedInstanceRef) : Task Unit := do
  let _ ← Act.attempt (s.start req.fromHost req.template req.slug)
  let _ ← Act.attempt (s.delete req.toHost req.template req.slug
    { pruneVolumes := true, pruneSecrets := true })
  forM stopped (s.startPaired req.fromHost)

def migrateCommit (stopped : List PairedInstanceRef) : Task Unit := do
  Act.mapErr (fun e => .wrap "commit (delete source): " e "")
    (s.delete req.fromHost req.template req.slug { pruneVolumes := true, pruneSecrets := true })
  forM stopped (s.startPaired req.fromHost)

/-- What `Migrate` does with the outcome of `migratePostStop`. -/
def migrateFinish : List PairedInstanceRef × Except Error Unit → Task Unit
  | (stopped, .ok _) => s.migrateCommit req stopped
  | (stopped, .error e) => do
    s.migrateRollback req stopped
    throw e

/-- `Migrate`, under the migrate lock. -/
def migrateLocked : Task Unit := do
  Act.require (req.fromHost != req.toHost) (.sentinel .sameHost)
  Act.require (s.host req.fromHost).isSome (.sentinel .unknownHost)
  let tmpl ← s.lookup req.toHost req.template
  let spec ← Act.lift (issue (.getSpec req.fromHost req.template req.slug))
  s.preflightDest req tmpl (req.effective spec)
  Act.mapErr (fun e => .wrap "stop source: " e "") (s.stop req.fromHost req.template req.slug)
  let out ← Act.embed (s.migratePostStop req tmpl spec)
  s.migrateFinish req out

def migrate : Task Unit :=
  withLock (migrateLock req.template req.slug) (s.migrateLocked req)

end Service

/-! ## Recovery -/

inductive DestStatus where
  | healthy
  | unhealthy
  | absent
  | unreachable
  deriving DecidableEq, Repr

inductive SpecState where
  | inconclusive
  | persisted
  | absent
  | corrupt
  | needsKey
  deriving DecidableEq, Repr

/-- What a recovery pass reports; its error is always nil. -/
structure Verdict where
  resolved : Bool
  succeeded : Bool
  message : String
  deriving DecidableEq, Repr

def Verdict.inconclusive : Verdict := ⟨false, false, ""⟩

def Verdict.failed (message : String) : Verdict := ⟨true, false, message⟩

/-- A stretch of `ReconcileMigrate`; an early return is its error. -/
abbrev Pass (α : Type) : Type := Act calls Verdict α

/-- A step whose failure makes the pass inconclusive. -/
def orInconclusive {α : Type} (x : Task α) : Pass α :=
  Act.lift (x.run >>= fun r => pure (r.mapError fun _ => .inconclusive))

def bestEffort {α : Type} (x : Task α) : Pass Unit :=
  Act.embed (x.run >>= fun _ => pure ())

/-- `sourcePresent`: whether the pod is there, and whether the host answered. -/
def sourcePresent (host tmpl slug : String) : Prog calls (Bool × Bool) := do
  match ← issue (.podInspect host (podName tmpl slug)) with
  | .ok _ => pure (true, true)
  | .error e => pure (false, e.is .podmanNotFound)

def destSpecState (host tmpl slug : String) : Prog calls SpecState := do
  match ← issue (.getSpec host tmpl slug) with
  | .ok _ => pure .persisted
  | .error e =>
    pure (if e.is .storeNotFound then .absent
      else if e.is .secretsNeedKey || e.is .secretsUndecryptable then .needsKey
      else if e.is .specCorrupt then .corrupt
      else .inconclusive)

/-- The second inspect of `destState`, after a wait that failed. -/
def destRecheck (host tmpl slug : String) : Prog calls DestStatus := do
  match ← issue (.podInspect host (podName tmpl slug)) with
  | .ok _ => pure .unhealthy
  | .error e => pure (if e.is .podmanNotFound then .unhealthy else .unreachable)

/-- The existence of the template, `hasTemplate`, as the pass needs it. -/
def requireTemplate (tmpl : String) : Pass Unit := do
  match ← Act.ask (Γ := calls) (.getTemplate tmpl) with
  | .ok _ => pure ()
  | .error e =>
    throw (if e.is .storeNotFound
      then .failed ("template " ++ tmpl ++ " is no longer configured; manual cleanup required")
      else .inconclusive)

/-- The check for a cancellation before anything is changed. -/
def requireContext : Pass Unit := do
  match ← Act.ask (Γ := calls) .ctxErr with
  | .ok _ => pure ()
  | .error _ => throw .inconclusive

/-- Whether the state of the destination's row says that the move is committed. -/
def committed : SpecState → Pass Bool
  | .persisted => pure true
  | .absent => pure false
  | .corrupt => throw (.failed "destination spec corrupt (malformed); manual cleanup required")
  | .inconclusive | .needsKey => throw .inconclusive

namespace Service

variable (s : Service) (req : MigrateRequest)

/-- The wait of `destState`, for a pod that exists. -/
def destWait (host tmpl slug : String) : Prog calls DestStatus := do
  match ← (s.waitRunning host tmpl slug).run with
  | .ok _ => pure .healthy
  | .error _ => destRecheck host tmpl slug

def destState (host tmpl slug : String) : Prog calls DestStatus := do
  match ← issue (.podInspect host (podName tmpl slug)) with
  | .ok _ => s.destWait host tmpl slug
  | .error e => pure (if e.is .podmanNotFound then .absent else .unreachable)

/-- What a pass finds on the two hosts, before it changes anything. -/
def observeHosts : Pass (Bool × DestStatus) := do
  Act.require (s.host req.fromHost).isSome (.failed ("source host " ++ req.fromHost ++
    " is no longer configured; manual cleanup required"))
  Act.require (s.host req.toHost).isSome (.failed ("destination host " ++ req.toHost ++
    " is no longer configured; manual cleanup required"))
  requireTemplate req.template
  let (srcPresent, srcReachable) ← Act.embed (sourcePresent req.fromHost req.template req.slug)
  Act.require srcReachable .inconclusive
  let ds ← Act.embed (s.destState req.toHost req.template req.slug)
  Act.require (ds != .unreachable) .inconclusive
  requireContext
  pure (srcPresent, ds)

/-- Whether the destination is a committed replacement; only a healthy one is asked for its row. -/
def destCommitted (ds : DestStatus) : Pass Bool :=
  if ds == .healthy then do
    let spec ← Act.embed (destSpecState req.toHost req.template req.slug)
    committed spec
  else pure false

/-- The removal of a source whose pod is gone already. -/
def reapOrphan : Pass Unit := do
  let injectorSecrets ← orInconclusive (storedInjectorSecrets req.fromHost req.template req.slug)
  bestEffort (pruneInstanceResources req.fromHost req.template req.slug true true injectorSecrets)
  orInconclusive (forgetSpec req.fromHost req.template req.slug)
  bestEffort (s.refreshIngress req.fromHost)

def reapSource (srcPresent : Bool) : Pass Unit :=
  if srcPresent then
    orInconclusive (s.delete req.fromHost req.template req.slug
      { pruneVolumes := true, pruneSecrets := true })
  else s.reapOrphan req

def restorePaired (fromHost : String) (ps : PairedInstanceRef) : Pass PUnit := do
  match ← Act.embed (s.start fromHost ps.template ps.slug).run with
  | .ok _ => pure ⟨⟩
  | .error e => if e.is .instanceNotFound then pure ⟨⟩ else throw .inconclusive

def rollForward (srcPresent : Bool) : Pass Verdict := do
  orInconclusive (s.refreshIngress req.toHost)
  s.reapSource req srcPresent
  forM req.alsoStop (s.restorePaired req.fromHost)
  pure ⟨true, true, ""⟩

def rollBack : Pass Verdict := do
  let _ ← orInconclusive (s.start req.fromHost req.template req.slug)
  forM req.alsoStop (s.restorePaired req.fromHost)
  orInconclusive (s.delete req.toHost req.template req.slug
    { pruneVolumes := true, pruneSecrets := true })
  pure (.failed "rolled back: destination unverified, source restored")

/-- The verdict on a source that is gone and a destination that is not committed. -/
def orphaned (ds : DestStatus) : Verdict :=
  if ds == .absent then .failed "instance not found on either host"
  else .failed "destination left in place; source already removed — manual cleanup required"

def settle (srcPresent : Bool) (ds : DestStatus) (done : Bool) : Pass Verdict :=
  if done then s.rollForward req srcPresent
  else if srcPresent then s.rollBack req
  else pure (orphaned ds)

/-- `ReconcileMigrate`, under the migrate lock. -/
def reconcileMigrateLocked : Pass Verdict := do
  let (srcPresent, ds) ← s.observeHosts req
  let done ← destCommitted req ds
  s.settle req srcPresent ds done

/-- The verdict of a pass, returned early or at its end. -/
def Verdict.merge : Except Verdict Verdict → Verdict
  | .ok v | .error v => v

def reconcileMigrate : Prog calls Verdict :=
  locked (migrateLock req.template req.slug)
    ((s.reconcileMigrateLocked req).run >>= fun r => pure (Verdict.merge r))

end Service

/-! ## Footprints -/

inductive Preflighting (req : MigrateRequest) : Op → Prop where
  | podInspect (name : String) : Preflighting req (.podInspect req.toHost name)
  | secretInspect (name : String) : Preflighting req (.secretInspect req.toHost name)
  | getHostSecret (name : String) : Preflighting req (.getHostSecret req.fromHost name)
  | usedHostPorts : Preflighting req (.usedHostPorts req.toHost)
  | imagePull (ref : String) : Preflighting req (.imagePull req.toHost ref)

inductive Provisioning (req : MigrateRequest) : Op → Prop where
  | secretInspect (name : String) : Provisioning req (.secretInspect req.toHost name)
  | getHostSecret (name : String) : Provisioning req (.getHostSecret req.fromHost name)
  | secretCreate (name value : String) : Provisioning req (.secretCreate req.toHost name value)
  | putHostSecret (name value : String) : Provisioning req (.putHostSecret req.toHost name value)

inductive Copying (fromHost toHost : String) : Op → Prop where
  | volumeCreate (name : String) : Copying fromHost toHost (.volumeCreate toHost name)
  | volumeExport (name : String) : Copying fromHost toHost (.volumeExport fromHost name)
  | volumeImport (name : String) (content : Bytes) :
      Copying fromHost toHost (.volumeImport toHost name content)
  | reexport (name : String) : Copying fromHost toHost (.volumeExport toHost name)

inductive Observing (req : MigrateRequest) : Op → Prop where
  | getTemplate : Observing req (.getTemplate req.template)
  | source : Observing req (.podInspect req.fromHost (podName req.template req.slug))
  | waiting {op : Op} (h : Waiting req.toHost (podName req.template req.slug) op) : Observing req op
  | ctxErr : Observing req .ctxErr
  | getSpec : Observing req (.getSpec req.toHost req.template req.slug)

section Footprints

variable {s : Service} {req : MigrateRequest} {U : Op → Prop}

theorem preflightPod_issues (acc : Preflight) : (preflightPod req acc).run.Issues (Preflighting req) :=
  (issues_ask (.podInspect _)).cases (fun _ => issues_pure) fun _ => issues_pure_or_throw

theorem preflightSecret_issues (acc : Preflight) (name : String) :
    (preflightSecret req acc name).run.Issues (Preflighting req) := by
  refine (issues_ask (.secretInspect name)).andThen fun r => ?_
  cases r with
  | ok _ => exact issues_pure
  | error e =>
    dsimp only
    split
    · refine (issues_ask (.getHostSecret name)).andThen fun r => ?_
      cases r with
      | ok | error => exact issues_pure
    · exact issues_throw

theorem preflightRendered_issues (acc : Preflight) (pullImages : Bool) (rendered : Except Error String) :
    (s.preflightRendered req acc pullImages rendered).run.Issues (Preflighting req) := by
  cases rendered with
  | error e => exact issues_throw
  | ok rendered =>
    refine .andThen ?_ fun acc => issues_foldlM _ (fun acc img _ => ?_) acc
    · unfold Service.preflightPorts
      split
      · exact issues_pure
      refine issues_require.andThen fun _ => (issues_ask .usedHostPorts).andThen fun r => ?_
      cases r with
      | error | ok => exact issues_ret _
    · refine (issues_ask (.imagePull img)).andThen fun r => ?_
      cases r with
      | ok | error => exact issues_pure

theorem preflightDest_issues (tmpl : Template) (eff : GoMap Value) :
    (s.preflightDest req tmpl eff).run.Issues (Preflighting req) := by
  refine .bind ?_ fun out => issues_ret _
  refine (preflightPod_issues _).andThen fun acc => ?_
  refine (issues_foldlM _ (fun acc name _ => preflightSecret_issues acc name) acc).andThen
    fun acc => ?_
  exact preflightRendered_issues acc true _

theorem provisionHostSecret_issues (c : Codec) (name : String) :
    (provisionHostSecret c req name).run.Issues (Provisioning req) := by
  have hfailed : ∀ e, (provisionFailed req.toHost name e).run.Issues (Provisioning req) := by
    intro e
    exact (issues_ask (.secretInspect name)).cases (fun _ => issues_ret _) fun _ => issues_ret _
  have hsecret : ∀ value, (provisionSecret c req.toHost name value).run.Issues (Provisioning req) := by
    intro value
    refine (issues_ask (.secretCreate name _)).andThen fun r => ?_
    cases r with
    | ok _ =>
      exact (issues_ask (.putHostSecret name value)).andThen fun _ => issues_pure
    | error e => exact hfailed e
  have hmissing : (provisionMissing c req name).run.Issues (Provisioning req) := by
    exact (issues_ask (.getHostSecret name)).cases (fun value => hsecret value) fun _ => issues_pure_or_throw
  refine (issues_ask (.secretInspect name)).andThen fun r => ?_
  cases r with
  | ok _ => exact issues_pure
  | error e =>
    dsimp only
    split
    · exact hmissing
    · exact issues_throw

theorem migrateVolume_issues (fromHost toHost : String) (v : HostVolume) :
    (s.migrateVolume fromHost toHost v).run.Issues (Copying fromHost toHost) := by
  refine .andThen (.mapErr (issues_perform.2 (.volumeCreate _))) fun _ => ?_
  refine (copyStream_issues (.volumeExport _) (.volumeImport _)).mapErr.andThen fun src => ?_
  unfold Service.verifyCopied
  split
  · refine (volumeManifest_issues (.reexport _)).mapErr.andThen fun dst => ?_
    split <;> exact issues_ret _
  · exact issues_pure

theorem sourcePresent_issues : (sourcePresent req.fromHost req.template req.slug).Issues (Observing req) := by
  refine .bind (issues_perform.2 .source) fun r => ?_
  cases r with
  | ok | error => exact issues_ret _

theorem destState_issues : (s.destState req.toHost req.template req.slug).Issues (Observing req) := by
  have hrecheck : (destRecheck req.toHost req.template req.slug).Issues (Observing req) := by
    refine .bind (issues_perform.2 (.waiting .podInspect)) fun r => ?_
    cases r with
    | ok | error => exact issues_ret _
  refine .bind (issues_perform.2 (.waiting .podInspect)) fun r => ?_
  cases r with
  | error e => exact issues_ret _
  | ok p =>
    refine (waitRunning_issues.mono fun op h => .waiting h).bind fun r => ?_
    cases r with
    | ok _ => exact issues_ret _
    | error e => exact hrecheck

theorem orInconclusive_issues {α : Type} {x : Task α} (hx : x.run.Issues U) : (orInconclusive x).run.Issues U :=
  hx.bind fun _ => issues_ret _

theorem bestEffort_issues {α : Type} {x : Task α} (hx : x.run.Issues U) : (bestEffort x).run.Issues U :=
  (hx.bind fun _ => issues_ret _).embed

theorem requireTemplate_issues {tmpl : String} (h : U (.getTemplate tmpl)) :
    (requireTemplate tmpl).run.Issues U :=
  (issues_ask h).cases (fun _ => issues_ret _) fun _ => issues_ret _

theorem requireContext_issues (h : U .ctxErr) : requireContext.run.Issues U :=
  (issues_ask h).cases (fun _ => issues_ret _) fun _ => issues_ret _

theorem observeHosts_issues : (s.observeHosts req).run.Issues (Observing req) := by
  refine issues_require.andThen fun _ => issues_require.andThen fun _ => ?_
  refine (requireTemplate_issues .getTemplate).andThen fun _ => ?_
  refine sourcePresent_issues.embed.andThen fun out => ?_
  refine issues_require.andThen fun _ => ?_
  refine destState_issues.embed.andThen fun ds => ?_
  exact issues_require.andThen fun _ => (requireContext_issues .ctxErr).andThen fun _ =>
    issues_pure

theorem destCommitted_issues (ds : DestStatus) : (Service.destCommitted req ds).run.Issues (Observing req) := by
  unfold Service.destCommitted
  split
  · refine .andThen (.embed ?_) fun st => ?_
    · refine .bind (issues_perform.2 .getSpec) fun r => ?_
      cases r with
      | ok | error => exact issues_ret _
    · cases st with
      | persisted | absent | corrupt | inconclusive | needsKey => exact issues_ret _
  · exact issues_pure

theorem restorePaired_issues {host : String} {pairs : List PairedInstanceRef}
    (h : ∀ (ps : PairedInstanceRef) (op : Op), Starting host ps.template ps.slug op → U op) :
    (forM pairs (s.restorePaired host)).run.Issues U := by
  refine issues_forM _ fun ps _ => ?_
  exact (start_issues.mono (h ps)).embed.cases (fun _ => issues_pure) fun _ => issues_pure_or_throw

theorem migratePrepare_issues {t : Template} (hprovision : ∀ op, Provisioning req op → U op)
    (hstop : ∀ (ps : PairedInstanceRef) (op : Op), Stopping req.fromHost ps.template ps.slug op → U op) :
    (s.migratePrepare req t).run.Issues U := by
  refine (issues_forM _ fun name _ =>
    (provisionHostSecret_issues s.codec name).mono hprovision).andThen fun _ => ?_
  refine issues_foldlM _ (fun stopped ps _ => ?_) _
  exact (stop_issues.mono (hstop ps)).attempt.cases (fun _ => issues_pure) fun _ => issues_pure_or_throw

theorem migrateVolumes_issues (hread : ∀ op, Reading req.fromHost req.template req.slug op → U op)
    (hcopy : ∀ op, Copying req.fromHost req.toHost op → U op) : (s.migrateVolumes req).run.Issues U := by
  refine (instanceVolumes_issues.mono hread).mapErr.andThen fun vols => ?_
  exact issues_forM vols fun v _ => (migrateVolume_issues _ _ v).mono hcopy

theorem startPaired_issues {host : String} {stopped : List PairedInstanceRef}
    (h : ∀ (ps : PairedInstanceRef) (op : Op), Starting host ps.template ps.slug op → U op) :
    (forM stopped (s.startPaired host)).run.Issues U := by
  refine issues_forM _ fun ps _ => ?_
  exact (start_issues.mono (h ps)).attempt.andThen fun _ => issues_pure

theorem migrateFinish_issues {out : List PairedInstanceRef × Except Error Unit}
    (hstart : ∀ (tmpl slug : String) (op : Op), Starting req.fromHost tmpl slug op → U op)
    (hdelete : ∀ (host : String) (op : Op), Deleting host req.template req.slug op → U op) :
    (s.migrateFinish req out).run.Issues U := by
  have hpairs : ∀ stopped, (forM stopped (s.startPaired req.fromHost)).run.Issues U := fun stopped =>
    startPaired_issues fun ps => hstart ps.template ps.slug
  obtain ⟨stopped, r⟩ := out
  cases r with
  | ok _ =>
    show (s.migrateCommit req stopped).run.Issues U
    exact ((delete_issues _).mono (hdelete _)).mapErr.andThen fun _ => hpairs stopped
  | error e =>
    show (s.migrateRollback req stopped >>= fun _ => throw e : Task Unit).run.Issues U
    refine .andThen ?_ fun _ => issues_throw
    refine (start_issues.mono (hstart _ _)).attempt.andThen fun _ => ?_
    exact ((delete_issues _).mono (hdelete _)).attempt.andThen fun _ => hpairs stopped

/-- The clean-up of a source without a pod is what follows the removal of the pod in a deletion. -/
theorem reapOrphan_issues : (s.reapOrphan req).run.Issues (Deleting req.fromHost req.template req.slug) := by
  refine (orInconclusive_issues (storedInjectorSecrets_issues .getSpec)).andThen fun inj => ?_
  refine (bestEffort_issues ((pruneInstanceResources_issues _ _ inj).mono
    fun op h => .pruning h)).andThen fun _ => ?_
  refine (orInconclusive_issues (forgetSpec_issues .deleteSpec)).andThen fun _ => ?_
  exact bestEffort_issues (refreshIngress_issues .reconcile)

end Footprints

end PodmanApi.Instance
