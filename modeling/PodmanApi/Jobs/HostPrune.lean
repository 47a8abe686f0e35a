/-
# PodmanApi.Jobs.HostPrune — the scheduled clean-up of hosts.

`internal/prune`: a scheduler enqueues a prune job for each host that is due, and the handler removes what the
host's policy has in scope. Unused volumes may be those of an instance being moved; so the scheduler drops that
scope when it sees a move, and the handler looks again right before it asks podman.

Log lines and metrics are left out. JSON and the float64 comparison of the disk threshold are parameters.
-/
import PodmanApi.Jobs.Runner

namespace PodmanApi.Jobs

open GoStd Calls

/-! ## Policies -/

/-- `ScopeDangling` and its siblings. -/
def scopeDangling : String := "dangling"

def scopeAllImages : String := "all-images"

def scopeContainers : String := "containers"

def scopeBuildCache : String := "build-cache"

def scopeVolumes : String := "volumes"

structure Policy where
  enabled : Bool
  interval : Duration
  diskThreshold : Int
  scope : List String
  dryRun : Bool
  deriving DecidableEq, Repr

def Policy.hasScope (p : Policy) (s : String) : Bool :=
  p.scope.contains s

def withoutScope (scopes : List String) (drop : String) : List String :=
  scopes.filter (· != drop)

structure Payload where
  host : String
  policy : Policy
  deriving DecidableEq, Repr

structure HostPolicy where
  host : String
  policy : Policy
  deriving DecidableEq, Repr

/-- JSON, and the comparison of the disk threshold. -/
structure PruneCodec where
  marshal : Payload → Except Error String
  unmarshal : String → Except Error Payload
  /-- `float64(used)/float64(total)*100 >= float64(threshold)` -/
  overThreshold : DiskInfo → Int → Bool

variable (c : PruneCodec)

/-! ## The guard -/

def activeScanLimit : Int := 500

/-- Whether the newest jobs of a kind include an active one; a store error counts as one. -/
def kindActive (kind : String) : Prog jobCalls Bool := do
  match ← issue (.listJobs { kind := kind, limit := activeScanLimit }) with
  | .error _ => pure true
  | .ok jobs => pure (jobs.any (·.state.active))

def migrateOrEvacuateActive : Prog jobCalls Bool := do
  if ← kindActive "migrate" then pure true else kindActive "evacuate"

/-! ## The handler -/

def protectLabel : String := "podman-api.protect"

def volumeFilters : GoMap (List String) :=
  [("label!", [protectLabel ++ "=true"])]

/-- A step of `Handler.Run`: its scope, whether it is guarded, and its call. -/
structure PruneStep where
  scope : String
  guarded : Bool
  run : Prog jobCalls (Except Error PruneReport)

/-- The image step: removing all unused images covers the dangling ones. -/
def imageSteps (p : Payload) : List PruneStep :=
  if p.policy.hasScope scopeAllImages then
    [⟨scopeAllImages, false, issue (.imagePrune p.host true)⟩]
  else if p.policy.hasScope scopeDangling then
    [⟨scopeDangling, false, issue (.imagePrune p.host false)⟩]
  else []

def scopeStep (p : Payload) (scope : String) (guarded : Bool) (run : Prog jobCalls (Except Error PruneReport)) :
    List PruneStep :=
  if p.policy.hasScope scope then [⟨scope, guarded, run⟩] else []

def plainSteps (p : Payload) : List PruneStep :=
  imageSteps p ++ scopeStep p scopeContainers false (issue (.containerPrune p.host)) ++
    scopeStep p scopeBuildCache false (issue (.buildCachePrune p.host))

/-- The steps of `Handler.Run`, in their order. -/
def pruneSteps (p : Payload) : List PruneStep :=
  plainSteps p ++ scopeStep p scopeVolumes true (issue (.volumePrune p.host volumeFilters))

def stepError (scope : String) (e : Error) : Error :=
  .wrap ("prune " ++ scope ++ ": ") e ""

/-- What a step that was run leaves behind: the first error, and a progress entry. -/
def recordStep (job : Job) (scope : String) (firstErr : Option Error) :
    Except Error PruneReport → Work (Option Error)
  | .error e => do
    jobStep job.id ("prune:" ++ scope) ("FAILED: " ++ Error.string e)
    pure (firstErr.or (some (stepError scope e)))
  | .ok rep => do
    jobStep job.id ("prune:" ++ scope)
      ("removed " ++ toString rep.items.length ++ " item(s), reclaimed " ++ toString rep.reclaimed ++ " bytes")
    pure firstErr

/-- The guard of a step; without a job store there is nothing to look at. -/
def PruneStep.skip (jobs : Bool) (s : PruneStep) : Prog jobCalls Bool :=
  if s.guarded && jobs then migrateOrEvacuateActive else pure false

/-- The body of the loop of `Handler.Run`. -/
def runStep (jobs : Bool) (job : Job) (firstErr : Option Error) (s : PruneStep) : Work (Option Error) := do
  Act.lift (issue .ctxErr)
  if ← Act.embed (s.skip jobs) then
    jobStep job.id ("prune:" ++ s.scope) "skipped: migrate/evacuate active"
    pure firstErr
  else
    let result ← Act.embed s.run
    recordStep job s.scope firstErr result

def dryRun (job : Job) (p : Payload) : Work Unit := do
  Act.lift (issue .ctxErr)
  let info ← Act.mapErr (fun e => .wrap "dry-run host info: " e "") (Act.lift (issue (.hostInfo p.host)))
  let scopes := join p.policy.scope ","
  let detail :=
    if p.policy.hasScope scopeVolumes then
      "scopes=" ++ scopes ++ " volume-reclaimable=" ++ toString info.reclaimable ++
        " bytes (nothing removed; image/build-cache sizes unavailable in dry-run)"
    else "scopes=" ++ scopes ++ " (nothing removed)"
  jobStep job.id "dry-run" detail

/-- `Handler.Run`, with or without a job store. -/
def PruneCodec.handler (jobs : Bool) (job : Job) : Work Unit :=
  match c.unmarshal job.args with
  | .error e => throw (.wrap "decode prune args: " e "")
  | .ok p =>
    if p.policy.dryRun then dryRun job p
    else do
      match ← (pruneSteps p).foldlM (runStep jobs job) none with
      | some e => throw e
      | none => pure ()

/-! ## The scheduler -/

def failureBackoff : Duration := hour

def thresholdProbeInterval : Duration := 300 * second

structure PruneScan where
  inflight : List String := []
  lastSuccess : GoMap Time := []
  lastFailure : GoMap Time := []

def later (m : GoMap Time) (host : String) (t : Time) : GoMap Time :=
  match GoMap.get? m host with
  | some cur => if cur.ns < t.ns then GoMap.set m host t else m
  | none => GoMap.set m host t

def scanJob (scan : PruneScan) (j : Job) : PruneScan :=
  match c.unmarshal j.args with
  | .error _ => scan
  | .ok p =>
    if p.host = "" then scan
    else
      match j.state with
      | .queued | .running => { scan with inflight := p.host :: scan.inflight }
      | .succeeded => { scan with lastSuccess := later scan.lastSuccess p.host j.finished }
      | .failed => { scan with lastFailure := later scan.lastFailure p.host j.finished }
      | .reconciling | .canceled => scan

def scanPruneJobs : Prog jobCalls PruneScan := do
  match ← issue (.listJobs { kind := "prune", limit := activeScanLimit }) with
  | .error _ => pure {}
  | .ok jobs => pure (jobs.foldl (scanJob c) {})

/-- Whether a failure is recent and not followed by a success. -/
def PruneScan.backsOff (scan : PruneScan) (host : String) (now : Time) : Bool :=
  match GoMap.get? scan.lastFailure host with
  | none => false
  | some lf => decide (now.sub lf < failureBackoff) &&
      (GoMap.get? scan.lastSuccess host).all fun ls => decide (ls.ns < lf.ns)

/-- Whether the interval since the last success has passed. -/
def PruneScan.due (scan : PruneScan) (hp : HostPolicy) (now : Time) : Bool :=
  decide (0 < hp.policy.interval) &&
    (GoMap.get? scan.lastSuccess hp.host).all fun last => decide (hp.policy.interval ≤ now.sub last)

/-- `probeDue`, which records the probe it allows. -/
def probeDue (probes : GoMap Time) (host : String) (now : Time) : Bool × GoMap Time :=
  match GoMap.get? probes host with
  | some last =>
    if now.sub last < thresholdProbeInterval then (false, probes) else (true, GoMap.set probes host now)
  | none => (true, GoMap.set probes host now)

/-- The probe of a host that is not due: whether its disk is too full, and nothing when podman does
not tell. -/
def probe (hp : HostPolicy) (now : Time) (probes : GoMap Time) : Prog jobCalls (Option Bool × GoMap Time) := do
  if hp.policy.diskThreshold ≤ 0 then pure (some false, probes)
  else
    match probeDue probes hp.host now with
    | (false, probes) => pure (some false, probes)
    | (true, probes) =>
      match ← issue (.hostInfo hp.host) with
      | .error _ => pure (none, probes)
      | .ok info =>
        pure (some (decide (0 < info.total) && c.overThreshold info hp.policy.diskThreshold), probes)

/-- The policy that is enqueued: without its volumes scope while a move is on. -/
def enqueuedPolicy (migrateActive : Bool) (p : Policy) : Policy :=
  if migrateActive && p.hasScope scopeVolumes then { p with scope := withoutScope p.scope scopeVolumes }
  else p

def enqueuePrune (migrateActive : Bool) (hp : HostPolicy) : Prog jobCalls Unit :=
  match c.marshal ⟨hp.host, enqueuedPolicy migrateActive hp.policy⟩ with
  | .error _ => pure ()
  | .ok args => do
    let _ ← issue (.enqueue "prune" args "")
    pure ()

/-- One host's turn in `tick`. -/
def tickHost (now : Time) (scan : PruneScan) (migrateActive : Bool)
    (probes : GoMap Time) (hp : HostPolicy) : Prog jobCalls (GoMap Time) := do
  if !hp.policy.enabled then pure probes
  else if !(← issue (.knows hp.host)) then pure probes
  else if scan.inflight.contains hp.host || scan.backsOff hp.host now then pure probes
  else if scan.due hp now then
    enqueuePrune c migrateActive hp
    pure probes
  else
    match ← probe c hp now probes with
    | (some true, probes) =>
      enqueuePrune c migrateActive hp
      pure probes
    | (_, probes) => pure probes

def tick (probes : GoMap Time) (hosts : List HostPolicy) : Prog jobCalls (GoMap Time) := do
  if hosts.any (·.policy.enabled) then
    let now ← issue .now
    let scan ← scanPruneJobs c
    let migrateActive ← migrateOrEvacuateActive
    hosts.foldlM (tickHost c now scan migrateActive) probes
  else pure probes

/-- `Scheduler.Start`: one tick after the other, each with the policies of its time. -/
def scheduler (ticks : List (List HostPolicy)) : Prog jobCalls Unit := do
  let _ ← ticks.foldlM (tick c) []
  pure ()

end PodmanApi.Jobs
