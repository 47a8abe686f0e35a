/-
# PodmanApi.Jobs.EnqueueBackup — a backup that is taken to be under way already.

`Controller.EnqueueBackup` of `internal/backupctl` enqueues a backup job, unless one is queued or running whose
scope covers the request. `scopeCovers` does not read the mode of either side, and takes a job without a scope
to cover every request by name. Whether that job does the work is settled in `PodmanApi.Instance.BackupScope`.
-/
import PodmanApi.Instance.BackupScope
import PodmanApi.Jobs.DeleteBackup

namespace PodmanApi.Jobs

open GoStd Calls
open Instance (BackupRequest Fulfills Promises)

/-! ## The programs -/

structure RequestCodec where
  marshal : BackupRequest → Except Error String
  unmarshal : String → Except Error BackupRequest

structure BackupOptions where
  volumes : Option (List String)
  mode : String
  deriving DecidableEq, Repr

/-- The volumes a request names; none for the whole instance. -/
def BackupOptions.scope (opts : BackupOptions) : List String :=
  opts.volumes.getD []

def BackupOptions.live (opts : BackupOptions) : Bool :=
  opts.mode == "live"

def scopeCovers (inFlight want : List String) : Bool :=
  if inFlight.isEmpty then true
  else if want.isEmpty then false
  else want.all fun v => inFlight.contains v

namespace RequestCodec

variable (c : RequestCodec) (host tmpl slug : String)

/-- One round of the two scans: a job of the instance with a scope that is accepted. Arguments that
cannot be decoded are skipped. -/
def matchesJob (accept : List String → Bool) (j : Job) : Bool :=
  match c.unmarshal j.args with
  | .error _ => false
  | .ok req => req.host == host && req.template == tmpl && req.slug == slug && accept req.volumes

/-- The loop of `backupInFlightCovering` over the states. -/
def scanCovering (host tmpl slug : String) (want : List String) : List JobState → Work Bool
  | [] => pure false
  | state :: states => do
    let jobs ← Act.lift (issue (.listJobs (activeFilter "backup" state)))
    if jobs.any (c.matchesJob host tmpl slug (scopeCovers · want)) then pure true
    else scanCovering host tmpl slug want states

def backupInFlightCovering (want : List String) : Work Bool :=
  c.scanCovering host tmpl slug want [.queued, .running]

/-- `backupReconciling`: the scope is not read. -/
def backupReconciling : Work Bool := do
  let jobs ← Act.lift (issue (.listJobs (activeFilter "backup" .reconciling)))
  pure (jobs.any (c.matchesJob host tmpl slug fun _ => true))

/-- What `EnqueueBackup` does for a request that nothing covers; `id` is the new backup's. -/
def enqueueNew (svc : Instance.Service) (host tmpl slug : String) (opts : BackupOptions) (id : String) :
    Work String := do
  let _ ← viaService (svc.checkBackupable host tmpl slug opts.scope false)
  let args ← Act.lift (pure (c.marshal ⟨id, host, tmpl, slug, opts.scope, opts.mode⟩))
  let job ← Act.lift (issue (.enqueue "backup" args ""))
  pure job.id

def enqueueBackup (svc : Instance.Service) (host tmpl slug : String) (opts : BackupOptions) (id : String) :
    Work String := do
  Act.require (opts.volumes != some []) (Instance.invalidScope
    "an explicitly empty volume scope requests nothing; pass a nil scope for a full-instance backup")
  let _ ← viaService (svc.checkBackupable host tmpl slug opts.scope true)
  let reconciling ← c.backupReconciling host tmpl slug
  Act.require (!reconciling)
    (.wrap "" (.sentinel .backupDeferred) (": " ++ host ++ "/" ++ tmpl ++ "/" ++ slug))
  if ← c.backupInFlightCovering host tmpl slug opts.scope then pure ""
  else c.enqueueNew svc host tmpl slug opts id

/-- A backup job of the instance that is queued or running, whose request has the property. -/
def InFlight (P : BackupRequest → Prop) (j : Job) : Prop :=
  j.kind = "backup" ∧ (j.state = .queued ∨ j.state = .running) ∧
    ∃ req, c.unmarshal j.args = .ok req ∧ req.host = host ∧ req.template = tmpl ∧ req.slug = slug ∧ P req

end RequestCodec

/-! ## What an answer without an id tells -/

section Runs

variable {c : RequestCodec} {svc : Instance.Service} {host tmpl slug id : String} {opts : BackupOptions}
  {t : JobTable}

theorem checkBackupable_configured {σ : Type} {S : Calls.Service Instance.calls σ} {x : σ}
    {volumes : List String} {declaredOnly : Bool} : Ends S
      (OnOk fun _ _ => svc.blobs = true ∧ (svc.host host).isSome = true)
      (svc.checkBackupable host tmpl slug volumes declaredOnly).run x := by
  refine ensures_require_thenOk fun hblobs => ?_
  refine .thenOk (P := fun _ _ => (svc.host host).isSome = true) ?_ fun _ _ hhost =>
    (ensures_any _).imp fun _ _ _ _ _ => ⟨hblobs, hhost⟩
  refine ensures_require_thenOk fun hhost => ?_
  exact (ensures_any _).imp fun _ _ _ _ _ => hhost

theorem viaService_unchanged {α : Type} {x : Instance.Task α} :
    Ends jobStore (fun t' _ => t' = t) (viaService x).run t := by
  refine ensures_via.2 ?_
  induction x.run with
  | ret a => exact ensures_ret.2 rfl
  | call op k ih =>
    refine ensures_call.2 ⟨trivial, fun r t' hr => ?_⟩
    obtain ⟨_, hstep, rfl⟩ := hr
    obtain rfl : t' = t := hstep
    exact ih _

theorem viaCheck_configured {volumes : List String} {declaredOnly : Bool} : Ends jobStore
      (OnOk fun t' _ => t' = t ∧ svc.blobs = true ∧ (svc.host host).isSome = true)
      (viaService (svc.checkBackupable host tmpl slug volumes declaredOnly)).run t :=
  (viaService_unchanged.and (ensures_via.2 checkBackupable_configured)).imp
    fun _ _ h a ha => ⟨h.1, h.2 a ha⟩

theorem ensures_listJobs {α : Type} {f : JobFilter} {k : List Job → Work α} {P : JobTable → α → Prop}
    (h : ∀ jobs, Ends jobStore (OnOk P) (k jobs).run t) :
    Ends jobStore (OnOk P) (Act.lift (issue (.listJobs f)) >>= k).run t := by
  have hlist : Ends jobStore (OnOk fun t' _ => t' = t)
      (Act.lift (issue (.listJobs f)) : Work (List Job)).run t :=
    ensures_issue (Op.listJobs f) trivial fun r t' hr jobs _ => hr.1
  refine hlist.thenOk fun t' jobs ht' => ?_
  subst ht'
  exact h jobs

theorem scanCovering_unchanged (want : List String) (states : List JobState) :
    Ends jobStore (OnOk fun t' _ => t' = t) (c.scanCovering host tmpl slug want states).run t := by
  induction states with
  | nil => exact ensures_pure_onOk rfl
  | cons state states ih =>
    refine ensures_listJobs fun jobs => ?_
    split
    · exact ensures_pure_onOk rfl
    · exact ih

theorem enqueueBackup_unchanged : Ends jobStore
    (OnOk fun t' answer => (t' = t ∧ svc.blobs = true ∧ (svc.host host).isSome = true) ∨
      ∃ j ∈ t'.list, j.id = answer) (c.enqueueBackup svc host tmpl slug opts id).run t := by
  refine ensures_require_thenOk fun _ => ?_
  refine viaCheck_configured.thenOk fun t' _ h => ?_
  obtain ⟨rfl, hconf⟩ := h
  refine .thenOk (P := fun t'' _ => t'' = t') ?_ fun _ reconciling h => ?_
  · exact ensures_listJobs fun jobs => ensures_pure_onOk rfl
  subst h
  refine ensures_require_thenOk fun _ => ?_
  refine (scanCovering_unchanged opts.scope _).thenOk fun t'' covered h => ?_
  subst h
  split
  · exact ensures_pure_onOk (.inl ⟨rfl, hconf⟩)
  refine viaCheck_configured.thenOk fun _ _ _ => ?_
  refine .thenOk (P := fun _ _ => True) (ensures_ret.2 fun _ _ => trivial) fun u args _ => ?_
  have henqueue : Ends jobStore (OnOk fun t' (j : Job) => j ∈ t'.list)
      (Act.lift (issue (.enqueue "backup" args "")) : Work Job).run u := by
    refine ensures_issue (Op.enqueue "backup" args "") trivial fun r t' hr j hj => ?_
    obtain ⟨new, fresh, -, hcommits⟩ := hr
    subst hj
    cases hcommits
    exact List.mem_append_right _ (List.mem_singleton_self _)
  exact henqueue.thenOk fun _ j hj => ensures_pure_onOk (.inr ⟨j, hj, rfl⟩)

/-- An answer without an id and without an error, from a store whose jobs have ids: some queued or running job of
the instance does, whenever it succeeds, what the request asks for exactly when there was one whose own mode and
scope are those the request needs. -/
theorem covered_iff (c : RequestCodec) (svc : Instance.Service) (host tmpl slug id : String)
    (opts : BackupOptions) {t t' : JobTable} {h : List (Event jobCalls)}
    (hcodec : ∃ content, svc.codec.Reads content) (hids : ∀ j ∈ t'.list, j.id ≠ "")
    (hrun : Exec jobStore t (c.enqueueBackup svc host tmpl slug opts id).run h t' (.ret (.ok ""))) :
    (∃ j ∈ t'.list, c.InFlight host tmpl slug (fun req => Fulfills svc req opts.scope opts.live) j) ↔
      ∃ j ∈ t.list, c.InFlight host tmpl slug (fun req => Promises req opts.scope opts.live) j := by
  obtain ⟨rfl, hblobs, hhost⟩ | ⟨j, hj, hid⟩ := enqueueBackup_unchanged.post hrun "" rfl
  · refine exists_congr fun j => and_congr_right fun _ => and_congr_right fun _ => and_congr_right fun _ => ?_
    refine exists_congr fun req => and_congr_right fun _ => ?_
    constructor
    · rintro ⟨rfl, htmpl, hslug, hfulfills⟩
      exact ⟨rfl, htmpl, hslug, hfulfills.promises hblobs hhost hcodec⟩
    · rintro ⟨rfl, htmpl, hslug, hpromises⟩
      exact ⟨rfl, htmpl, hslug, hpromises.fulfills hblobs hhost hcodec⟩
  · exact absurd hid (hids j hj)

end Runs

/-! ## A live job and a request for a snapshot -/

def scopedTemplate : Template where
  metadata := ⟨"web", [], [], [], [Instance.plainVolume "data"], none, [], none, some []⟩
  body := "kind: Pod"

def liveRequest : BackupRequest :=
  ⟨"b1", "engine-1", "web", "shop", ["data"], "live"⟩

def twoRequests : RequestCodec where
  marshal req := .ok req.mode
  unmarshal args :=
    if args = "live" then .ok liveRequest
    else if args = "snapshot" then .ok { liveRequest with mode := "snapshot" }
    else .error (.text "invalid character")

def oneJob (args : String) : JobTable where
  list := [newJob "j1" "backup" args "" .running ⟨0⟩]
  nodup := List.nodup_singleton _

def scopedAnswers (t : JobTable) (op : Op) : Option (op.Ans × JobTable) :=
  obedient ⟨1⟩ (fun
    | .service op => some (Instance.yielding scopedTemplate Instance.exampleRow op)
    | _ => none) t op

def snapshotOptions : BackupOptions := ⟨some ["data"], "snapshot"⟩

@[irreducible]
def coveredRun (args : String) : Option (Except Error String × JobTable) :=
  (twoRequests.enqueueBackup Instance.exampleService "engine-1" "web" "shop" snapshotOptions "b2").run.serve
    scopedAnswers (oneJob args)

theorem coveredRun_exec (args : String)
    (h : (coveredRun args).map (fun x => (x.1, x.2.list)) = some (.ok "", (oneJob args).list)) :
    ∃ tr, Exec jobStore (oneJob args) (twoRequests.enqueueBackup Instance.exampleService "engine-1" "web"
      "shop" snapshotOptions "b2").run tr (oneJob args) (.ret (.ok "")) := by
  obtain ⟨⟨r, t'⟩, hserve, hanswer⟩ := Option.map_eq_some_iff.1 h
  obtain ⟨rfl, hlist⟩ := Prod.mk.inj hanswer
  obtain rfl : t' = oneJob args := JobTable.ext hlist
  unfold coveredRun at hserve
  exact Prog.exec_serve (fun t op r t' h => jobStore_obedient h) hserve

/-- The table holds a live job for the volume, the request for a
snapshot of it is answered as covered, and no job in the table is going to take one. -/
theorem live_job_counts_as_snapshot :
    (∃ tr, Exec jobStore (oneJob "live") (twoRequests.enqueueBackup Instance.exampleService "engine-1" "web"
      "shop" snapshotOptions "b2").run tr (oneJob "live") (.ret (.ok ""))) ∧
    ¬∃ j ∈ (oneJob "live").list, twoRequests.InFlight "engine-1" "web" "shop"
      (fun req => Fulfills Instance.exampleService req snapshotOptions.scope snapshotOptions.live) j := by
  refine ⟨coveredRun_exec "live" (by decide +kernel), ?_⟩
  rintro ⟨j, hj, -, -, req, hargs, -, -, -, hfulfills⟩
  obtain rfl := List.mem_singleton.1 hj
  obtain rfl : liveRequest = req := Except.ok.inj hargs
  have hmode := (hfulfills.promises rfl rfl ⟨[], [], [], rfl, rfl⟩).mode
  revert hmode
  decide

/-- A snapshot in flight with the same scope does what the request asks for. -/
theorem snapshot_job_covers : ∃ j ∈ (oneJob "snapshot").list, twoRequests.InFlight "engine-1" "web" "shop"
    (fun req => Fulfills Instance.exampleService req snapshotOptions.scope snapshotOptions.live) j := by
  obtain ⟨tr, hrun⟩ := coveredRun_exec "snapshot" (by decide +kernel)
  refine (covered_iff twoRequests Instance.exampleService "engine-1" "web" "shop" "b2" snapshotOptions
    ⟨[], [], [], rfl, rfl⟩ (by decide) hrun).2 ⟨_, List.mem_singleton_self _, rfl, .inr rfl, _, rfl, rfl, rfl,
      rfl, ?_⟩
  exact ⟨by decide, fun _ => rfl, by decide, by decide⟩

end PodmanApi.Jobs
