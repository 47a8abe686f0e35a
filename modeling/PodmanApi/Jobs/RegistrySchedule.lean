/-
# PodmanApi.Jobs.RegistrySchedule — one registry prune at a time.

`registryprune.Scheduler` enqueues a registry prune on a schedule, and on demand for the API. Both ways list the
newest jobs of that kind and enqueue one if none is active, under a semaphore of one, which a caller may give up
waiting for.

Only the 500 newest jobs are listed. That is enough, since while a job is active no other is enqueued, so the
active one is the newest of its kind (`Topmost`).
-/
import PodmanApi.Jobs.Runner

namespace PodmanApi.Jobs.Registry

open GoStd Calls
open Function (update_self update_of_ne update_eq_self_iff)

/-! ## The programs -/

def jobKind : String := "registry-prune"

def activeScanLimit : Int := 500

def failureBackoff : Duration := hour

def scanFilter : JobFilter where
  kind := jobKind
  limit := activeScanLimit

structure Scan where
  inflight : Bool := false
  lastSuccess : Time := ⟨0⟩
  lastFailure : Time := ⟨0⟩

/-- `if t.After(last) { last = t }` -/
def latest (last t : Time) : Time :=
  if last.ns < t.ns then t else last

def scanJob (scan : Scan) (j : Job) : Scan :=
  if j.state.active then { scan with inflight := true }
  else
    match j.state with
    | .succeeded => { scan with lastSuccess := latest scan.lastSuccess j.finished }
    | .failed | .canceled => { scan with lastFailure := latest scan.lastFailure j.finished }
    | _ => scan

/-- `scanJobs`; after a store error it assumes that a run is in flight. -/
def scanJobs : Prog jobCalls Scan := do
  match ← issue (.listJobs scanFilter) with
  | .error _ => pure { inflight := true }
  | .ok jobs => pure (jobs.foldl scanJob {})

/-- Whether a failure is recent and not followed by a success. -/
def Scan.backsOff (scan : Scan) (now : Time) : Bool :=
  !scan.lastFailure.isZero && decide (now.sub scan.lastFailure < failureBackoff) &&
    (scan.lastSuccess.isZero || decide (scan.lastSuccess.ns < scan.lastFailure.ns))

/-- Whether the last success is younger than the interval. -/
def Scan.fresh (scan : Scan) (interval : Duration) (now : Time) : Bool :=
  !scan.lastSuccess.isZero && decide (now.sub scan.lastSuccess < interval)

/-- What `tick` does with the semaphore; `payload` is the payload of the moment in JSON. -/
def tickLocked (interval : Duration) (payload : Except Error String) : Prog jobCalls Unit := do
  let scan ← scanJobs
  if scan.inflight then pure ()
  else
    let now ← issue .now
    if scan.backsOff now then pure ()
    else if scan.fresh interval now then pure ()
    else
      match payload with
      | .error _ => pure ()
      | .ok args =>
        let _ ← issue (.enqueue jobKind args "")
        pure ()

/-- `tick`, with or without a payload function. -/
def tick (interval : Duration) : Option (Except Error String) → Prog jobCalls Unit
  | none => pure ()
  | some payload =>
    if interval ≤ 0 then pure ()
    else do
      match ← issue .acquire with
      | .error _ => pure ()
      | .ok _ =>
        tickLocked interval payload
        issue .release

/-- `Scheduler.Start`: one tick after the other, each with the payload of its time. -/
def start (interval : Duration) (payloads : List (Option (Except Error String))) : Prog jobCalls Unit :=
  payloads.foldlM (fun _ payload => tick interval payload) ()

/-- What `EnqueueNow` does with the semaphore. -/
def enqueueLocked (payload : Except Error String) : Work Job := do
  let scan ← Act.embed scanJobs
  if scan.inflight then throw (.sentinel .runInFlight)
  else
    let args ← Act.mapErr (fun e => .wrap "marshal registry-prune payload: " e "") (Act.lift (pure payload))
    Act.mapErr (fun e => .wrap "enqueue registry-prune: " e "") (Act.lift (issue (.enqueue jobKind args "")))

/-- `EnqueueNow`, of a scheduler that is configured or not. -/
def enqueueNow : Option (Except Error String) → Work Job
  | none => throw (.text "registry prune scheduler is not configured")
  | some payload => do
    Act.mapErr (fun e => .wrap "waiting to enqueue registry-prune: " e "") (Act.lift (issue .acquire))
    let result ← Act.attempt (enqueueLocked payload)
    Act.embed (issue .release)
    Act.lift (pure result)

/-! ## The semaphore and the store -/

/-- A new row comes after the rows of its kind. -/
def Ascending (t t' : JobTable) : Prop :=
  ∀ j' ∈ t'.list, j'.id ∉ t.list.map Job.id → ∀ j ∈ t.list, j.kind = j'.kind → j.id < j'.id

/-- What the threads share: the jobs, and who has the semaphore. -/
structure Desk (ι : Type) where
  table : JobTable
  holder : Option ι

/-- The semaphore is a channel of one: whoever waits for it may be told instead that its context is done. -/
def desk {ι : Type} : Shared jobCalls ι (Desk ι) := fun i s op r s' =>
  match op, r with
  | .acquire, .ok _ => s.holder = none ∧ s' = { s with holder := some i }
  | .acquire, .error _ => s' = s
  | .release, _ => s.holder.isSome = true ∧ s' = { s with holder := none }
  | op, r => ∃ t, jobStore s.table op r t ∧ Ascending s.table t ∧ s' = { s with table := t }

/-- How far a thread is: outside, inside, or inside after a listing without an active job, with the time it
has asked for since. -/
inductive Stage where
  | outside
  | inside
  | clear (jobs : List Job) (now : Option Time)

def Stage.after (w : Stage) : Event jobCalls → Stage
  | ⟨.acquire, .ok _⟩ => .inside
  | ⟨.release, _⟩ => .outside
  | ⟨.listJobs f, .ok jobs⟩ =>
    match w with
    | .outside => .outside
    | _ => if f = scanFilter ∧ (jobs.any fun j => j.state.active) = false then .clear jobs none else .inside
  | ⟨.now, t⟩ =>
    match w with
    | .clear jobs _ => .clear jobs (some t)
    | _ => w
  | ⟨op, _⟩ =>
    match w with
    | .clear jobs now => if op.inserted = none then .clear jobs now else .inside
    | _ => w

/-- The tick is due by the jobs of its listing: no success is younger than the interval, and no failure or cancel
newer than every success is younger than the backoff. -/
structure Due (interval : Duration) (jobs : List Job) (now : Time) : Prop where
  success : ∀ j ∈ jobs, j.state = .succeeded → 0 < j.finished.ns → interval ≤ now.sub j.finished
  failure : ∀ j ∈ jobs, j.state = .failed ∨ j.state = .canceled → 0 < j.finished.ns →
    (∀ j' ∈ jobs, j'.state = .succeeded → j'.finished.ns < j.finished.ns) →
      failureBackoff ≤ now.sub j.finished

/-- What a thread does: ticks, one request, or anything else. -/
inductive Role where
  | ticker (interval : Duration) (payloads : List (Option (Except Error String)))
  | caller (payload : Option (Except Error String))
  | other (p : Prog jobCalls Unit)

def Role.program : Role → Prog jobCalls Unit
  | ticker interval payloads => start interval payloads
  | caller payload => do
    let _ ← (enqueueNow payload).run
    pure ()
  | other p => p

def Elsewhere (op : Op) : Prop :=
  op ≠ .acquire ∧ op ≠ .release ∧ ∀ args, op.inserted ≠ some (jobKind, args)

/-- What the listing has to show before a thread enqueues: the ticks go by the clock, a request does not. -/
def Role.due : Role → List Job → Option Time → Prop
  | ticker interval _, jobs, now => ∃ t, now = some t ∧ Due interval jobs t
  | _, _, _ => True

/-- A thread takes the semaphore when it does not have it, gives back what it has, and enqueues a registry
prune only after a listing without an active one. -/
structure Orderly (due : List Job → Option Time → Prop) (w : Stage) (op : Op) : Prop where
  acquire : op = .acquire → w = .outside
  release : op = .release → w ≠ .outside
  enqueue : ∀ args, op.inserted = some (jobKind, args) → ∃ jobs now, w = .clear jobs now ∧ due jobs now

theorem Elsewhere.orderly {op : Op} (h : Elsewhere op) (due : List Job → Option Time → Prop) (w : Stage) :
    Orderly due w op where
  acquire heq := absurd heq h.1
  release heq := absurd heq h.2.1
  enqueue args hnew := absurd hnew (h.2.2 args)

/-! ## What the scan finds -/

theorem le_latest (last t : Time) : last.ns ≤ (latest last t).ns ∧ t.ns ≤ (latest last t).ns := by
  unfold latest
  split <;> omega

theorem latest_eq (last t : Time) : latest last t = last ∨ latest last t = t := by
  unfold latest
  split
  · exact .inr rfl
  · exact .inl rfl

structure Summary (jobs : List Job) (scan : Scan) : Prop where
  active : scan.inflight = false → (jobs.any fun j => j.state.active) = false
  started : 0 ≤ scan.lastSuccess.ns
  success : ∀ j ∈ jobs, j.state = .succeeded → j.finished.ns ≤ scan.lastSuccess.ns
  last : scan.lastSuccess = ⟨0⟩ ∨ ∃ j ∈ jobs, j.state = .succeeded ∧ j.finished = scan.lastSuccess
  failure : ∀ j ∈ jobs, j.state = .failed ∨ j.state = .canceled → j.finished.ns ≤ scan.lastFailure.ns

variable {jobs : List Job} {scan : Scan} {j : Job} {interval : Duration}

theorem Summary.next (h : Summary jobs scan) {scan' : Scan}
    (hactive : scan'.inflight = false → scan.inflight = false ∧ j.state.active = false)
    (hsuccess : scan.lastSuccess.ns ≤ scan'.lastSuccess.ns)
    (hsucceeded : j.state = .succeeded → j.finished.ns ≤ scan'.lastSuccess.ns)
    (hlast : scan'.lastSuccess = scan.lastSuccess ∨ j.state = .succeeded ∧ j.finished = scan'.lastSuccess)
    (hfailure : scan.lastFailure.ns ≤ scan'.lastFailure.ns)
    (hfailed : j.state = .failed ∨ j.state = .canceled → j.finished.ns ≤ scan'.lastFailure.ns) :
    Summary (jobs ++ [j]) scan' := by
  refine ⟨fun hinflight => ?_, Int.le_trans h.started hsuccess, fun i hi hstate => ?_, ?_, fun i hi hstate => ?_⟩
  · obtain ⟨hscan, hj⟩ := hactive hinflight
    rw [List.any_append, h.active hscan]
    simpa using hj
  · rcases List.mem_append.1 hi with hi | hi
    · exact Int.le_trans (h.success i hi hstate) hsuccess
    · obtain rfl := List.mem_singleton.1 hi
      exact hsucceeded hstate
  · rcases hlast with hsame | hnew
    · rw [hsame]
      exact h.last.imp_right fun ⟨i, hi, hrest⟩ => ⟨i, List.mem_append_left _ hi, hrest⟩
    · exact .inr ⟨j, List.mem_append_right _ List.mem_cons_self, hnew⟩
  · rcases List.mem_append.1 hi with hi | hi
    · exact Int.le_trans (h.failure i hi hstate) hfailure
    · obtain rfl := List.mem_singleton.1 hi
      exact hfailed hstate

theorem summary_step (h : Summary jobs scan) (j : Job) : Summary (jobs ++ [j]) (scanJob scan j) := by
  obtain ⟨hsuccess, hsucceeded⟩ := le_latest scan.lastSuccess j.finished
  obtain ⟨hfailure, hfailed⟩ := le_latest scan.lastFailure j.finished
  unfold scanJob
  cases hj : j.state with
  | queued | running | reconciling =>
    exact h.next nofun (Int.le_refl _) (by rw [hj]; nofun) (.inl rfl) (Int.le_refl _) (by rw [hj]; nofun)
  | succeeded =>
    exact h.next (fun hscan => ⟨hscan, by rw [hj]; rfl⟩) hsuccess (fun _ => hsucceeded)
      ((latest_eq _ _).imp_right fun heq => ⟨hj, heq.symm⟩) (Int.le_refl _) (by rw [hj]; nofun)
  | failed | canceled =>
    exact h.next (fun hscan => ⟨hscan, by rw [hj]; rfl⟩) (Int.le_refl _) (by rw [hj]; nofun) (.inl rfl) hfailure
      fun _ => hfailed

theorem summary_scan (jobs : List Job) : Summary jobs (jobs.foldl scanJob {}) := by
  induction jobs using List.reverseRecOn with
  | nil => exact ⟨fun _ => rfl, Int.le_refl 0, nofun, .inl rfl, nofun⟩
  | append_singleton jobs j ih =>
    rw [List.foldl_concat]
    exact summary_step ih j

theorem sub_antitone (now : Time) {t t' : Time} (h : t.ns ≤ t'.ns) : now.sub t' ≤ now.sub t := by
  show (max minInt64 (min maxInt64 (now.ns - t'.ns)) : Int) ≤ max minInt64 (min maxInt64 (now.ns - t.ns))
  omega

theorem Summary.due {now : Time} (h : Summary jobs scan)
    (hbacksOff : scan.backsOff now = false) (hfresh : scan.fresh interval now = false) : Due interval jobs now := by
  simp only [Scan.fresh, Time.isZero, Bool.and_eq_false_iff, Bool.not_eq_false', beq_iff_eq,
    decide_eq_false_iff_not, Int.not_lt] at hfresh
  simp only [Scan.backsOff, Time.isZero, Bool.and_eq_false_iff, Bool.or_eq_false_iff, Bool.not_eq_false',
    beq_iff_eq, decide_eq_false_iff_not, Int.not_lt] at hbacksOff
  refine ⟨fun j hj hstate hfinished => ?_, fun j hj hstate hfinished hlast => ?_⟩
  · have hle := h.success j hj hstate
    rcases hfresh with hzero | hfresh
    · omega
    · exact Int.le_trans hfresh (sub_antitone now hle)
  · have hle := h.failure j hj hstate
    have hnewer : scan.lastSuccess.ns < scan.lastFailure.ns := by
      rcases h.last with hzero | ⟨i, hi, hsucceeded, heq⟩
      · rw [hzero]
        exact Int.lt_of_lt_of_le hfinished hle
      · rw [← heq]
        exact Int.lt_of_lt_of_le (hlast i hi hsucceeded) hle
    rcases hbacksOff with (hzero | hbackoff) | ⟨-, hfalse⟩
    · omega
    · exact Int.le_trans hbackoff (sub_antitone now hle)
    · omega

/-! ## One thread -/

abbrev staged : Calls.Service jobCalls Stage :=
  tracking Stage.after fun _ => True

section Program

variable {due : List Job → Option Time → Prop} {w : Stage}

theorem staged_issue (op : Op) {Q : Stage → op.Ans → Prop} (hG : Orderly due w op)
    (hQ : ∀ r, Q (w.after ⟨op, r⟩) r) : Ensures staged (Orderly due) Q (issue op) w :=
  ensures_perform hG fun r _ hr => hr.2 ▸ hQ r

/-- What a scan leaves: the semaphore is still held, and a scan that finds nothing in flight has listed. -/
def Scanned (w : Stage) (scan : Scan) : Prop :=
  w ≠ .outside ∧ (scan.inflight = false → ∃ jobs, w = .clear jobs none ∧ Summary jobs scan)

theorem scanJobs_orderly (hw : w ≠ .outside) : Ensures staged (Orderly due) Scanned scanJobs w := by
  refine ensures_bind.2 (staged_issue (.listJobs scanFilter) ⟨nofun, nofun, nofun⟩ fun r => ?_)
  cases r with
  | error e =>
    have hsame : w.after ⟨.listJobs scanFilter, .error e⟩ = w := by cases w <;> rfl
    rw [hsame]
    exact ensures_ret.2 ⟨hw, nofun⟩
  | ok jobs =>
    have hsummary := summary_scan jobs
    have hafter : w.after ⟨.listJobs scanFilter, .ok jobs⟩ =
        if scanFilter = scanFilter ∧ (jobs.any fun j => j.state.active) = false then .clear jobs none
        else .inside := by
      cases w with
      | outside => exact absurd rfl hw
      | inside | clear => rfl
    rw [hafter]
    refine ensures_ret.2 ⟨?_, fun hinflight => ⟨jobs, ?_, hsummary⟩⟩
    · split <;> nofun
    · exact if_pos ⟨rfl, hsummary.active hinflight⟩

theorem tickLocked_orderly (hw : w ≠ .outside) (payload : Except Error String) :
    Ensures staged (Orderly fun jobs now => ∃ t, now = some t ∧ Due interval jobs t) (fun w _ => w ≠ .outside)
      (tickLocked interval payload) w := by
  refine (scanJobs_orderly hw).bind fun w scan hscan => ?_
  split
  · exact ensures_ret.2 hscan.1
  · rename_i hinflight
    obtain ⟨jobs, rfl, hsummary⟩ := hscan.2 (by simpa using hinflight)
    refine ensures_bind.2 (staged_issue .now ⟨nofun, nofun, nofun⟩ fun now => ?_)
    split
    · exact ensures_ret.2 nofun
    · split
      · exact ensures_ret.2 nofun
      · rename_i hbacksOff hfresh
        have hdue : Due interval jobs now := hsummary.due (by simpa using hbacksOff) (by simpa using hfresh)
        split
        · exact ensures_ret.2 nofun
        · rename_i args
          refine ensures_bind.2 (staged_issue (.enqueue jobKind args "") ⟨nofun, nofun, ?_⟩ fun r => ?_)
          · exact fun _ _ => ⟨jobs, some now, rfl, now, rfl, hdue⟩
          · exact ensures_ret.2 nofun

theorem tick_orderly (payload : Option (Except Error String)) :
    Ensures staged (Orderly fun jobs now => ∃ t, now = some t ∧ Due interval jobs t) (fun w _ => w = .outside)
      (tick interval payload) .outside := by
  unfold tick
  split
  · exact ensures_ret.2 rfl
  · split
    · exact ensures_ret.2 rfl
    · rename_i payload _
      refine ensures_bind.2 (staged_issue .acquire ⟨fun _ => rfl, nofun, nofun⟩ fun r => ?_)
      cases r with
      | error e => exact ensures_ret.2 rfl
      | ok _ =>
        refine (tickLocked_orderly (w := .inside) nofun payload).bind fun w _ hw => ?_
        exact staged_issue .release ⟨nofun, fun _ => hw, nofun⟩ fun _ => rfl

theorem start_orderly (payloads : List (Option (Except Error String))) :
    Ensures staged (Orderly fun jobs now => ∃ t, now = some t ∧ Due interval jobs t) (fun _ _ => True)
      (start interval payloads) .outside := by
  induction payloads with
  | nil => exact ensures_ret.2 trivial
  | cons payload payloads ih =>
    refine (tick_orderly payload).bind ?_
    rintro _ _ rfl
    exact ih

theorem enqueueLocked_orderly (hw : w ≠ .outside) (payload : Except Error String) :
    Ensures staged (Orderly fun _ _ => True) (fun w _ => w ≠ .outside) (enqueueLocked payload).run w := by
  refine (scanJobs_orderly hw).embedThen fun w scan hscan => ?_
  split
  · exact ensures_throw.2 hscan.1
  · rename_i hinflight
    obtain ⟨jobs, rfl, -⟩ := hscan.2 (by simpa using hinflight)
    cases payload with
    | error e => exact ensures_throw.2 nofun
    | ok args =>
      refine ensures_mapErr.2 (staged_issue (.enqueue jobKind args "") ⟨nofun, nofun, ?_⟩ fun r => ?_)
      · exact fun _ _ => ⟨jobs, none, rfl, trivial⟩
      · nofun

theorem enqueueNow_orderly (payload : Option (Except Error String)) :
    Ensures staged (Orderly fun _ _ => True) (fun _ _ => True) (enqueueNow payload).run .outside := by
  unfold enqueueNow
  split
  · exact ensures_throw.2 trivial
  · rename_i payload
    refine ensures_run_bind.2 (ensures_mapErr.2 (staged_issue .acquire ⟨fun _ => rfl, nofun, nofun⟩ fun r => ?_))
    cases r with
    | error e => exact ⟨nofun, fun _ _ => trivial⟩
    | ok _ =>
      refine ⟨fun _ _ => ?_, nofun⟩
      refine (enqueueLocked_orderly (w := .inside) nofun payload).attemptThen fun w result hw => ?_
      refine Ensures.embedThen (P := fun _ _ => True) ?_ fun w _ _ => ?_
      · exact staged_issue .release ⟨nofun, fun _ => hw, nofun⟩ fun _ => trivial
      · cases result with
        | error e => exact ensures_throw.2 trivial
        | ok job => exact ensures_pure.2 trivial

theorem Role.orderly (role : Role) (hother : ∀ p, role = .other p → p.Issues Elsewhere) :
    Ensures staged (Orderly role.due) (fun _ _ => True) role.program .outside := by
  cases role with
  | ticker interval payloads => exact start_orderly payloads
  | caller payload => exact (enqueueNow_orderly payload).map fun _ _ _ => trivial
  | other p =>
    refine (hother p rfl).ensures (I := fun _ => True) (fun _ _ _ _ _ _ _ => trivial) ?_ trivial
    exact fun w op hop _ => hop.orderly _ w

end Program

/-! ## All threads -/

def Idle (t : JobTable) : Prop :=
  ∀ j ∈ t.list, j.kind = jobKind → j.state.active = false

/-- An active registry prune is the newest of its kind. -/
def Topmost (t : JobTable) : Prop :=
  ∀ j ∈ t.list, j.kind = jobKind → j.state.active = true → ∀ i ∈ t.list, i.kind = jobKind → i.id ≤ j.id

theorem Topmost.idle {t : JobTable} (h : Topmost t)
    (hpage : ((t.page scanFilter).any fun j => j.state.active) = false) : Idle t := by
  intro j hj hkind
  by_contra hactive
  have hactive : j.state.active = true := by simpa using hactive
  have haccepts : ∀ i : Job, scanFilter.accepts i = true ↔ i.kind = jobKind := by
    intro i
    simp [JobFilter.accepts, scanFilter, jobKind]
  have hshown : j ∈ t.page scanFilter :=
    JobTable.page_newest hj ((haccepts j).2 hkind) (by decide)
      fun i hi hi' => h j hj hkind hactive i hi ((haccepts i).1 hi')
  exact List.any_eq_false.1 hpage j hshown hactive

section Table

variable {t t' : JobTable} {op : Op} {r : op.Ans}

theorem idle_kept (h : jobStore t op r t') (hop : ∀ args, op.inserted ≠ some (jobKind, args)) (ht : Idle t) :
    Idle t' := by
  intro j' hj' hkind
  obtain ⟨j, hj, -, hjkind, -, hage⟩ := jobStore_rows h hop hj' hkind
  by_contra hactive
  have hactive : j'.state.active = true := by simpa using hactive
  have hjactive : j.state.active = true :=
    JobState.active_iff.2 (Nat.lt_of_le_of_lt hage (JobState.active_iff.1 hactive))
  rw [ht j hj hjkind] at hjactive
  cases hjactive

theorem topmost_kept (h : jobStore t op r t') (hop : ∀ args, op.inserted ≠ some (jobKind, args))
    (ht : Topmost t) : Topmost t' := by
  intro j' hj' hkind hactive i' hi' hkind'
  obtain ⟨j, hj, hid, hjkind, -, hage⟩ := jobStore_rows h hop hj' hkind
  obtain ⟨i, hi, hid', hikind, -⟩ := jobStore_rows h hop hi' hkind'
  have hjactive : j.state.active = true :=
    JobState.active_iff.2 (Nat.lt_of_le_of_lt hage (JobState.active_iff.1 hactive))
  rw [← hid, ← hid']
  exact ht j hj hjkind hjactive i hi hikind

theorem topmost_inserted (h : jobStore t op r t') {args : String} (hop : op.inserted = some (jobKind, args))
    (hascending : Ascending t t') (ht : Idle t) : Topmost t' := by
  rcases jobStore_inserted h hop with rfl | ⟨new, fresh, hkind, -, rfl⟩
  · intro j hj hkind hactive
    rw [ht j hj hkind] at hactive
    cases hactive
  · have hlast : new ∈ (t.insert new fresh).list := List.mem_append_right _ List.mem_cons_self
    intro j hj hjkind hactive i hi hikind
    rcases List.mem_append.1 hj with hold | hnew
    · rw [ht j hold hjkind] at hactive
      cases hactive
    · rw [List.mem_singleton.1 hnew]
      rcases List.mem_append.1 hi with hold | hsame
      · exact le_of_lt (hascending new hlast fresh i hold (hikind.trans hkind.symm))
      · rw [List.mem_singleton.1 hsame]

end Table

section Stages

variable {w : Stage} {e : Event jobCalls}

theorem Stage.inside_before (h : w.after e ≠ .outside) (he : e.1 ≠ .acquire) : w ≠ .outside := by
  rintro rfl
  unfold Stage.after at h
  split at h
  · exact he rfl
  · exact h rfl
  · exact h rfl
  · exact h rfl
  · exact h rfl

theorem Stage.clear_before {now : Option Time} (h : w.after e = .clear jobs now) :
    (∃ now', w = .clear jobs now' ∧ e.1.inserted = none) ∨
    (e = ⟨.listJobs scanFilter, .ok jobs⟩ ∧ (jobs.any fun j => j.state.active) = false) := by
  unfold Stage.after at h
  split at h
  · cases h
  · cases h
  · split at h
    · cases h
    · split at h
      · rename_i hlisted
        cases h
        exact .inr ⟨by rw [hlisted.1], hlisted.2⟩
      · cases h
  · split at h
    · cases h
      exact .inl ⟨_, rfl, rfl⟩
    · exact .inl ⟨now, h, rfl⟩
  · split at h
    · split at h
      · rename_i hnone
        cases h
        exact .inl ⟨_, rfl, hnone⟩
      · cases h
    · rename_i hnot
      exact absurd h (hnot _ _)

end Stages

section System

variable {ι : Type} [DecidableEq ι] {s s' : Desk ι × (ι → Stage)} {i : ι} {op : Op} {r : op.Ans}

/-- What is true of the jobs, the semaphore and the threads at every moment. -/
structure Safe (s : Desk ι × (ι → Stage)) : Prop where
  holds : ∀ i, s.2 i ≠ .outside → s.1.holder = some i
  topmost : Topmost s.1.table
  clear : ∀ i jobs now, s.2 i = .clear jobs now → Idle s.1.table

omit [DecidableEq ι] in
theorem desk_store {d d' : Desk ι} (h : desk i d op r d') (hacquire : op ≠ .acquire) (hrelease : op ≠ .release) :
    ∃ t, jobStore d.table op r t ∧ Ascending d.table t ∧ d' = { d with table := t } := by
  cases op with
  | acquire => exact absurd rfl hacquire
  | release => exact absurd rfl hrelease
  | _ => exact h

theorem Safe.acquired (hs : Safe s) {r : Except Error Unit} (h : watched Stage.after desk i s .acquire r s') :
    Safe s' := by
  obtain ⟨hdesk, hstages⟩ := h
  cases r with
  | error e =>
    have hsame : s'.1 = s.1 := hdesk
    have hstages : s'.2 = s.2 := by
      rw [hstages]
      refine update_eq_self_iff.2 ?_
      cases s.2 i <;> rfl
    rw [show s' = s from Prod.ext hsame hstages]
    exact hs
  | ok _ =>
    obtain ⟨hfree, hdesk⟩ : s.1.holder = none ∧ s'.1 = { s.1 with holder := some i } := hdesk
    -- nobody has been inside
    have hout : ∀ j, s.2 j = .outside := by
      intro j
      by_contra hj
      rw [hs.holds j hj] at hfree
      cases hfree
    refine ⟨fun j hj => ?_, ?_, fun j jobs now hj => ?_⟩
    · rw [hdesk]
      rw [hstages] at hj
      by_cases hij : j = i
      · rw [hij]
      · rw [update_of_ne hij] at hj
        exact absurd (hout j) hj
    · rw [hdesk]
      exact hs.topmost
    · rw [hstages] at hj
      rcases update_cases hj with ⟨-, hinside⟩ | ⟨-, hold⟩
      · cases hinside
      · rw [hout j] at hold
        cases hold

theorem Safe.released (hs : Safe s) (hi : s.2 i ≠ .outside) {r : Unit}
    (h : watched Stage.after desk i s .release r s') : Safe s' := by
  obtain ⟨⟨-, hdesk⟩, hstages⟩ := h
  have hout : ∀ j, s'.2 j = .outside := by
    intro j
    rw [hstages]
    by_cases hij : j = i
    · rw [hij, update_self]
      rfl
    · rw [update_of_ne hij]
      by_contra hj
      exact hij (Option.some.inj ((hs.holds j hj).symm.trans (hs.holds i hi)))
  refine ⟨fun j hj => absurd (hout j) hj, ?_, fun j jobs now hj => ?_⟩
  · rw [hdesk]
    exact hs.topmost
  · rw [hout j] at hj
    cases hj

theorem Safe.stored {due : List Job → Option Time → Prop} (hs : Safe s) (horderly : Orderly due (s.2 i) op)
    (hacquire : op ≠ .acquire) (hrelease : op ≠ .release) (h : watched Stage.after desk i s op r s') : Safe s' := by
  obtain ⟨hdesk, hstages⟩ := h
  obtain ⟨t, hstore, hascending, hdesk⟩ := desk_store hdesk hacquire hrelease
  have hinside : ∀ j, s'.2 j ≠ .outside → s.1.holder = some j := by
    intro j hj
    refine hs.holds j ?_
    rw [hstages] at hj
    by_cases hij : j = i
    · subst hij
      rw [update_self] at hj
      exact Stage.inside_before hj hacquire
    · rwa [update_of_ne hij] at hj
  have htable : s'.1.table = t := by rw [hdesk]
  refine ⟨fun j hj => ?_, ?_, fun j jobs now hj => ?_⟩
  · rw [hdesk]
    exact hinside j hj
  · rw [htable]
    by_cases hop : ∃ args, op.inserted = some (jobKind, args)
    · obtain ⟨args, hop⟩ := hop
      obtain ⟨jobs, now, hclear, -⟩ := horderly.enqueue args hop
      exact topmost_inserted hstore hop hascending (hs.clear i jobs now hclear)
    · exact topmost_kept hstore (fun args heq => hop ⟨args, heq⟩) hs.topmost
  · rw [htable]
    -- a thread that enqueues is the only one inside, and its listing is used up
    have hkept : (∃ now', s.2 j = .clear jobs now') → (j = i → op.inserted = none) → Idle t := by
      rintro ⟨now', hold⟩ hnone
      refine idle_kept hstore (fun args hop => ?_) (hs.clear j jobs now' hold)
      obtain ⟨jobs', now'', hclear, -⟩ := horderly.enqueue args hop
      have hij : j = i := Option.some.inj
        ((hs.holds j (by rw [hold]; nofun)).symm.trans (hs.holds i (by rw [hclear]; nofun)))
      rw [hnone hij] at hop
      cases hop
    rw [hstages] at hj
    rcases update_cases hj with ⟨rfl, hafter⟩ | ⟨hij, hold⟩
    · rcases Stage.clear_before hafter with ⟨now', hold, hnone⟩ | ⟨he, hlisted⟩
      · exact hkept ⟨now', hold⟩ fun _ => hnone
      · cases he
        obtain ⟨rfl, hpage⟩ : t = s.1.table ∧ _ := hstore
        obtain rfl : jobs = s.1.table.page scanFilter := by
          rcases hpage with hpage | ⟨e, he⟩
          · exact Except.ok.inj hpage
          · cases he
        exact hs.topmost.idle hlisted
    · exact hkept ⟨now, hold⟩ fun heq => absurd heq hij

theorem Safe.step {due : List Job → Option Time → Prop} (hs : Safe s) (horderly : Orderly due (s.2 i) op)
    (h : watched Stage.after desk i s op r s') : Safe s' := by
  by_cases hacquire : op = .acquire
  · subst hacquire
    exact hs.acquired h
  · by_cases hrelease : op = .release
    · subst hrelease
      exact hs.released (horderly.release rfl) h
    · exact hs.stored horderly hacquire hrelease h

def office (t : JobTable) (roles : ι → Role) : Pool jobCalls ι (Desk ι × (ι → Stage)) Unit where
  state := (⟨t, none⟩, fun _ => .outside)
  left i := (roles i).program

/-- What is true of the whole pool at every moment. -/
structure Attended (roles : ι → Role) (y : Pool jobCalls ι (Desk ι × (ι → Stage)) Unit) : Prop where
  orderly : ∀ i, Ensures staged (Orderly (roles i).due) (fun _ _ => True) (y.left i) (y.state.2 i)
  safe : Safe y.state

theorem Attended.step {roles : ι → Role} {y z : Pool jobCalls ι (Desk ι × (ι → Stage)) Unit}
    {e : ι × Event jobCalls} (hy : Attended roles y) (h : Pool.Step (watched Stage.after desk) y e z) :
    Attended roles z := by
  refine ⟨h.ensures (G := fun i => Orderly (roles i).due) (Q := fun _ _ _ => True) (watches_watched _)
    hy.orderly, ?_⟩
  cases h with
  | @answer i op k r s hnext hr =>
    have hcall := hy.orderly i
    rw [hnext, ensures_call] at hcall
    exact hy.safe.step hcall.1 hr

/-- In every interleaving of ticks, requests and other threads, over a store whose statements may fail with or
without effect and a semaphore whose waiters may be canceled: at most one registry prune is active, and a tick
about to enqueue one is due by the jobs it has listed. -/
theorem registry_prune_once (t₀ : JobTable) (ht₀ : Topmost t₀) (roles : ι → Role)
    (hothers : ∀ i p, roles i = .other p → p.Issues Elsewhere) {t : List (ι × Event jobCalls)}
    {y : Pool jobCalls ι (Desk ι × (ι → Stage)) Unit}
    (hrun : Pool.Run (watched Stage.after desk) (office t₀ roles) t y) :
    (∀ j ∈ y.state.1.table.list, ∀ j' ∈ y.state.1.table.list, j.kind = jobKind → j'.kind = jobKind →
      j.state.active = true → j'.state.active = true → j = j') ∧
    ∀ i interval payloads op args, roles i = .ticker interval payloads → (y.left i).next = some op →
      op.inserted = some (jobKind, args) →
        ∃ jobs now, y.state.2 i = .clear jobs (some now) ∧ Due interval jobs now := by
  have hstart : Attended roles (office t₀ roles) := by
    refine ⟨fun i => (roles i).orderly fun p hp => hothers i p hp, ?_⟩
    exact ⟨fun i hi => absurd rfl hi, ht₀, fun i jobs now hi => by cases hi⟩
  have hattended := hrun.invariant (Attended roles) hstart fun _ _ _ hy hstep => hy.step hstep
  constructor
  · intro j hj j' hj' hkind hkind' hactive hactive'
    have hid : j.id = j'.id := le_antisymm (hattended.safe.topmost j' hj' hkind' hactive' j hj hkind)
      (hattended.safe.topmost j hj hkind hactive j' hj' hkind')
    exact List.inj_on_of_nodup_map y.state.1.table.nodup hj hj' hid
  · intro i interval payloads op args hrole hnext hop
    obtain ⟨jobs, now, hclear, hdue⟩ := ((hattended.orderly i).next hnext).enqueue args hop
    rw [hrole] at hdue
    obtain ⟨t, rfl, hdue⟩ := hdue
    exact ⟨jobs, t, hclear, hdue⟩

end System

/-! ## A request that gives up -/

instance (t t' : JobTable) : Decidable (Ascending t t') :=
  inferInstanceAs (Decidable (∀ j' ∈ t'.list, j'.id ∉ t.list.map Job.id → ∀ j ∈ t.list, j.kind = j'.kind → j.id < j'.id))

def impatient {ι : Type} : Answers jobCalls ι (Desk ι) := fun i s op =>
  match op with
  | .acquire =>
    match s.holder with
    | none => some (.ok (), { s with holder := some i })
    | some _ => some (.error (.sentinel .contextCanceled), s)
  | .release => if s.holder.isSome then some ((), { s with holder := none }) else none
  | .now => some (⟨1⟩, s)
  | op => (obedient ⟨1⟩ (fun _ => none) s.table op).bind fun a =>
      if Ascending s.table a.2 then some (a.1, { s with table := a.2 }) else none

theorem obedient_ascending {ι : Type} {s s' : Desk ι} {op : Op} {r : op.Ans}
    (h : ((obedient ⟨1⟩ (fun _ => none) s.table op).bind fun a =>
      if Ascending s.table a.2 then some (a.1, { s with table := a.2 }) else none) = some (r, s')) :
    ∃ t, jobStore s.table op r t ∧ Ascending s.table t ∧ s' = { s with table := t } := by
  obtain ⟨⟨r', t⟩, hstore, hrest⟩ := Option.bind_eq_some_iff.1 h
  split at hrest
  · rename_i hascending
    cases hrest
    exact ⟨t, jobStore_obedient hstore, hascending, rfl⟩
  · cases hrest

theorem desk_impatient {ι : Type} (i : ι) (s : Desk ι) (op : Op) (r : op.Ans) (s' : Desk ι)
    (h : impatient i s op = some (r, s')) : desk i s op r s' := by
  cases op with
  | acquire =>
    unfold impatient at h
    dsimp only at h
    split at h
    · rename_i hfree
      cases h
      exact ⟨hfree, rfl⟩
    · cases h
      rfl
  | release =>
    unfold impatient at h
    dsimp only at h
    split at h
    · rename_i htaken
      cases h
      exact ⟨htaken, rfl⟩
    · cases h
  | now =>
    cases h
    exact ⟨s.table, rfl, fun j' hj' hnew => absurd (List.mem_map_of_mem hj') hnew, rfl⟩
  | _ => exact obedient_ascending h

inductive Clerk where
  | ticker
  | api
  deriving DecidableEq

def clerks : Clerk → Role
  | .ticker => .ticker hour [some (.ok "run"), some (.ok "run")]
  | .api => .caller (some (.ok "run"))

/-- The request gives up while the tick is inside, and the tick is about to enqueue. -/
theorem tick_beside_request : ∃ t y, Pool.Run (watched Stage.after desk) (office .empty clerks) t y ∧
    (y.left .api).returned = some () ∧ (y.left .ticker).next = some (.enqueue jobKind "run" "") ∧
    ∃ jobs now, y.state.2 .ticker = .clear jobs (some now) ∧ Due hour jobs now := by
  obtain ⟨t, y, hrun, htest⟩ := Pool.run_of_play (x := office .empty clerks)
    (Answers.watched_shared (f := Stage.after) desk_impatient) [.ticker, .ticker, .api, .ticker]
    (fun y => (y.left .api).returned == some () &&
      (y.left .ticker).next == some (.enqueue jobKind "run" "")) (by decide +kernel)
  obtain ⟨hreturned, hnext⟩ := Bool.and_eq_true_iff.1 htest
  have hnext := beq_iff_eq.1 hnext
  have honce := registry_prune_once .empty (fun _ h => (List.not_mem_nil h).elim) clerks
    (fun i p hp => by cases i <;> cases hp) hrun
  exact ⟨t, y, hrun, beq_iff_eq.1 hreturned, hnext, honce.2 .ticker _ _ _ _ rfl hnext rfl⟩

end PodmanApi.Jobs.Registry
