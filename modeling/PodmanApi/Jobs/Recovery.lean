/-
# PodmanApi.Jobs.Recovery — jobs across the restarts of the daemon.

A daemon that dies leaves its jobs behind as running. `Runner.Start` of the next one moves those whose kind has
a reconciler to reconciling and fails the rest; only then are workers, the reconcile loop and the HTTP server
there. An operator cancels through the store while a job is queued or reconciling, and through the table of
jobs in flight while it runs.

`System` is what the threads of all these daemons share. A call is answered only while the thread's own daemon
lives, and an entry of the in-flight table points to the flag of the thread that registered it.
-/
import PodmanApi.Jobs.Runner

namespace PodmanApi.Jobs

open GoStd Calls
open Function (update)

/-! ## The programs -/

namespace Runner

variable (r : Runner)

def reconcilableKinds : List String :=
  GoMap.keys r.reconcilers

/-- The statements of `Start`, which only log their errors. -/
def recover : Prog jobCalls Unit := do
  let _ ← issue (.markReconciling r.reconcilableKinds)
  let _ ← issue (.failRunning "interrupted by daemon restart")
  pure ()

/-- `Start` in a new process, up to where its goroutines go their own ways. -/
def start : Prog jobCalls Unit := do
  let _ ← issue .boot
  r.recover
  issue .ready

/-- The outcome of a reconciler is recorded only if it settles the job, and by compare and swap. -/
def settle (id : String) : Except Error (JobState × String × Bool) → Prog jobCalls Unit
  | .ok (state, message, true) => do
    let _ ← issue (.resolveReconciling id state message)
    pure ()
  | _ => pure ()

def reconcileOne (job : Job) (reconciler : Reconciler) : Prog jobCalls Unit := do
  let _ ← issue (.enter job.id)
  let _ ← issue (.reconcile job.id)
  let result ← (reconciler job).run
  let _ ← issue (.leave job.id)
  settle job.id result

/-- A goroutine of `reconcileSweep`: it waits to be launched with a job. -/
def goroutine : Prog jobCalls Unit := do
  let job ← issue .started
  match GoMap.get? r.reconcilers job.kind with
  | none => pure ()
  | some reconciler =>
    reconcileOne job reconciler
    issue .ended

/-- The loop of `reconcileSweep`. -/
def launchEach : List Job → Prog jobCalls Unit
  | [] => issue .join
  | job :: jobs =>
    if GoMap.has r.reconcilers job.kind then do
      if ← issue (.launch job) then launchEach jobs else issue .join
    else launchEach jobs

def sweepFilter : JobFilter where
  state := some .reconciling
  limit := maxJobLimit

def reconcileSweep : Prog jobCalls Unit := do
  match ← issue .ctxErr with
  | .error _ => pure ()
  | .ok _ =>
    match ← issue (.listJobs sweepFilter) with
    | .error _ => pure ()
    | .ok jobs => r.launchEach jobs

def reconcileLoop : Nat → Prog jobCalls Unit
  | 0 => pure ()
  | sweeps + 1 => do
    r.reconcileSweep
    reconcileLoop sweeps

end Runner

inductive CancelReply where
  | accepted (job : Job)
  | conflict (code message : String)
  | error (e : Error)
  deriving DecidableEq

def CancelReply.terminal : CancelReply :=
  .conflict "job_terminal" "job is already in a terminal state"

def writeCancelConflict (id : String) : Prog jobCalls CancelReply := do
  match ← issue (.getJob id) with
  | .error e => pure (.error e)
  | .ok j =>
    if j.state.active then pure (.conflict "job_not_cancelable" "job is not yet cancelable; retry shortly")
    else pure .terminal

def writeAcceptedJob (id : String) : Prog jobCalls CancelReply := do
  match ← issue (.getJob id) with
  | .error e => pure (.error e)
  | .ok j => pure (.accepted j)

/-- The cancellation of a job in flight, which the runner may no longer or not yet know. -/
def cancelInflight (id : String) : Prog jobCalls CancelReply := do
  if ← issue (.cancel id) then writeAcceptedJob id else writeCancelConflict id

/-- `cancelJob`, with a job store and a runner. -/
def cancelJob (id : String) : Prog jobCalls CancelReply := do
  match ← issue (.getJob id) with
  | .error e => pure (.error e)
  | .ok j =>
    match j.state with
    | .succeeded | .failed | .canceled => pure .terminal
    | .running => cancelInflight id
    | .reconciling =>
      match ← issue (.cancelReconciling id) with
      | .error e => pure (.error e)
      | .ok true => do
        let _ ← issue (.cancel id)
        writeAcceptedJob id
      | .ok false => writeCancelConflict id
    | .queued =>
      match ← issue (.cancelQueued id) with
      | .error e => pure (.error e)
      | .ok true => writeAcceptedJob id
      | .ok false => cancelInflight id

/-- How `runChild` records a move that failed: a canceled parent cancels its children. -/
def childState (e : Error) : JobState :=
  if e.is .contextCanceled then .canceled else .failed

/-- `runChild` of an evacuation: a job that is running from the start and that no worker claims. -/
def runChild (args : Except Error String) (parentID : String) (mig : String → Work Unit) : Work Unit := do
  match args with
  | .error e => throw (.wrap "marshal child args: " e "")
  | .ok args =>
    let child ← Act.mapErr (fun e => .wrap "start child job: " e "")
      (Act.lift (issue (.startChild "migrate" args parentID)))
    match ← Act.attempt (mig child.id) with
    | .ok _ =>
      Act.mapErr (fun e => .wrap "finish child job: " e "") (Act.lift (issue (.finish child.id .succeeded "")))
    | .error e =>
      let _ ← ask (.finish child.id (childState e) (Error.string e))
      throw e

/-- `StartRetention`, for the cutoffs of its sweeps. -/
def retention (cutoffs : List Time) : Prog jobCalls Unit :=
  cutoffs.foldlM (fun _ cutoff => do
    let _ ← issue (.pruneJobs cutoff)
    pure ()) ()

/-! ## What the daemons share -/

/-- The table of jobs; how many daemons there have been, and whether the present one has started; the flags of the
registered entries and the in-flight table; the jobs whose goroutine has not begun, and the number of goroutines;
and every id that has been in use. -/
structure System (ι : Type) where
  table : JobTable
  life : Nat
  serving : Bool
  canceled : ι → Bool
  inflight : String → Option ι
  launched : List Job
  busy : Nat
  used : List String

def System.down {ι : Type} (t : JobTable) : System ι where
  table := t
  life := 0
  serving := false
  canceled _ := false
  inflight _ := none
  launched := []
  busy := 0
  used := t.list.map Job.id

/-- The statements that are made before the workers are there. -/
def Op.early : Op → Bool
  | markReconciling _ | failRunning _ => true
  | _ => false

variable {state : JobState} {j : Job} {α : Type} {now : Time}

section System

variable {ι : Type} [DecidableEq ι]

/-- An id that is gone does not come back: it has the time and a random number in it. -/
def System.Fresh (s : System ι) (t : JobTable) : Prop :=
  ∀ j ∈ t.list, j.id ∈ s.used → j.id ∈ s.table.list.map Job.id

def System.withTable (s : System ι) (t : JobTable) : System ι :=
  { s with table := t, used := t.list.map Job.id ++ s.used }

def System.boot (s : System ι) : System ι :=
  { s with life := s.life + 1, serving := false, inflight := fun _ => none, launched := [], busy := 0 }

def System.enter (s : System ι) (i : ι) (id : String) : System ι :=
  { s with
    canceled := update s.canceled i false
    inflight := update s.inflight id (some i) }

def System.leave (s : System ι) (id : String) : System ι :=
  { s with inflight := update s.inflight id none }

def System.cancel (s : System ι) (id : String) : Bool × System ι :=
  match s.inflight id with
  | none => (false, s)
  | some i => (true, { s with canceled := update s.canceled i true })

/-- The system as the threads of its daemons share it; `life i` is the daemon that thread `i` belongs to. -/
def system (workers : Nat) (life : ι → Nat) : Shared jobCalls ι (System ι) := fun i s op r s' =>
  match op, r with
  | .boot, _ => life i = s.life + 1 ∧ s' = s.boot
  | .ready, _ => life i = s.life ∧ s' = { s with serving := true }
  | .enter id, _ => life i = s.life ∧ s.serving = true ∧ s' = s.enter i id
  | .leave id, canceled => life i = s.life ∧ s.serving = true ∧ canceled = s.canceled i ∧ s' = s.leave id
  | .cancel id, known => life i = s.life ∧ s.serving = true ∧ (known, s') = s.cancel id
  | .launch job, true => life i = s.life ∧ s.serving = true ∧ s.busy < workers ∧
      s' = { s with launched := s.launched ++ [job], busy := s.busy + 1 }
  | .launch _, false => life i = s.life ∧ s.serving = true ∧ s' = s
  | .started, job => life i = s.life ∧ s.serving = true ∧ job ∈ s.launched ∧
      s' = { s with launched := s.launched.erase job }
  | .reconcile _, _ => life i = s.life ∧ s.serving = true ∧ s' = s
  | .ended, _ => life i = s.life ∧ s.serving = true ∧ s' = { s with busy := s.busy - 1 }
  | .join, _ => life i = s.life ∧ s.serving = true ∧ s.busy = 0 ∧ s' = s
  | op, r => life i = s.life ∧ (op.early = false → s.serving = true) ∧
      ∃ t, jobStore s.table op r t ∧ s.Fresh t ∧ s' = s.withTable t

/-! A daemon whose store does as it is told. -/

/-- The present daemon serves, and the thread is one of its own. -/
def System.Serves (life : ι → Nat) (i : ι) (s : System ι) : Prop :=
  life i = s.life ∧ s.serving = true

instance (life : ι → Nat) (i : ι) (s : System ι) : Decidable (s.Serves life i) :=
  inferInstanceAs (Decidable (_ ∧ _))

instance (s : System ι) (t : JobTable) : Decidable (s.Fresh t) :=
  inferInstanceAs (Decidable (∀ j ∈ t.list, j.id ∈ s.used → j.id ∈ s.table.list.map Job.id))

/-- An answer for a thread of a daemon that serves. -/
def System.serve {α : Type} (life : ι → Nat) (i : ι) (s : System ι) (answer : α × System ι) :
    Option (α × System ι) :=
  if s.Serves life i then some answer else none

/-- The answers of the system when nothing fails; `rest` answers what is not modelled. -/
def System.reply (workers : Nat) (life : ι → Nat) (now : Time) (rest : (op : Op) → Option op.Ans) :
    Answers jobCalls ι (System ι) := fun i s op =>
  match op with
  | .boot => if life i = s.life + 1 then some ((), s.boot) else none
  | .ready => if life i = s.life then some ((), { s with serving := true }) else none
  | .enter id => s.serve life i ((), s.enter i id)
  | .leave id => s.serve life i (s.canceled i, s.leave id)
  | .cancel id => s.serve life i (s.cancel id)
  | .launch job =>
    if s.busy < workers then
      s.serve life i (true, { s with launched := s.launched ++ [job], busy := s.busy + 1 })
    else none
  | .started =>
    match s.launched with
    | [] => none
    | job :: _ => s.serve life i (job, { s with launched := s.launched.erase job })
  | .reconcile _ => s.serve life i ((), s)
  | .ended => s.serve life i ((), { s with busy := s.busy - 1 })
  | .join => if s.busy = 0 then s.serve life i ((), s) else none
  | op =>
    if life i = s.life ∧ (op.early = false → s.serving = true) then
      match obedient now rest s.table op with
      | none => none
      | some (r, t) => if s.Fresh t then some (r, s.withTable t) else none
    else none

omit [DecidableEq ι] in
theorem serve_eq_some {life : ι → Nat} {i : ι} {s s' : System ι} {answer : α × System ι} {r : α}
    (h : s.serve life i answer = some (r, s')) : life i = s.life ∧ s.serving = true ∧ answer = (r, s') := by
  unfold System.serve at h
  split at h
  · rename_i hserves
    exact ⟨hserves.1, hserves.2, Option.some.inj h⟩
  · cases h

theorem system_reply {workers : Nat} {life : ι → Nat} {rest : (op : Op) → Option op.Ans} (i : ι)
    (s : System ι) (op : Op) (r : op.Ans) (s' : System ι)
    (h : System.reply workers life now rest i s op = some (r, s')) : system workers life i s op r s' := by
  cases op with
  | boot | ready =>
    dsimp only [System.reply] at h
    split at h
    · rename_i hlife
      cases h
      exact ⟨hlife, rfl⟩
    · cases h
  | enter id | reconcile id | ended =>
    obtain ⟨hlife, hserving, heq⟩ := serve_eq_some h
    cases heq
    exact ⟨hlife, hserving, rfl⟩
  | leave id =>
    obtain ⟨hlife, hserving, heq⟩ := serve_eq_some h
    cases heq
    exact ⟨hlife, hserving, rfl, rfl⟩
  | cancel id =>
    obtain ⟨hlife, hserving, heq⟩ := serve_eq_some h
    exact ⟨hlife, hserving, heq.symm⟩
  | launch job | join =>
    dsimp only [System.reply] at h
    split at h
    · rename_i hbusy
      obtain ⟨hlife, hserving, heq⟩ := serve_eq_some h
      cases heq
      exact ⟨hlife, hserving, hbusy, rfl⟩
    · cases h
  | started =>
    dsimp only [System.reply] at h
    split at h
    · cases h
    · rename_i job jobs hjobs
      obtain ⟨hlife, hserving, heq⟩ := serve_eq_some h
      cases heq
      exact ⟨hlife, hserving, hjobs ▸ List.mem_cons_self, rfl⟩
  | _ =>
    dsimp only [System.reply] at h
    split at h
    · rename_i hmay
      split at h
      · cases h
      · rename_i ans t hans
        split at h
        · rename_i hfresh
          cases h
          exact ⟨hmay.1, hmay.2, t, jobStore_obedient hans, hfresh, rfl⟩
        · cases h
    · cases h

end System

/-! ## What one call does to one job -/

/-- The ways in which a call of the job store alters a job: it appears, moves or goes. -/
def Op.Alters (op : Op) (id : String) (a b : Option JobState) : Prop :=
  match op, a, b with
  | .enqueue _ _ _, none, some .queued => True
  | .startChild _ _ _, none, some .running => True
  | .claim _, some .queued, some .running => True
  | .finish id' state _, some _, some state' => id = id' ∧ state' = state ∧ state.active = false
  | .failRunning _, some .running, some .failed => True
  | .markReconciling _, some .running, some .reconciling => True
  | .resolveReconciling id' state _, some .reconciling, some state' => id = id' ∧ state' = state ∧
      (state = .succeeded ∨ state = .failed)
  | .cancelReconciling id', some .reconciling, some .canceled => id = id'
  | .cancelQueued id', some .queued, some .canceled => id = id'
  | .pruneJobs _, some state, none => state.active = false
  | _, _, _ => False

section Alters

variable {t t' : JobTable} {id : String}

variable {op : Op} {a : Option JobState}

theorem Commits.alters {next : JobTable} {a : α} {r : Except Error α} (h : Commits t next a r t')
    (hnext : next.stateOf id = t.stateOf id ∨ op.Alters id (t.stateOf id) (next.stateOf id)) :
    t'.stateOf id = t.stateOf id ∨ op.Alters id (t.stateOf id) (t'.stateOf id) := by
  cases h with
  | done => exact hnext
  | unsure e => exact hnext
  | failed e => exact .inl rfl

theorem insert_alters (fresh : j.id ∉ t.list.map Job.id) : (t.insert j fresh).stateOf id = t.stateOf id ∨
      (t.stateOf id = none ∧ (t.insert j fresh).stateOf id = some j.state) := by
  by_cases hid : j.id = id
  · subst hid
    refine .inr ⟨t.stateOf_eq_none.2 fresh, ?_⟩
    rw [JobTable.stateOf, t.get_insert fresh, if_pos rfl, Option.map_some]
  · refine .inl ?_
    rw [JobTable.stateOf, t.get_insert fresh, if_neg hid, JobTable.stateOf]

theorem prune_alters (cutoff : Time) : (t.pruneJobs cutoff).stateOf id = t.stateOf id ∨
      ∃ state, t.stateOf id = some state ∧ state.active = false ∧ (t.pruneJobs cutoff).stateOf id = none := by
  have hfinal : ∀ j, JobTable.expired cutoff j = true → j.state.active = false := by
    intro j hj
    simp only [JobTable.expired, Bool.and_eq_true, Bool.not_eq_true'] at hj
    exact hj.1.1
  unfold JobTable.pruneJobs
  set rest := t.remove fun j => j.parentID != "" && JobTable.expired cutoff j
  rcases rest.stateOf_remove (fun j => JobTable.expired cutoff j && !rest.list.any (·.childOf j)) id
    with hsecond | ⟨j, hj, rfl, hgone, hnone⟩
  · rw [hsecond]
    rcases t.stateOf_remove (fun j => j.parentID != "" && JobTable.expired cutoff j) id with
      hfirst | ⟨j, hj, rfl, hgone, hnone⟩
    · exact .inl hfirst
    · exact .inr ⟨_, t.stateOf_of_mem hj, hfinal j (Bool.and_eq_true_iff.1 hgone).2, hnone⟩
  · exact .inr ⟨_, t.stateOf_of_mem (List.mem_filter.1 hj).1, hfinal j (Bool.and_eq_true_iff.1 hgone).1, hnone⟩

theorem mark_alters {which : Job → Bool} {f : Job → Job} {hid : ∀ j, (f j).id = j.id}
    (h : ∀ j, j.id = id → which j = true → op.Alters id (some j.state) (some (f j).state)) :
    (t.mark which f hid).stateOf id = t.stateOf id ∨
      op.Alters id (t.stateOf id) ((t.mark which f hid).stateOf id) := by
  rcases t.stateOf_mark id with hsame | ⟨j, hj, hjid, hwhich, hstate⟩
  · exact .inl hsame
  · rw [hstate, ← hjid, t.stateOf_of_mem hj, hjid]
    exact .inr (h j hjid hwhich)

theorem beq_state (h : (j.state == state) = true) : j.state = state :=
  beq_iff_eq.1 h

theorem cancelFrom_alters {id' : String} (h : op.Alters id' (some state) (some .canceled)) :
    (t.cancelFrom state id' now).stateOf id = t.stateOf id ∨
      op.Alters id (t.stateOf id) ((t.cancelFrom state id' now).stateOf id) := by
  refine mark_alters fun j hj hwhich => ?_
  obtain ⟨hid, hstate⟩ := Bool.and_eq_true_iff.1 hwhich
  rw [beq_state hstate, ← hj, beq_iff_eq.1 hid]
  exact h

theorem jobStore_state {r : op.Ans} (h : jobStore t op r t') (id : String) :
    t'.stateOf id = t.stateOf id ∨ op.Alters id (t.stateOf id) (t'.stateOf id) := by
  cases op with
  | enqueue kind args parentID | startChild kind args parentID =>
    obtain ⟨j, fresh, hins, hcommits⟩ := h
    refine hcommits.alters ((insert_alters fresh).imp_right ?_)
    rintro ⟨hnone, hnew⟩
    rw [hnone, hnew, hins.2.2.2.1]
    trivial
  | claim scope =>
    unfold jobStore at h
    dsimp only at h
    split at h
    · exact .inl (h.1 ▸ rfl)
    · obtain ⟨now, hcommits⟩ := h
      refine hcommits.alters (mark_alters fun j _ hwhich => ?_)
      rw [beq_state (Bool.and_eq_true_iff.1 hwhich).2]
      trivial
  | finish id' state msg =>
    unfold jobStore at h
    dsimp only at h
    split at h
    · exact .inl (h.1 ▸ rfl)
    · rename_i hvalid
      obtain ⟨now, hcommits⟩ := h
      unfold JobTable.finish JobTable.conclude at hcommits
      refine hcommits.alters (mark_alters fun j hj hwhich => ?_)
      exact ⟨hj.symm.trans (beq_iff_eq.1 hwhich), rfl, by simpa using fun h => hvalid (.inl h)⟩
  | failRunning reason =>
    obtain ⟨now, hcommits⟩ := h
    unfold JobTable.failRunning JobTable.conclude at hcommits
    refine hcommits.alters (mark_alters fun j _ hwhich => ?_)
    rw [beq_state hwhich]
    trivial
  | markReconciling kinds =>
    refine Commits.alters h (mark_alters fun j _ hwhich => ?_)
    rw [beq_state (Bool.and_eq_true_iff.1 hwhich).1]
    trivial
  | resolveReconciling id' state msg =>
    unfold jobStore at h
    dsimp only at h
    split at h
    · rename_i hvalid
      obtain ⟨now, hcommits⟩ := h
      unfold JobTable.resolveReconciling JobTable.conclude at hcommits
      refine hcommits.alters (mark_alters fun j hj hwhich => ?_)
      obtain ⟨hid, hstate⟩ := Bool.and_eq_true_iff.1 hwhich
      rw [beq_state hstate]
      exact ⟨hj.symm.trans (beq_iff_eq.1 hid), rfl, hvalid⟩
    · exact .inl (h.1 ▸ rfl)
  | cancelReconciling id' | cancelQueued id' =>
    obtain ⟨now, hcommits⟩ := h
    exact hcommits.alters (cancelFrom_alters rfl)
  | pruneJobs cutoff =>
    refine Commits.alters h ((prune_alters cutoff).imp_right ?_)
    rintro ⟨state, hstate, hfinal, hnone⟩
    rw [hstate, hnone]
    exact hfinal
  | getJob | listJobs | rotation => exact .inl (h.1 ▸ rfl)
  | _ => exact .inl (h ▸ rfl)

/-! The alterations, by where they lead to and by where they come from. -/

theorem alters_to_queued (h : op.Alters id a (some .queued)) : a = none := by
  unfold Op.Alters at h
  split at h <;> grind [JobState.active]

theorem alters_to_running (h : op.Alters id a (some .running)) :
    (a = none ∨ a = some .queued) ∧ op.early = false := by
  unfold Op.Alters at h
  split at h <;> grind [JobState.active, Op.early]

theorem alters_to_reconciling (h : op.Alters id a (some .reconciling)) : a = some .running ∧ op.early = true := by
  unfold Op.Alters at h
  split at h <;> grind [JobState.active, Op.early]

theorem alters_from_running {b : Option JobState} (h : op.Alters id (some .running) b) :
    op.early = true ∨ ∃ state msg, op = .finish id state msg ∧ b = some state := by
  unfold Op.Alters at h
  split at h <;> grind [JobState.active, Op.early]

theorem alters_from_final {b : Option JobState} (hfinal : state.active = false)
    (h : op.Alters id (some state) b) : b = none ∨ ∃ state' msg, op = .finish id state' msg := by
  unfold Op.Alters at h
  split at h <;> simp_all [JobState.active]

/-! What an answer tells about the job it names. -/

theorem claim_answer {scope : ClaimScope} {job : Job} (h : jobStore t (.claim scope) (.ok (some job)) t') :
    t.stateOf job.id = some .queued ∧ t'.stateOf job.id = some .running := by
  unfold jobStore at h
  dsimp only at h
  split at h
  · rcases h with ⟨-, h | ⟨e, h⟩⟩ <;> cases h
  · rename_i j hclaim
    obtain ⟨now, hcommits⟩ := h
    cases hcommits
    obtain ⟨hmem, hqueued⟩ := List.mem_filter.1 ((List.mem_insertionSort _).1 (List.mem_of_head? hclaim))
    have hstate : j.state = .queued := beq_state (Bool.and_eq_true_iff.1 hqueued).1
    refine ⟨(t.stateOf_of_mem hmem).trans (congrArg some hstate), ?_⟩
    refine (t.stateOf_mark_of_mem hmem).trans ?_
    simp [hstate]

theorem startChild_answer {kind args parentID : String}
    (h : jobStore t (.startChild kind args parentID) (.ok j) t') :
    t.stateOf j.id = none ∧ t'.stateOf j.id = some .running := by
  obtain ⟨j', fresh, hins, hcommits⟩ := h
  cases hcommits
  refine ⟨t.stateOf_eq_none.2 fresh, ?_⟩
  rw [JobTable.stateOf, t.get_insert fresh, if_pos rfl, Option.map_some, hins.2.2.2.1]

theorem getJob_answer (h : jobStore t (.getJob id) (.ok j) t') : t.stateOf id = some j.state := by
  rcases h with ⟨-, h | ⟨e, h⟩⟩
  · cases hget : t.get id with
    | none => rw [hget] at h; cases h
    | some j' =>
      rw [hget] at h
      cases h
      rw [JobTable.stateOf, hget, Option.map_some]
  · cases h

theorem listJobs_answer {f : JobFilter} {jobs : List Job} (h : jobStore t (.listJobs f) (.ok jobs) t') :
    ∀ j ∈ jobs, j ∈ t.list ∧ f.accepts j = true := by
  rcases h with ⟨-, h | ⟨e, h⟩⟩
  · cases h
    intro j hj
    exact List.mem_filter.1 ((List.mem_insertionSort _).1 (List.mem_of_mem_take hj))
  · cases h

theorem cancelFrom_state (h : (t.list.any fun row => row.id == id && row.state == state) = true) :
    t.stateOf id = some state ∧ (t.cancelFrom state id now).stateOf id = some .canceled := by
  obtain ⟨j, hmem, hj⟩ := List.any_eq_true.1 h
  obtain ⟨hid, hstate⟩ := Bool.and_eq_true_iff.1 hj
  obtain rfl := beq_iff_eq.1 hid
  refine ⟨(t.stateOf_of_mem hmem).trans (congrArg some (beq_state hstate)), ?_⟩
  refine (t.stateOf_mark_of_mem hmem).trans ?_
  rw [if_pos hj]

theorem cancelQueued_answer (h : jobStore t (.cancelQueued id) (.ok true) t') :
    t.stateOf id = some .queued ∧ t'.stateOf id = some .canceled := by
  obtain ⟨now, hcommits⟩ := h
  generalize hfound : (t.list.any fun row => row.id == id && row.state == .queued) = b at hcommits
  cases hcommits
  exact cancelFrom_state hfound

theorem cancelReconciling_answer (h : jobStore t (.cancelReconciling id) (.ok true) t') :
    t.stateOf id = some .reconciling ∧ t'.stateOf id = some .canceled := by
  obtain ⟨now, hcommits⟩ := h
  generalize hfound : (t.list.any fun row => row.id == id && row.state == .reconciling) = b at hcommits
  cases hcommits
  exact cancelFrom_state hfound

end Alters

/-! ## A start whose statements may fail -/

inductive Fate where
  | done
  | failed (e : Error)
  | unsure (e : Error)

def Fate.effective : Fate → Bool
  | done | unsure _ => true
  | failed _ => false

def Fate.commit {α : Type} (t t' : JobTable) (a : α) : Fate → Except Error α × JobTable
  | done => (.ok a, t')
  | failed e => (.error e, t)
  | unsure e => (.error e, t')

theorem Fate.commit_table (f : Fate) (t t' : JobTable) (a : α) :
    (f.commit t t' a).2 = if f.effective then t' else t := by
  cases f <;> rfl

theorem commits_iff {t t' t'' : JobTable} {a : α} {r : Except Error α} :
    Commits t t' a r t'' ↔ ∃ f : Fate, f.commit t t' a = (r, t'') := by
  constructor
  · intro h
    cases h with
    | done => exact ⟨.done, rfl⟩
    | failed e => exact ⟨.failed e, rfl⟩
    | unsure e => exact ⟨.unsure e, rfl⟩
  · rintro ⟨f, hf⟩
    cases f with
    | done => cases hf; exact .done
    | failed e => cases hf; exact .failed e
    | unsure e => cases hf; exact .unsure e

/-- The job store with the fates of the two statements of `Start`; `rest` answers everything else. -/
def fated (mark fail : Fate) (now : Time) (rest : (op : Op) → op.Ans) : Handler jobCalls JobTable
  | t, .markReconciling kinds => mark.commit t (t.markReconciling kinds)
      (t.count fun row => row.state == .running && kinds.contains row.kind)
  | t, .failRunning reason => fail.commit t (t.failRunning reason now) (t.count (·.state == .running))
  | t, op => (rest op, t)

section Start

variable {r : Runner} {t t' : JobTable} {mark fail : Fate} {now : Time} {rest : (op : Op) → op.Ans}

/-- The table after the first statement of `Start`. -/
def Runner.marked (r : Runner) (mark : Fate) (t : JobTable) : JobTable :=
  if mark.effective then t.markReconciling r.reconcilableKinds else t

theorem recover_table : (r.recover.eval (fated mark fail now rest) t).2.2 =
    if fail.effective then (r.marked mark t).failRunning "interrupted by daemon restart" now
    else r.marked mark t := by
  have hmark : (fated mark fail now rest t (.markReconciling r.reconcilableKinds)).2 = r.marked mark t :=
    mark.commit_table _ _ _
  show (fail.commit (fated mark fail now rest t _).2 _ _).2 = _
  rw [fail.commit_table, hmark]

theorem recover_no_reconcile {id : String} {e : Event jobCalls}
    (he : e ∈ (r.recover.eval (fated mark fail now rest) t).2.1) : e.1 ≠ .reconcile id := by
  rcases List.mem_cons.1 he with rfl | he
  · exact nofun
  · rw [List.mem_singleton.1 he]
    exact nofun

theorem recover_fated {trace : List (Event jobCalls)}
    (h : Exec jobStore t r.recover trace t' (.ret ())) (rest : (op : Op) → op.Ans) :
    ∃ mark fail now, (r.recover.eval (fated mark fail now rest) t).2 = (trace, t') := by
  cases h with
  | step hmark h =>
    cases h with
    | step hfail h =>
      cases h
      obtain ⟨mark, hmark⟩ := commits_iff.1 hmark
      obtain ⟨now, hfail⟩ := hfail
      obtain ⟨fail, hfail⟩ := commits_iff.1 hfail
      refine ⟨mark, fail, now, ?_⟩
      have hfirst : fated mark fail now rest t (.markReconciling r.reconcilableKinds) = _ := hmark
      have hsecond : fated mark fail now rest _ (.failRunning "interrupted by daemon restart") = _ := hfail
      show (Prog.eval (Γ := jobCalls) _
        (.call (Op.markReconciling _) fun _ => .call (Op.failRunning _) fun _ => .ret ()) t).2 = _
      simp only [Prog.eval, hfirst, hsecond]

/-- A running job that the first statement was to keep. -/
def Runner.Kept (r : Runner) (t : JobTable) (j : Job) : Prop :=
  j ∈ t.list ∧ j.state = .running ∧ j.kind ∈ r.reconcilableKinds

theorem marked_state (hj : r.Kept t j) :
    (r.marked mark t).stateOf j.id = some (if mark.effective then .reconciling else .running) := by
  obtain ⟨hmem, hstate, hkind⟩ := hj
  unfold Runner.marked
  split
  · refine (t.stateOf_mark_of_mem hmem).trans ?_
    simp [hstate, hkind]
  · rw [t.stateOf_of_mem hmem, hstate]

theorem failRunning_state {id reason : String} (h : t.stateOf id = some state) :
    (t.failRunning reason now).stateOf id = some (if state = .running then .failed else state) := by
  obtain ⟨j, hget, rfl⟩ := Option.map_eq_some_iff.1 h
  obtain ⟨hmem, rfl⟩ := (t.get_eq_some).1 hget
  unfold JobTable.failRunning JobTable.conclude
  rw [t.stateOf_mark_of_mem hmem]
  simp only [beq_iff_eq]
  split <;> rfl

theorem recover_state (hj : r.Kept t j) :
    (r.recover.eval (fated mark fail now rest) t).2.2.stateOf j.id = some .failed ↔
      mark.effective = false ∧ fail.effective = true := by
  rw [recover_table]
  have hmarked : (r.marked mark t).stateOf j.id = _ := marked_state hj
  cases hmark : mark.effective <;> cases hfail : fail.effective <;>
    simp [hmark, hmarked, failRunning_state hmarked]

end Start

/-- No running job of a kind with a reconciler is failed by `Start` before its reconciler has run, exactly when
the first statement takes effect, the second does not, or there is no such job. -/
theorem start_spares_reconcilable (r : Runner) (t : JobTable) (mark fail : Fate) (now : Time)
    (rest : (op : Op) → op.Ans) : (∀ j ∈ t.list, j.state = .running → j.kind ∈ r.reconcilableKinds →
      (r.recover.eval (fated mark fail now rest) t).2.2.stateOf j.id = some .failed →
      ∃ e ∈ (r.recover.eval (fated mark fail now rest) t).2.1, e.1 = .reconcile j.id) ↔
    (mark.effective = true ∨ fail.effective = false ∨
      ∀ j ∈ t.list, j.state = .running → j.kind ∉ r.reconcilableKinds) := by
  constructor
  · intro hspares
    by_contra hcond
    push Not at hcond
    obtain ⟨hmark, hfail, j, hmem, hstate, hkind⟩ := hcond
    obtain ⟨e, he, hrec⟩ := hspares j hmem hstate hkind
      ((recover_state ⟨hmem, hstate, hkind⟩).2 ⟨by simpa using hmark, by simpa using hfail⟩)
    exact recover_no_reconcile he hrec
  · rintro hcond j hmem hstate hkind hfailed
    obtain ⟨hmark, hfail⟩ := (recover_state ⟨hmem, hstate, hkind⟩).1 hfailed
    rcases hcond with h | h | h
    · rw [hmark] at h
      cases h
    · rw [hfail] at h
      cases h
    · exact absurd hkind (h j hmem hstate)

def moveRunner : Runner where
  handlers _ := none
  rotates := false
  reconcilers := [("migrate", fun _ => pure (.failed, "", false))]

def interruptedMove : JobTable where
  list := [newJob "0" "migrate" "" "" .running ⟨1⟩]
  nodup := by decide

/-- The first statement of `Start` fails, as it does when the database is busy for too
long, and the second one does not: the interrupted move is failed, and nobody has looked at it. -/
theorem start_fails_move : ∃ r : Runner, ∃ t : JobTable, ∃ mark fail : Fate, ∃ j ∈ t.list,
    j.state = .running ∧ j.kind ∈ r.reconcilableKinds ∧ ∀ now rest,
      (r.recover.eval (fated mark fail now rest) t).2.2.stateOf j.id = some .failed ∧
      ¬∃ e ∈ (r.recover.eval (fated mark fail now rest) t).2.1, e.1 = .reconcile j.id := by
  have hkept : moveRunner.Kept interruptedMove (newJob "0" "migrate" "" "" .running ⟨1⟩) :=
    ⟨List.mem_singleton_self _, rfl, List.mem_singleton_self _⟩
  obtain ⟨hmem, hstate, hkind⟩ := hkept
  refine ⟨moveRunner, interruptedMove, .failed (.sentinel .contextCanceled), .done, _, hmem, hstate, hkind, ?_⟩
  intro now rest
  refine ⟨(recover_state ⟨hmem, hstate, hkind⟩).2 ⟨rfl, rfl⟩, ?_⟩
  rintro ⟨e, he, hrec⟩
  exact recover_no_reconcile he hrec

end PodmanApi.Jobs
