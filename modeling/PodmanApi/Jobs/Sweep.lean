/-
# PodmanApi.Jobs.Sweep — a canceled job and the sweep that has listed it.

A reconcile sweep works from one listing. It may wait long for a slot, and the goroutine that it launches calls
the reconciler without looking at the job again, also when the job was canceled in between
(`canceled_job_is_reconciled`). `SweepLog` keeps what each sweep has listed and not yet dealt with, and the
cancellations that succeeded.
-/
import PodmanApi.Jobs.Course

namespace PodmanApi.Jobs

open GoStd Calls
open Function (update update_self update_of_ne update_eq_self)

/-! ## What has happened -/

/-- For each thread, the jobs that it is going to have reconciled; and the jobs that were canceled while they
were reconciling. -/
structure SweepLog (ι : Type) where
  todo : ι → List String
  canceled : List String

def SweepLog.empty {ι : Type} : SweepLog ι := ⟨fun _ => [], []⟩

/-- What a thread is going to have reconciled, after one more answered call. A sweep passes over the jobs
that have no reconciler. -/
def pend (r : Runner) (role : Role) (todo : List String) (op : Op) (ans : op.Ans) : List String :=
  match role, op, ans with
  | .reconcileLoop _, .listJobs _, .ok jobs =>
    (jobs.filter fun j => j.state == .reconciling && GoMap.has r.reconcilers j.kind).map Job.id
  | .reconcileLoop _, .launch job, true => todo.erase job.id
  | .reconcileLoop _, .launch _, false => []
  | .reconcileLoop _, .join, _ => []
  | .goroutine, .started, job => [job.id]
  | .goroutine, .reconcile _, _ => []
  | _, _, _ => todo

section Log

variable {ι : Type} [DecidableEq ι]

/-- The log after one more answered call. What a daemon was about to do is gone with it. -/
def SweepLog.after (r : Runner) (roles : ι → Role) (log : SweepLog ι) (i : ι) (op : Op) (ans : op.Ans) :
    SweepLog ι :=
  match op, ans with
  | .boot, _ => { log with todo := fun _ => [] }
  | .cancelReconciling id, .ok true => { log with canceled := id :: log.canceled }
  | op, ans => { log with todo := update log.todo i (pend r (roles i) (log.todo i) op ans) }

def swept (r : Runner) (roles : ι → Role) (log : SweepLog ι) (e : ι × Event jobCalls) : SweepLog ι :=
  log.after r roles e.1 e.2.1 e.2.2

/-- The condition: a reconciling job is canceled only while no sweep has it on its list, and no goroutine in
hand, without having called its reconciler. -/
def Unlisted (_ : ι) (s : System ι × SweepLog ι) (op : Op) : Prop :=
  ∀ id, op = .cancelReconciling id → (∀ job ∈ s.1.launched, job.id ≠ id) ∧ ∀ i, id ∉ s.2.todo i

end Log

/-! ## What one thread does -/

/-- A thread launches what it has listed, and calls the reconciler of the job it was launched with. -/
def Listed (role : Role) (todo : List String) : Op → Prop
  | .launch job => job.id ∈ todo ∧ ∃ sweeps, role = .reconcileLoop sweeps
  | .started => role = .goroutine
  | .reconcile id => id ∈ todo ∧ role = .goroutine
  | _ => True

def listing (r : Runner) (role : Role) : Calls.Service jobCalls (List String) := fun todo op ans todo' =>
  Answered op ans ∧ todo' = pend r role todo op ans

def Op.Plain : Op → Prop
  | launch _ | started | reconcile _ => False
  | _ => True

variable {id : String} {op : Op}

theorem Op.Quiet.plain (h : op.Quiet) : op.Plain := by
  cases op <;> trivial

section Programs

variable {r : Runner} {role : Role} {todo : List String} {α β : Type}

theorem Op.Plain.listed (h : op.Plain) : Listed role todo op := by
  cases op <;> trivial

theorem plain_ensures {p : Prog jobCalls α} (hp : p.Issues Op.Plain) :
    Ensures (listing r role) (Listed role) (fun _ _ => True) p todo :=
  hp.ensures (I := fun _ => True) (fun _ _ _ _ _ _ _ => trivial) (fun _ _ (hop : Op.Plain _) _ => hop.listed)
    trivial

theorem issue_plain (h : op.Plain) : (issue op).Issues Op.Plain :=
  issues_perform.2 h

theorem plain_then {k : op.Ans → Prog jobCalls β} (h : op.Plain) (hk : ∀ r, (k r).Issues Op.Plain) :
    (issue op >>= k).Issues Op.Plain :=
  (issue_plain h).bind hk

theorem start_plain (r : Runner) : r.start.Issues Op.Plain := by
  refine plain_then trivial fun _ => .bind ?_ fun _ => issue_plain trivial
  exact plain_then trivial fun _ => plain_then trivial fun _ => issues_ret _

theorem claim_plain (scope : ClaimScope) :
    (Act.lift (issue (.claim scope)) : Work (Option Job)).run.Issues Op.Plain :=
  issue_plain trivial

theorem claimEach_plain (kinds : List String) : (claimEach kinds).run.Issues Op.Plain := by
  induction kinds with
  | nil => exact issues_pure
  | cons kind kinds ih =>
    refine (claim_plain _).andThen fun job => ?_
    cases job with
    | none => exact ih
    | some job => exact (issues_ask trivial).andThen fun _ => issues_pure

theorem runner_claim_plain (r : Runner) (kinds : Option (List String)) (exclude : Bool) :
    (r.claim kinds exclude).run.Issues Op.Plain := by
  unfold Runner.claim
  split
  · exact claim_plain _
  · split
    · exact claim_plain _
    · unfold Runner.claimRotating
      split
      · exact (issues_ask trivial).andThen claimEach_plain
      · exact claim_plain _

theorem finish_plain (id : String) (state : JobState) (msg : String) : (finish id state msg).Issues Op.Plain :=
  plain_then trivial fun _ => issues_ret _

theorem run_plain (hr : r.Quiet) (job : Job) : (r.run job).Issues Op.Plain := by
  unfold Runner.run
  split
  · exact finish_plain _ _ _
  · rename_i h hh
    refine plain_then trivial fun _ => ?_
    refine ((hr.handlers _ h hh job).mono fun _ hop => Op.Quiet.plain hop).bind fun result => ?_
    refine plain_then trivial fun canceled => ?_
    unfold record
    split
    · exact finish_plain _ _ _
    · split <;> exact finish_plain _ _ _

theorem worker_plain (hr : r.Quiet) (kinds : Option (List String)) (exclude : Bool) (rounds : Nat) :
    (r.worker kinds exclude rounds).Issues Op.Plain := by
  induction rounds with
  | zero => exact issues_ret _
  | succ rounds ih =>
    refine plain_then trivial fun err => ?_
    cases err with
    | error e => exact issues_ret _
    | ok _ =>
      refine .bind ?_ fun _ => ih
      refine (runner_claim_plain r kinds exclude).bind ?_
      rintro (e | job | job)
      · exact issues_ret _
      · exact issues_ret _
      · exact run_plain hr job

theorem writeCancelConflict_plain (id : String) : (writeCancelConflict id).Issues Op.Plain := by
  refine plain_then trivial fun found => ?_
  cases found with
  | error e => exact issues_ret _
  | ok job =>
    dsimp only
    split <;> exact issues_ret _

theorem writeAcceptedJob_plain (id : String) : (writeAcceptedJob id).Issues Op.Plain := by
  refine plain_then trivial fun found => ?_
  cases found <;> exact issues_ret _

theorem cancelInflight_plain (id : String) : (cancelInflight id).Issues Op.Plain := by
  refine plain_then trivial fun known => ?_
  cases known with
  | false => exact writeCancelConflict_plain id
  | true => exact writeAcceptedJob_plain id

theorem cancelJob_plain (id : String) : (cancelJob id).Issues Op.Plain := by
  refine plain_then trivial fun found => ?_
  cases found with
  | error e => exact issues_ret _
  | ok job =>
    dsimp only
    split
    · exact issues_ret _
    · exact issues_ret _
    · exact issues_ret _
    · exact cancelInflight_plain id
    · refine plain_then trivial ?_
      rintro (e | granted | granted)
      · exact issues_ret _
      · exact writeCancelConflict_plain id
      · exact plain_then trivial fun _ => writeAcceptedJob_plain id
    · refine plain_then trivial ?_
      rintro (e | granted | granted)
      · exact issues_ret _
      · exact cancelInflight_plain id
      · exact writeAcceptedJob_plain id

theorem runChild_plain (args : Except Error String) (parentID : String) {mig : String → Work Unit}
    (hmig : ∀ id, (mig id).run.Issues Op.Quiet) : (runChild args parentID mig).run.Issues Op.Plain := by
  cases args with
  | error e => exact issues_throw
  | ok args =>
    refine .andThen (.mapErr (issue_plain trivial)) fun child => ?_
    refine .andThen (.attempt ((hmig child.id).mono fun _ hop => Op.Quiet.plain hop)) ?_
    rintro (e | u)
    · exact (issues_ask trivial).andThen fun _ => issues_throw
    · exact .mapErr (issue_plain trivial)

theorem retention_plain (cutoffs : List Time) : (retention cutoffs).Issues Op.Plain := by
  refine issues_foldlM_plain cutoffs (fun _ cutoff _ => ?_) ()
  exact plain_then trivial fun _ => issues_ret _

theorem listing_then (op : Op) {k : op.Ans → Prog jobCalls β} {Q : List String → β → Prop}
    (hG : Listed role todo op) (hQ : ∀ ans, Answered op ans →
      Ensures (listing r role) (Listed role) Q (k ans) (pend r role todo op ans)) :
    Ensures (listing r role) (Listed role) Q (issue op >>= k) todo :=
  ensures_bind.2 (ensures_perform hG fun ans _ hr => hr.2 ▸ hQ ans hr.1)

theorem launchEach_listed (sweeps : Nat) (jobs : List Job) (hjobs : ∀ j ∈ jobs, j.state = .reconciling) :
    Ensures (listing r (.reconcileLoop sweeps)) (Listed (.reconcileLoop sweeps)) (fun _ _ => True)
      (r.launchEach jobs)
      ((jobs.filter fun j => j.state == .reconciling && GoMap.has r.reconcilers j.kind).map Job.id) := by
  induction jobs with
  | nil => exact plain_ensures (issue_plain trivial)
  | cons job jobs ih =>
    have hjob := hjobs job List.mem_cons_self
    have ih := ih fun j hj => hjobs j (List.mem_cons_of_mem _ hj)
    unfold Runner.launchEach
    split
    · rename_i hhas
      rw [List.filter_cons_of_pos (by simpa [hjob] using hhas)]
      refine listing_then (.launch job) ⟨List.mem_cons_self, sweeps, rfl⟩ fun launched _ => ?_
      cases launched with
      | false => exact plain_ensures (issue_plain trivial)
      | true =>
        show Ensures _ _ _ (r.launchEach jobs) ((job.id :: _).erase job.id)
        rw [List.erase_cons_head]
        exact ih
    · rename_i hnot
      rw [List.filter_cons_of_neg (by simpa [hjob] using hnot)]
      exact ih

theorem reconcileLoop_listed (sweeps n : Nat) :
    Ensures (listing r (.reconcileLoop sweeps)) (Listed (.reconcileLoop sweeps)) (fun _ _ => True)
      (r.reconcileLoop n) todo := by
  induction n generalizing todo with
  | zero => exact ensures_ret.2 trivial
  | succ n ih =>
    refine .bind (P := fun _ _ => True) ?_ fun _ _ _ => ih
    refine listing_then .ctxErr trivial fun err _ => ?_
    cases err with
    | error e => exact ensures_ret.2 trivial
    | ok _ =>
      refine listing_then (.listJobs _) trivial fun listed hlisted => ?_
      cases listed with
      | error e => exact ensures_ret.2 trivial
      | ok jobs => exact launchEach_listed sweeps jobs fun j hj => sweepFilter_state (hlisted j hj)

theorem goroutine_listed (hr : r.Quiet) :
    Ensures (listing r .goroutine) (Listed .goroutine) (fun _ _ => True) r.goroutine [] := by
  refine listing_then .started rfl fun job _ => ?_
  split
  · exact ensures_ret.2 trivial
  · rename_i reconciler hrec
    refine .bind (P := fun _ _ => True) ?_ fun _ _ _ => plain_ensures (issue_plain trivial)
    refine listing_then (.enter job.id) trivial fun _ _ => ?_
    refine listing_then (.reconcile job.id) ⟨List.mem_singleton_self _, rfl⟩ fun _ _ => plain_ensures ?_
    refine ((hr.reconcilers _ reconciler hrec job).mono fun _ hop => Op.Quiet.plain hop).bind fun result => ?_
    refine plain_then trivial fun _ => ?_
    unfold Runner.settle
    split
    · exact plain_then trivial fun _ => issues_ret _
    · exact issues_ret _

theorem program_listed (hr : r.Quiet) (hrole : role.Quiet) :
    Ensures (listing r role) (Listed role) (fun _ _ => True) (role.program r) [] := by
  cases role with
  | start => exact plain_ensures ((start_plain r).bind fun _ => issues_ret _)
  | worker kinds exclude rounds =>
    exact plain_ensures ((worker_plain hr kinds exclude rounds).bind fun _ => issues_ret _)
  | reconcileLoop sweeps =>
    exact (reconcileLoop_listed sweeps sweeps).map fun _ _ _ => trivial
  | goroutine => exact (goroutine_listed hr).map fun _ _ _ => trivial
  | retention cutoffs => exact plain_ensures ((retention_plain cutoffs).bind fun _ => issues_ret _)
  | cancelJob id => exact plain_ensures ((cancelJob_plain id).bind fun _ => issues_ret _)
  | runChild args parentID mig =>
    exact plain_ensures ((runChild_plain args parentID hrole).bind fun _ => issues_ret _)
  | other p =>
    have hp : p.Issues Op.Plain := Prog.Issues.mono (fun _ hop => Op.Quiet.plain hop) hrole
    exact plain_ensures (hp.bind fun _ => issues_ret _)

end Programs

/-! ## The sweeps and the system -/

section Main

variable {ι : Type} [DecidableEq ι] {life : ι → Nat} {s s' : System ι} {log : SweepLog ι}
  {todo : ι → List String} {op : Op} {ans : op.Ans} {i : ι} {workers : Nat} {r : Runner} {roles : ι → Role}

/-- A job that is final or gone, and whose id does not come back. -/
def Over (s : System ι) (id : String) : Prop :=
  id ∈ s.used ∧ ∀ state, s.table.stateOf id = some state → state.active = false

theorem over_step (h : Over s id) (hr : system workers life i s op ans s') : Over s' id := by
  cases hmem : op.memory with
  | true =>
    obtain ⟨htable, hused⟩ := system_memory hmem hr
    exact ⟨hused ▸ h.1, fun state hstate => h.2 state (htable ▸ hstate)⟩
  | false =>
    obtain ⟨-, -, t, hop, hfresh, rfl⟩ := system_store hmem hr
    refine ⟨List.mem_append_right _ h.1, fun state hstate => ?_⟩
    have hstate : t.stateOf id = some state := hstate
    rcases jobStore_state hop id with hsame | halters
    · exact h.2 state (hsame ▸ hstate)
    · cases hold : s.table.stateOf id with
      | none => exact absurd h.1 (fresh_state hfresh hold (by rw [hstate]; nofun))
      | some old =>
        rw [hold, hstate] at halters
        rcases alters_from_final (h.2 old hold) halters with hnone | ⟨state', msg, rfl⟩
        · cases hnone
        · obtain ⟨-, rfl, hfinal⟩ := halters
          exact hfinal

/-- The lists of the threads, which are those of the log for all threads that may still act, and the canceled
jobs, which are on none of them. -/
structure Swept (life : ι → Nat) (s : System ι) (log : SweepLog ι) (todo : ι → List String) : Prop where
  noted : ∀ i, s.life ≤ life i → todo i = log.todo i
  later : ∀ i, s.life < life i → todo i = []
  settled : ∀ id ∈ log.canceled, Over s id
  launched : ∀ job ∈ s.launched, job.id ∉ log.canceled
  unlisted : ∀ i id, life i = s.life → id ∈ todo i → id ∉ log.canceled

theorem mem_pend {role : Role} {todo : List String} (h : id ∈ pend r role todo op ans)
    (hr : system workers life i s op ans s') : id ∈ todo ∨ s.table.stateOf id = some .reconciling ∨
      ∃ job ∈ s.launched, job.id = id := by
  unfold pend at h
  split at h
  · obtain ⟨j, hj, rfl⟩ := List.mem_map.1 h
    obtain ⟨hj, hkept⟩ := List.mem_filter.1 hj
    obtain ⟨-, -, t, hop, -, -⟩ := system_store rfl hr
    refine .inr (.inl ?_)
    rw [s.table.stateOf_of_mem (listJobs_answer hop j hj).1, beq_state (Bool.and_eq_true_iff.1 hkept).1]
  · exact .inl (List.mem_of_mem_erase h)
  · cases h
  · cases h
  · exact .inr (.inr ⟨_, hr.2.2.1, (List.mem_singleton.1 h).symm⟩)
  · cases h
  · exact .inl h

theorem mem_launched (hlisted : Listed (roles i) (todo i) op) (hr : system workers life i s op ans s') :
    ∀ job ∈ s'.launched, job ∈ s.launched ∨ job.id ∈ todo i := by
  intro job hjob
  cases op with
  | boot =>
    obtain ⟨-, rfl⟩ := hr
    cases hjob
  | launch job' =>
    cases ans with
    | false =>
      obtain ⟨-, -, rfl⟩ := hr
      exact .inl hjob
    | true =>
      obtain ⟨-, -, -, rfl⟩ := hr
      rcases List.mem_append.1 hjob with hold | hnew
      · exact .inl hold
      · rw [List.mem_singleton.1 hnew]
        exact .inr hlisted.1
  | started =>
    obtain ⟨-, -, -, rfl⟩ := hr
    exact .inl (List.mem_of_mem_erase hjob)
  | ready =>
    obtain ⟨-, rfl⟩ := hr
    exact .inl hjob
  | enter id | reconcile id | ended =>
    obtain ⟨-, -, rfl⟩ := hr
    exact .inl hjob
  | leave id | join =>
    obtain ⟨-, -, -, rfl⟩ := hr
    exact .inl hjob
  | cancel id =>
    obtain ⟨-, -, hr⟩ := hr
    unfold System.cancel at hr
    split at hr <;> cases hr <;> exact .inl hjob
  | _ =>
    obtain ⟨-, -, t, -, -, rfl⟩ := system_store rfl hr
    exact .inl hjob

theorem system_life (hop : op ≠ .boot) (hr : system workers life i s op ans s') :
    life i = s.life ∧ s'.life = s.life := by
  cases op with
  | boot => exact absurd rfl hop
  | launch job =>
    cases ans with
    | false => exact ⟨hr.1, by rw [hr.2.2]⟩
    | true => exact ⟨hr.1, by rw [hr.2.2.2]⟩
  | started | join => exact ⟨hr.1, by rw [hr.2.2.2]⟩
  | ready => exact ⟨hr.1, by rw [hr.2]⟩
  | enter id => exact ⟨hr.1, by rw [hr.2.2]; rfl⟩
  | leave id => exact ⟨hr.1, by rw [hr.2.2.2]; rfl⟩
  | cancel id =>
    obtain ⟨hi, -, hr⟩ := hr
    unfold System.cancel at hr
    split at hr <;> cases hr <;> exact ⟨hi, rfl⟩
  | reconcile | ended => exact ⟨hr.1, by rw [hr.2.2]⟩
  | _ =>
    obtain ⟨hi, -, t, -, -, rfl⟩ := system_store rfl hr
    exact ⟨hi, rfl⟩

theorem swept_plain (h : Swept life s log todo) (hop : op ≠ .boot) (hlisted : Listed (roles i) (todo i) op)
    (hr : system workers life i s op ans s') :
    Swept life s' { log with todo := update log.todo i (pend r (roles i) (log.todo i) op ans) }
      (update todo i (pend r (roles i) (todo i) op ans)) := by
  obtain ⟨hi, hlife⟩ := system_life hop hr
  exact {
    noted := fun j hj => by
      rw [h.noted i (Nat.le_of_eq hi.symm)]
      by_cases hji : j = i
      · subst hji
        simp only [update_self]
      · simp only [update_of_ne hji]
        exact h.noted j (hlife ▸ hj)
    later := fun j hj => by
      have hji : j ≠ i := by
        rintro rfl
        omega
      rw [update_of_ne hji]
      exact h.later j (hlife ▸ hj)
    settled := fun id hid => over_step (h.settled id hid) hr
    launched := fun job hjob => by
      rcases mem_launched hlisted hr job hjob with hold | hnew
      · exact h.launched job hold
      · exact h.unlisted i job.id hi hnew
    unlisted := fun j id hj hid => by
      by_cases hji : j = i
      · subst hji
        rw [update_self] at hid
        rcases mem_pend hid hr with hold | hstate | ⟨job, hjob, rfl⟩
        · exact h.unlisted j id hi hold
        · -- a canceled job is final, so no listing shows it
          intro hcanceled
          exact absurd ((h.settled id hcanceled).2 _ hstate) nofun
        · exact h.launched job hjob
      · rw [update_of_ne hji] at hid
        exact h.unlisted j id (hlife ▸ hj) hid }

omit [DecidableEq ι] in
theorem swept_boot (h : Swept life s log todo) : Swept life s.boot { log with todo := fun _ => [] } todo where
  noted j hj := h.later j hj
  later j hj := h.later j (Nat.lt_trans (Nat.lt_succ_self _) hj)
  settled := h.settled
  launched := nofun
  unlisted j id hj hid := by
    rw [h.later j (show s.life < life j from hj ▸ Nat.lt_succ_self _)] at hid
    cases hid

theorem swept_cancel (h : Swept life s log todo) (hcond : Unlisted i (s, log) (.cancelReconciling id))
    (hr : system workers life i s (.cancelReconciling id) (.ok true) s') :
    Swept life s' { log with canceled := id :: log.canceled } todo := by
  obtain ⟨hlaunched, htodo⟩ := hcond id rfl
  have hlife : s'.life = s.life := (system_life Op.noConfusion hr).2
  have hover : Over s' id := by
    obtain ⟨-, -, t, hop, -, rfl⟩ := system_store rfl hr
    have hstate := (cancelReconciling_answer hop).2
    refine ⟨mem_withTable_used (by rw [hstate]; nofun), fun state h => ?_⟩
    cases hstate.symm.trans h
    rfl
  have hsame : s'.launched = s.launched := by
    obtain ⟨-, -, t, -, -, rfl⟩ := system_store rfl hr
    rfl
  exact {
    noted := fun j hj => h.noted j (hlife ▸ hj)
    later := fun j hj => h.later j (hlife ▸ hj)
    settled := fun id' hid => by
      rcases List.mem_cons.1 hid with rfl | hold
      · exact hover
      · exact over_step (h.settled id' hold) hr
    launched := fun job hjob hid => by
      rw [hsame] at hjob
      rcases List.mem_cons.1 hid with heq | hold
      · exact hlaunched job hjob heq
      · exact h.launched job hjob hold
    unlisted := fun j id' hj hid hcanceled => by
      rw [hlife] at hj
      rcases List.mem_cons.1 hcanceled with rfl | hold
      · exact htodo j (h.noted j (Nat.le_of_eq hj.symm) ▸ hid)
      · exact h.unlisted j id' hj hid hold }

theorem swept_step (h : Swept life s log todo) (hlisted : Listed (roles i) (todo i) op)
    (hcond : Unlisted i (s, log) op) (hr : system workers life i s op ans s') :
    ∃ b, listing r (roles i) (todo i) op ans b ∧
      Swept life s' (swept r roles log (i, ⟨op, ans⟩)) (update todo i b) := by
  refine ⟨pend r (roles i) (todo i) op ans, ⟨?_, rfl⟩, ?_⟩
  · cases hmem : op.memory with
    | true => cases op <;> trivial
    | false =>
      obtain ⟨-, -, t, hop, -, -⟩ := system_store hmem hr
      exact answered_of_store hop
  cases op with
  | boot =>
    obtain ⟨-, rfl⟩ := hr
    rw [show pend r (roles i) (todo i) .boot ans = todo i by unfold pend; split <;> first | rfl | contradiction,
      update_eq_self]
    exact swept_boot h
  | cancelReconciling id =>
    rcases ans with e | granted | granted
    · exact swept_plain h nofun hlisted hr
    · exact swept_plain h nofun hlisted hr
    · rw [show pend r (roles i) (todo i) (.cancelReconciling id) (.ok true) = todo i by
        unfold pend; split <;> first | rfl | contradiction, update_eq_self]
      exact swept_cancel h hcond hr
  | _ => exact swept_plain h nofun hlisted hr

/-- In every run in which a reconciling job is canceled only while no sweep
has it listed, no reconciler is called for a job whose cancellation has succeeded. -/
theorem canceled_job_is_left_alone (r : Runner) (hr : r.Quiet) (life : ι → Nat) (roles : ι → Role)
    (hroles : ∀ i, (roles i).Quiet) (t₀ : JobTable) {t : List (ι × Event jobCalls)} {i : ι} {id : String}
    {y z : Pool jobCalls ι (System ι × SweepLog ι) (Option CancelReply)}
    (hrun : Pool.Run ((logged (swept r roles) (system r.workers life)).when Unlisted)
      ⟨(.down t₀, .empty), fun i => (roles i).program r⟩ t y)
    (hstep : Pool.Step (logged (swept r roles) (system r.workers life)) y (i, ⟨.reconcile id, ()⟩) z) :
    id ∉ y.state.2.canceled := by
  have hdown : Swept life (System.down t₀) SweepLog.empty fun _ => [] :=
    ⟨fun _ _ => rfl, fun _ _ => rfl, nofun, nofun, nofun⟩
  obtain ⟨todo, hswept, hensures⟩ := hrun.rely (T := fun i => listing r (roles i)) (G := fun i => Listed (roles i))
    (Q := fun _ _ _ => True) (R := fun s todo => Swept life s.1 s.2 todo) (by
      rintro i s todo op ans s' hswept hlisted ⟨hcond, hans, hlog⟩
      obtain ⟨b, hb, hnext⟩ := swept_step hswept hlisted hcond hans
      exact ⟨b, hb, hlog ▸ hnext⟩) hdown fun i => program_listed hr (hroles i)
  cases hstep with
  | @answer _ _ k _ s hnext hans =>
    have hcall := hensures i
    rw [show y.left i = _ from hnext, ensures_call] at hcall
    exact hswept.unlisted i id hans.1.1 hcall.1.1

end Main

/-! ## A cancellation during a sweep -/

inductive Hand where
  | start
  | loop
  | goroutine
  | operator
  deriving DecidableEq

def handLife (_ : Hand) : Nat := 1

def handRole (id : String) : Hand → Role
  | .start => .start
  | .loop => .reconcileLoop 1
  | .goroutine => .goroutine
  | .operator => .cancelJob id

theorem handRole_quiet (id : String) (i : Hand) : (handRole id i).Quiet := by
  cases i <;> trivial

theorem moveRunner_quiet : moveRunner.Quiet where
  handlers := nofun
  reconcilers kind reconciler hrec job := by
    obtain ⟨entry, hentry, rfl⟩ := Option.map_eq_some_iff.1 hrec
    rw [List.mem_singleton.1 (List.mem_of_find?_eq_some hentry)]
    exact issues_pure

abbrev handReply (id : String) : Answers jobCalls Hand (System Hand × SweepLog Hand) :=
  Answers.logged (swept moveRunner (handRole id)) (System.reply moveRunner.workers handLife ⟨1⟩ clockRest)

/-- The goroutine of the present daemon is about to call the reconciler of one job, and one was canceled. -/
def atReconciler (id canceled : String) (y : Pool jobCalls Hand (System Hand × SweepLog Hand) (Option CancelReply)) :
    Bool :=
  match y.left .goroutine with
  | .call (.reconcile id') _ =>
    id' == id && y.state.2.canceled.contains canceled && (y.state.1.life == 1 && y.state.1.serving)
  | _ => false

theorem atReconciler_spec {roles : Hand → Role} {canceled : String}
    {y : Pool jobCalls Hand (System Hand × SweepLog Hand) (Option CancelReply)}
    (h : atReconciler id canceled y = true) : canceled ∈ y.state.2.canceled ∧ ∃ z,
      Pool.Step (logged (swept moveRunner roles) (system moveRunner.workers handLife)) y
        (.goroutine, ⟨.reconcile id, ()⟩) z := by
  unfold atReconciler at h
  split at h
  · rename_i id' k hnext
    simp only [Bool.and_eq_true, beq_iff_eq, List.contains_iff_mem] at h
    obtain ⟨⟨rfl, hcanceled⟩, hlife, hserving⟩ := h
    have hreconcile : logged (swept moveRunner roles) (system moveRunner.workers handLife) .goroutine y.state
        (.reconcile id') () (y.state.1, swept moveRunner roles y.state.2 (.goroutine, ⟨.reconcile id', ()⟩)) :=
      ⟨⟨hlife.symm, hserving, rfl⟩, rfl⟩
    exact ⟨hcanceled, _, .answer hnext hreconcile⟩
  · cases h

/-- The sweep has listed an interrupted move and launched its goroutine when the operator cancels it. That
succeeds, and then the reconciler is called. -/
theorem canceled_job_is_reconciled : moveRunner.Quiet ∧ (∀ i, (handRole "0" i).Quiet) ∧ ∃ t y z,
    Pool.Run (logged (swept moveRunner (handRole "0")) (system moveRunner.workers handLife))
      ⟨(.down interruptedMove, .empty), fun i => (handRole "0" i).program moveRunner⟩ t y ∧
    "0" ∈ y.state.2.canceled ∧
    Pool.Step (logged (swept moveRunner (handRole "0")) (system moveRunner.workers handLife)) y
      (.goroutine, ⟨.reconcile "0", ()⟩) z := by
  refine ⟨moveRunner_quiet, handRole_quiet "0", ?_⟩
  obtain ⟨t, y, hrun, htest⟩ := Pool.run_of_play (H := handReply "0")
    (x := ⟨(.down interruptedMove, .empty), fun i => (handRole "0" i).program moveRunner⟩)
    (Answers.logged_shared system_reply)
    [.start, .start, .start, .start, .loop, .loop, .loop, .operator, .operator, .goroutine, .goroutine]
    (atReconciler "0" "0") (by decide +kernel)
  obtain ⟨hcanceled, z, hstep⟩ := atReconciler_spec htest
  exact ⟨t, y, z, hrun, hcanceled, hstep⟩

def interruptedMoves : JobTable where
  list := [newJob "0" "migrate" "" "" .running ⟨1⟩, newJob "1" "migrate" "" "" .running ⟨1⟩]
  nodup := by decide

def unlisted (_ : Hand) (s : System Hand × SweepLog Hand) : Op → Bool
  | .cancelReconciling id => s.1.launched.all (fun job => job.id != id) &&
      [Hand.start, .loop, .goroutine, .operator].all fun i => !(s.2.todo i).contains id
  | _ => true

theorem unlisted_spec (i : Hand) (s : System Hand × SweepLog Hand) (op : Op) (h : unlisted i s op = true) :
    Unlisted i s op := by
  rintro id rfl
  obtain ⟨hlaunched, htodo⟩ := Bool.and_eq_true_iff.1 h
  refine ⟨fun job hjob => by simpa using List.all_eq_true.1 hlaunched job hjob, fun j => ?_⟩
  simpa using List.all_eq_true.1 htodo j (by cases j <;> decide)

/-- Of two interrupted moves one is canceled before the sweep lists them; the other one is reconciled. -/
theorem listed_move_is_reconciled : moveRunner.Quiet ∧ (∀ i, (handRole "1" i).Quiet) ∧ ∃ t y z,
    Pool.Run ((logged (swept moveRunner (handRole "1")) (system moveRunner.workers handLife)).when Unlisted)
      ⟨(.down interruptedMoves, .empty), fun i => (handRole "1" i).program moveRunner⟩ t y ∧
    Pool.Step (logged (swept moveRunner (handRole "1")) (system moveRunner.workers handLife)) y
      (.goroutine, ⟨.reconcile "0", ()⟩) z ∧ "1" ∈ y.state.2.canceled ∧ "0" ∉ y.state.2.canceled := by
  refine ⟨moveRunner_quiet, handRole_quiet "1", ?_⟩
  obtain ⟨t, y, hrun, htest⟩ := Pool.run_of_play (H := Answers.only unlisted (handReply "1"))
    (x := ⟨(.down interruptedMoves, .empty), fun i => (handRole "1" i).program moveRunner⟩)
    (Answers.only_when (Answers.logged_shared system_reply) unlisted_spec)
    [.start, .start, .start, .start, .operator, .operator, .loop, .loop, .loop, .goroutine, .goroutine]
    (atReconciler "0" "1") (by decide +kernel)
  obtain ⟨hcanceled, z, hstep⟩ := atReconciler_spec htest
  exact ⟨t, y, z, hrun, hstep, hcanceled, canceled_job_is_left_alone moveRunner moveRunner_quiet handLife
    (handRole "1") (handRole_quiet "1") interruptedMoves hrun hstep⟩

end PodmanApi.Jobs
