/-
# PodmanApi.Jobs.Runner — the job store's calls, and the workers that run jobs.

`internal/jobs`: a pool of workers claims queued jobs, dispatches them to the handler of their kind and records
how they ended. The job store is a relation: a statement may fail, also after it has taken effect. A worker loops
for ever; here it does a number of rounds, and every statement is about any number of them.
-/
import PodmanApi.Calls.Pool
import PodmanApi.Instance.Calls
import PodmanApi.Jobs.Table
import PodmanApi.Store

namespace PodmanApi.Jobs

open GoStd Calls

/-! ## Calls -/

structure PruneReport where
  items : List String
  reclaimed : Int
  deriving DecidableEq, Repr

/-- The disk part of `podman.HostInfo`. -/
structure DiskInfo where
  total : Int
  used : Int
  reclaimable : Int
  deriving DecidableEq, Repr

/-- The calls of workers, schedulers and handlers. -/
inductive Op where
  -- the job store
  | enqueue (kind args parentID : String)
  | startChild (kind args parentID : String)
  | getJob (id : String)
  | listJobs (f : JobFilter)
  | claim (scope : ClaimScope)
  | appendStep (id step detail : String)
  | finish (id : String) (state : JobState) (msg : String)
  | failRunning (reason : String)
  | markReconciling (kinds : List String)
  | resolveReconciling (id : String) (state : JobState) (msg : String)
  | cancelReconciling (id : String)
  | cancelQueued (id : String)
  | pruneJobs (cutoff : Time)
  -- podman
  | knows (host : String)
  | hostInfo (host : String)
  | imagePrune (host : String) (all : Bool)
  | containerPrune (host : String)
  | buildCachePrune (host : String)
  | volumePrune (host : String) (filters : GoMap (List String))
  -- what the runner keeps in memory: the rotation of kinds, and the jobs in flight
  | rotation (kinds : List String)
  | served (kind : String)
  | enter (id : String)
  | leave (id : String)
  | cancel (id : String)
  -- the goroutines of a reconcile sweep, and the call of a reconciler
  | launch (job : Job)
  | started
  | reconcile (id : String)
  | ended
  | join
  -- the life of the process: it is started, and `Start` has returned
  | boot
  | ready
  -- the semaphore of the registry prune's scheduler
  | acquire
  | release
  -- the clock, the context and the instance service's own calls
  | now
  | ctxErr
  | service (op : Instance.Op)
  deriving DecidableEq, Repr

/-- What each call answers. `leave` tells whether an operator has canceled the job meanwhile, `cancel`
whether the job was in flight, and `launch` whether there was a slot before the context ended. -/
@[reducible]
def Op.Ans : Op → Type
  | enqueue _ _ _ => Except Error Job
  | startChild _ _ _ => Except Error Job
  | getJob _ => Except Error Job
  | listJobs _ => Except Error (List Job)
  | claim _ => Except Error (Option Job)
  | appendStep _ _ _ => Except Error Unit
  | finish _ _ _ => Except Error Unit
  | failRunning _ => Except Error Nat
  | markReconciling _ => Except Error Nat
  | resolveReconciling _ _ _ => Except Error Bool
  | cancelReconciling _ => Except Error Bool
  | cancelQueued _ => Except Error Bool
  | pruneJobs _ => Except Error Nat
  | knows _ => Bool
  | hostInfo _ => Except Error DiskInfo
  | imagePrune _ _ => Except Error PruneReport
  | containerPrune _ => Except Error PruneReport
  | buildCachePrune _ => Except Error PruneReport
  | volumePrune _ _ => Except Error PruneReport
  | rotation _ => List String
  | served _ => Unit
  | enter _ => Unit
  | leave _ => Bool
  | cancel _ => Bool
  | launch _ => Bool
  | started => Job
  | reconcile _ => Unit
  | ended => Unit
  | join => Unit
  | boot => Unit
  | ready => Unit
  | acquire => Except Error Unit
  | release => Unit
  | now => Time
  | ctxErr => Except Error Unit
  | service op => op.Ans

abbrev jobCalls : Sig := ⟨Op, Op.Ans⟩

abbrev Work (α : Type) : Type := Act jobCalls Error α

abbrev issue (op : Op) : Prog jobCalls op.Ans := Prog.perform (Γ := jobCalls) op

/-- Issue one call and hand its answer, error or not, to the rest. -/
abbrev ask (op : Op) : Work op.Ans := Act.ask (Γ := jobCalls) op

/-! ## The store -/

/-- A statement that turns `t` into `t'` with the result `a` may fail, and the failure does not tell
whether it took effect. -/
inductive Commits {α : Type} (t t' : JobTable) (a : α) : Except Error α → JobTable → Prop where
  | done : Commits t t' a (.ok a) t'
  | failed (e : Error) : Commits t t' a (.error e) t
  | unsure (e : Error) : Commits t t' a (.error e) t'

def Reads {α : Type} (t : JobTable) (answer : Except Error α) (r : Except Error α) (t' : JobTable) : Prop :=
  t' = t ∧ (r = answer ∨ ∃ e, r = .error e)

def storedArgs (args : String) : String :=
  if args = "" then "null" else args

/-- The row that `Enqueue` or `StartChild` inserts: its id and its times are the store's choice. -/
def Inserts (kind args parentID : String) (state : JobState) (j : Job) : Prop :=
  j.kind = kind ∧ j.args = storedArgs args ∧ j.parentID = parentID ∧ j.state = state ∧ j.error = "" ∧
    j.finished = ⟨0⟩ ∧ j.started = if state = .running then j.created else ⟨0⟩

def JobTable.count (t : JobTable) (which : Job → Bool) : Nat :=
  t.list.countP which

/-- The job store, and everything else as it pleases. -/
def jobStore : Calls.Service jobCalls JobTable := fun t op r t' =>
  match op, r with
  | .enqueue kind args parentID, r => ∃ j fresh, Inserts kind args parentID .queued j ∧
      Commits t (t.insert j fresh) j r t'
  | .startChild kind args parentID, r => ∃ j fresh, Inserts kind args parentID .running j ∧
      Commits t (t.insert j fresh) j r t'
  | .getJob id, r => Reads t (found .storeNotFound (t.get id)) r t'
  | .listJobs f, r => Reads t (.ok (t.page f)) r t'
  | .claim scope, r =>
    match t.claimable scope with
    | none => Reads t (.ok none) r t'
    | some j => ∃ now, Commits t (t.claim j now)
        (some { j with state := .running, started := now }) r t'
  | .finish id state msg, r =>
    if state.active ∨ (t.get id).isNone then t' = t ∧ ∃ e, r = .error e
    else ∃ now, Commits t (t.finish id state msg now) () r t'
  | .failRunning reason, r => ∃ now, Commits t (t.failRunning reason now)
      (t.count (·.state == .running)) r t'
  | .markReconciling kinds, r => Commits t (t.markReconciling kinds)
      (t.count fun row => row.state == .running && kinds.contains row.kind) r t'
  | .resolveReconciling id state msg, r =>
    if state = .succeeded ∨ state = .failed then
      ∃ now, Commits t (t.resolveReconciling id state msg now)
        (t.list.any fun row => row.id == id && row.state == .reconciling) r t'
    else t' = t ∧ ∃ e, r = .error e
  | .cancelReconciling id, r => ∃ now, Commits t (t.cancelReconciling id now)
      (t.list.any fun row => row.id == id && row.state == .reconciling) r t'
  | .cancelQueued id, r => ∃ now, Commits t (t.cancelQueued id now)
      (t.list.any fun row => row.id == id && row.state == .queued) r t'
  | .pruneJobs cutoff, r => Commits t (t.pruneJobs cutoff)
      (t.list.length - (t.pruneJobs cutoff).list.length) r t'
  | .rotation kinds, r => t' = t ∧ r.Perm kinds
  | _, _ => t' = t

variable {kind args : String} {op : Op} {r : op.Ans}

section Store

variable {t t' : JobTable}

theorem Commits.ages {α : Type} {next : JobTable} {a : α} {r : Except Error α}
    (h : Commits t next a r t') (hnext : t.Ages next) : t.Ages t' := by
  cases h with
  | done => exact hnext
  | unsure e => exact hnext
  | failed e => exact JobTable.ages_refl

theorem Reads.ages {α : Type} {answer r : Except Error α} (h : Reads t answer r t') : t.Ages t' := by
  rw [h.1]
  exact JobTable.ages_refl

/-- The kind and the arguments of the job that a call inserts, if it is an insert. -/
def Op.inserted : Op → Option (String × String)
  | enqueue kind args _ | startChild kind args _ => some (kind, storedArgs args)
  | _ => none

section

variable (h : jobStore t op r t')

include h

theorem jobStore_ages (hop : op.inserted = none) : t.Ages t' := by
  cases op with
  | enqueue | startChild => cases hop
  | getJob | listJobs => exact Reads.ages h
  | claim scope =>
    unfold jobStore at h
    dsimp only at h
    split at h
    · exact h.ages
    · obtain ⟨now, h⟩ := h
      exact h.ages (JobTable.ages_claim _ now)
  | finish id state msg =>
    unfold jobStore at h
    dsimp only at h
    split at h
    · exact h.1 ▸ JobTable.ages_refl
    · rename_i hvalid
      obtain ⟨now, h⟩ := h
      have hfinal : state.active = false := by
        by_contra hne
        exact hvalid (.inl (by simpa using hne))
      exact h.ages (JobTable.ages_conclude hfinal msg now)
  | failRunning reason =>
    obtain ⟨now, h⟩ := h
    exact h.ages (JobTable.ages_conclude rfl reason now)
  | markReconciling kinds => exact Commits.ages h (JobTable.ages_markReconciling kinds)
  | resolveReconciling id state msg =>
    unfold jobStore at h
    dsimp only at h
    split at h
    · rename_i hvalid
      obtain ⟨now, h⟩ := h
      have hfinal : state.active = false := by
        obtain rfl | rfl := hvalid <;> rfl
      exact h.ages (JobTable.ages_conclude hfinal msg now)
    · exact h.1 ▸ JobTable.ages_refl
  | cancelReconciling id =>
    obtain ⟨now, h⟩ := h
    exact h.ages (JobTable.ages_cancelFrom .reconciling id now)
  | cancelQueued id =>
    obtain ⟨now, h⟩ := h
    exact h.ages (JobTable.ages_cancelFrom .queued id now)
  | pruneJobs cutoff => exact Commits.ages h (JobTable.ages_pruneJobs cutoff)
  | rotation kinds => exact h.1 ▸ JobTable.ages_refl
  | _ => exact h ▸ JobTable.ages_refl

theorem jobStore_inserted (hop : op.inserted = some (kind, args)) :
    t' = t ∨ ∃ j fresh, j.kind = kind ∧ j.args = args ∧ t' = t.insert j fresh := by
  have hadds : ∃ j fresh, j.kind = kind ∧ j.args = args ∧ ∃ r, Commits t (t.insert j fresh) j r t' := by
    cases op with
    | enqueue kind args parentID | startChild kind args parentID =>
      cases hop
      obtain ⟨j, fresh, ⟨hkind, hargs, -⟩, hcommits⟩ := h
      exact ⟨j, fresh, hkind, hargs, r, hcommits⟩
    | _ => cases hop
  obtain ⟨j, fresh, hkind, hargs, r, hcommits⟩ := hadds
  cases hcommits with
  | done | unsure e => exact .inr ⟨j, fresh, hkind, hargs, rfl⟩
  | failed e => exact .inl rfl

theorem jobStore_rows
    (hop : ∀ args, op.inserted ≠ some (kind, args)) {j' : Job} (hj' : j' ∈ t'.list) (hkind : j'.kind = kind) :
    ∃ j ∈ t.list, j.id = j'.id ∧ j.kind = kind ∧ j.args = j'.args ∧ j.state.age ≤ j'.state.age := by
  have hages : t.Ages t' → ∃ j ∈ t.list, j.id = j'.id ∧ j.kind = kind ∧ j.args = j'.args ∧
      j.state.age ≤ j'.state.age := by
    intro hages
    obtain ⟨j, hj, hid, hkind', hrest⟩ := hages j' hj'
    exact ⟨j, hj, hid, hkind'.trans hkind, hrest⟩
  cases hnew : op.inserted with
  | none => exact hages (jobStore_ages h hnew)
  | some new =>
    rcases jobStore_inserted h hnew with rfl | ⟨j, fresh, hnewKind, -, rfl⟩
    · exact hages JobTable.ages_refl
    · rcases List.mem_append.1 hj' with hold | hlast
      · exact ⟨j', hold, rfl, hkind, rfl, Nat.le_refl _⟩
      · rw [List.mem_singleton.1 hlast, hnewKind] at hkind
        exact absurd (hnew.trans (by rw [← hkind])) (hop new.2)

theorem jobStore_young {n : Nat} (hn : n ≤ 3) (hyoung : t'.Young n kind args) :
    t.Young n kind args ∨ op.inserted = some (kind, args) := by
  cases hop : op.inserted with
  | none => exact .inl ((jobStore_ages h hop).keeps n kind args hn hyoung)
  | some new =>
    rcases jobStore_inserted h hop with rfl | ⟨j, fresh, hkind, hargs, rfl⟩
    · exact .inl hyoung
    · rcases JobTable.young_insert hyoung with hold | ⟨rfl, rfl⟩
      · exact .inl hold
      · exact .inr (by rw [hkind, hargs])

theorem jobStore_active
    (hactive : t'.Active kind args) : t.Active kind args ∨ op.inserted = some (kind, args) := by
  rw [JobTable.active_iff_young] at hactive ⊢
  exact jobStore_young h (Nat.le_refl 3) hactive

end

end Store

/-! ## A store that does as it is told -/

def newJob (id kind args parentID : String) (state : JobState) (now : Time) : Job where
  id := id
  kind := kind
  args := storedArgs args
  state := state
  parentID := parentID
  error := ""
  created := now
  started := if state = .running then now else ⟨0⟩
  finished := ⟨0⟩

theorem inserts_newJob (id kind args parentID : String) (state : JobState) (now : Time) :
    Inserts kind args parentID state (newJob id kind args parentID state now) :=
  ⟨rfl, rfl, rfl, rfl, rfl, rfl, rfl⟩

/-- An insert; a job is named after how many there were. -/
def JobTable.admit (t : JobTable) (kind args parentID : String) (state : JobState) (now : Time) :
    Option (Except Error Job × JobTable) :=
  let j := newJob (toString t.list.length) kind args parentID state now
  if fresh : j.id ∉ t.list.map Job.id then some (.ok j, t.insert j fresh) else none

/-- The answers of a store in which nothing fails, at a given time, with `rest` for everything else. -/
def obedient (now : Time) (rest : (op : Op) → Option op.Ans) (t : JobTable) :
    (op : Op) → Option (op.Ans × JobTable)
  | .enqueue kind args parentID => t.admit kind args parentID .queued now
  | .startChild kind args parentID => t.admit kind args parentID .running now
  | .getJob id => some (found .storeNotFound (t.get id), t)
  | .listJobs f => some (.ok (t.page f), t)
  | .claim scope =>
    match t.claimable scope with
    | none => some (.ok none, t)
    | some j => some (.ok (some { j with state := .running, started := now }), t.claim j now)
  | .finish id state msg =>
    if state.active ∨ (t.get id).isNone then some (.error (.sentinel .storeNotFound), t)
    else some (.ok (), t.finish id state msg now)
  | .failRunning reason => some (.ok (t.count (·.state == .running)), t.failRunning reason now)
  | .markReconciling kinds =>
    some (.ok (t.count fun row => row.state == .running && kinds.contains row.kind), t.markReconciling kinds)
  | .resolveReconciling id state msg =>
    if state = .succeeded ∨ state = .failed then
      some (.ok (t.list.any fun row => row.id == id && row.state == .reconciling),
        t.resolveReconciling id state msg now)
    else some (.error (.sentinel .storeNotFound), t)
  | .cancelReconciling id =>
    some (.ok (t.list.any fun row => row.id == id && row.state == .reconciling), t.cancelReconciling id now)
  | .cancelQueued id =>
    some (.ok (t.list.any fun row => row.id == id && row.state == .queued), t.cancelQueued id now)
  | .pruneJobs cutoff =>
    some (.ok (t.list.length - (t.pruneJobs cutoff).list.length), t.pruneJobs cutoff)
  | .rotation kinds => some (kinds, t)
  | op => (rest op).map fun r => (r, t)

theorem admit_inserts {t t' : JobTable} {parentID : String} {state : JobState} {now : Time}
    {r : Except Error Job} (h : t.admit kind args parentID state now = some (r, t')) :
    ∃ j fresh, Inserts kind args parentID state j ∧ Commits t (t.insert j fresh) j r t' := by
  unfold JobTable.admit at h
  dsimp only at h
  split at h
  · rename_i fresh
    cases h
    exact ⟨_, fresh, inserts_newJob _ _ _ _ _ _, .done⟩
  · cases h

theorem jobStore_obedient {now : Time} {rest : (op : Op) → Option op.Ans} {t t' : JobTable}
    (h : obedient now rest t op = some (r, t')) : jobStore t op r t' := by
  cases op with
  | enqueue | startChild => exact admit_inserts h
  | getJob id | listJobs f =>
    cases h
    exact ⟨rfl, .inl rfl⟩
  | claim scope =>
    unfold jobStore
    dsimp only [obedient] at h ⊢
    split at h
    · cases h
      exact ⟨rfl, .inl rfl⟩
    · cases h
      exact ⟨now, .done⟩
  | finish id state msg =>
    unfold jobStore
    dsimp only [obedient] at h ⊢
    split at h
    · rename_i hbad
      cases h
      rw [if_pos hbad]
      exact ⟨rfl, _, rfl⟩
    · rename_i hgood
      cases h
      rw [if_neg hgood]
      exact ⟨now, .done⟩
  | failRunning reason | cancelReconciling id | cancelQueued id =>
    cases h
    exact ⟨now, .done⟩
  | markReconciling kinds | pruneJobs cutoff =>
    cases h
    exact .done
  | resolveReconciling id state msg =>
    unfold jobStore
    dsimp only [obedient] at h ⊢
    split at h
    · rename_i hgood
      cases h
      rw [if_pos hgood]
      exact ⟨now, .done⟩
    · rename_i hbad
      cases h
      rw [if_neg hbad]
      exact ⟨rfl, _, rfl⟩
  | rotation kinds =>
    cases h
    exact ⟨rfl, .refl _⟩
  | _ =>
    obtain ⟨r, -, h⟩ := Option.map_eq_some_iff.1 h
    cases h
    rfl

/-! ## The runner -/

/-- `Reconciler`: the state it found, a message, and whether that settles the job. -/
abbrev Reconciler : Type := Job → Work (JobState × String × Bool)

def defaultWorkers : Nat := 8

/-- `Runner`: its registry of handlers, whether its reserved pool rotates over its kinds, its reconcilers and
how many workers it has. -/
structure Runner where
  handlers : String → Option (Job → Work Unit)
  rotates : Bool
  reconcilers : GoMap Reconciler := []
  workers : Nat := defaultWorkers

/-- `JobContext.Step`; a store error is only logged. -/
def jobStep (id step detail : String) : Work Unit := do
  let _ ← ask (.appendStep id step detail)
  pure ()

def viaService {α : Type} (x : Instance.Task α) : Work α :=
  ExceptT.mk (x.run.via Op.service fun _ r => r)

/-- A handler that decodes its arguments and delegates to the instance service. -/
def delegate {α : Type} (what : String) (unmarshal : String → Except Error α)
    (body : α → Instance.Task Unit) (job : Job) : Work Unit :=
  match unmarshal job.args with
  | .error e => throw (.wrap ("decode " ++ what ++ " args: ") e "")
  | .ok req => viaService (body req)

/-- The loop of `claimRotating`. -/
def claimEach : List String → Work (Option Job)
  | [] => pure none
  | kind :: kinds => do
    match ← Act.lift (issue (.claim (.matching [kind]))) with
    | some job =>
      let _ ← ask (.served kind)
      pure (some job)
    | none => claimEach kinds

/-- `finish`; a store error is only logged. -/
def finish (id : String) (state : JobState) (msg : String) : Prog jobCalls Unit := do
  let _ ← issue (.finish id state msg)
  pure ()

/-- How `run` records what a handler returned. -/
def record (job : Job) (canceled : Bool) (result : Except Error Unit) : Prog jobCalls Unit :=
  if canceled then finish job.id .canceled "canceled by operator"
  else
    match result with
    | .error e => finish job.id .failed (Error.string e)
    | .ok _ => finish job.id .succeeded ""

namespace Runner

variable (r : Runner)

def claimRotating (kinds : List String) : Work (Option Job) :=
  if r.rotates then do
    let order ← ask (.rotation kinds)
    claimEach order
  else Act.lift (issue (.claim (.matching kinds)))

def claim (kinds : Option (List String)) (exclude : Bool) : Work (Option Job) :=
  if exclude then Act.lift (issue (.claim (.excluding (kinds.getD []))))
  else
    match kinds with
    | none => Act.lift (issue (.claim .any))
    | some kinds => r.claimRotating kinds

def run (job : Job) : Prog jobCalls Unit :=
  match r.handlers job.kind with
  | none => finish job.id .failed ("no handler for kind " ++ job.kind)
  | some h => do
    let _ ← issue (.enter job.id)
    let result ← (h job).run
    let canceled ← issue (.leave job.id)
    record job canceled result

/-- One round of `worker`: claim a job and run it. -/
def round (kinds : Option (List String)) (exclude : Bool) : Prog jobCalls Unit := do
  match ← (r.claim kinds exclude).run with
  | .ok (some job) => r.run job
  | _ => pure ()

/-- `worker`, for a number of rounds; between two rounds it may sleep. -/
def worker (kinds : Option (List String)) (exclude : Bool) : Nat → Prog jobCalls Unit
  | 0 => pure ()
  | rounds + 1 => do
    match ← issue .ctxErr with
    | .error _ => pure ()
    | .ok _ =>
      r.round kinds exclude
      worker kinds exclude rounds

end Runner

end PodmanApi.Jobs
