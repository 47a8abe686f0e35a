/-
# PodmanApi.Podman.Completion — waiting until the containers of a pod have exited.

`waitForCompletion` of `internal/podman/real.go`, with the inspections that `WaitForPodCompletion` gives it. The
first round in which no container of the pod is running ends the wait, with the first exit code that is not
zero. Podman also reports a container as not running, with the exit code zero, before it has run, and a pod
whose listing is empty has no container that runs.
-/
import PodmanApi.Calls.Prog
import PodmanApi.Data

namespace PodmanApi.Podman.Completion

open GoStd Calls

/-! ## The wait -/

inductive Status where
  | created
  | initialized
  | running
  | paused
  | stopping
  | stopped
  | exited
  | removing
  deriving DecidableEq, Repr

structure State where
  status : Status
  running : Bool
  exitCode : Int
  deriving DecidableEq, Repr

/-- What `ctx.Err()` is once the context is done. -/
inductive Cause where
  | deadlineExceeded
  | canceled
  deriving DecidableEq, Repr

/-- The two inspections, a look at the context, and the `select` between two rounds. -/
inductive Op where
  | inspectPod (name : String)
  | inspectContainer (cid : String)
  | ctxErr
  | pause

/-- What each call answers; a container may come without a state. -/
@[reducible]
def Op.Ans : Op → Type
  | inspectPod _ => Except Error (List String)
  | inspectContainer _ => Except Error (Option State)
  | ctxErr => Option Cause
  | pause => Option Cause

abbrev waitCalls : Sig := ⟨Op, Op.Ans⟩

abbrev Wait (α : Type) : Type := Act waitCalls Error α

abbrev ask (op : Op) : Wait op.Ans := Act.ask (Γ := waitCalls) op

def isNotFound (u : Unicode) (err : Error) : Bool :=
  ["no such pod", "no such container", "no such secret", "no such volume", "not found"].any fun text =>
    (index (u.lower err.string) text).isSome

/-- The error of a call that failed: the timeout, if that is why it failed. -/
def failure (err : Error) (cause : Option Cause) : Error :=
  if cause = some .deadlineExceeded then .sentinel .podmanWaitTimeout else err

/-- The container inspection of `WaitForPodCompletion`: whether it runs, and its exit code. -/
def report : Option State → Bool × Int
  | none => (false, 0)
  | some state => (state.running, state.exitCode)

/-- Whether all have exited so far, and the exit code, with one more container. -/
def tally (acc : Bool × Int) (data : Option State) : Bool × Int :=
  let (running, code) := report data
  if running then (false, acc.2)
  else if code ≠ 0 ∧ acc.2 = 0 then (acc.1, code)
  else acc

def visit (podName : String) (acc : Bool × Int) (cid : String) : Wait (Bool × Int) := do
  match ← ask (.inspectContainer cid) with
  | .error err =>
    throw (failure (.wrap ("podman: inspecting container " ++ cid ++ " while waiting for pod " ++ podName ++
      " completion: ") err "") (← ask .ctxErr))
  | .ok data => pure (tally acc data)

/-- `waitForCompletion`, for at most so many rounds. -/
def waitForCompletion (u : Unicode) (podName : String) : Nat → Wait (Option Int)
  | 0 => pure none
  | rounds + 1 => do
    match ← ask (.inspectPod podName) with
    | .error err =>
      if isNotFound u err then throw (.sentinel .podmanNotFound) else throw (failure err (← ask .ctxErr))
    | .ok ids =>
      let (allExited, exitCode) ← ids.foldlM (visit podName) (true, 0)
      if allExited then pure (some exitCode)
      else
        match ← ask .pause with
        | some .deadlineExceeded => throw (.sentinel .podmanWaitTimeout)
        | some .canceled => throw (.sentinel .contextCanceled)
        | none => waitForCompletion u podName rounds

/-! ## What has been observed -/

/-- The listing that was read last, unless that failed, and the answers to the inspections since. -/
structure Observed where
  listing : Option (List String)
  seen : List (String × Except Error (Option State))

def Observed.nothing : Observed := ⟨none, []⟩

def Observed.after (o : Observed) : Event waitCalls → Observed
  | ⟨.inspectPod _, .ok ids⟩ => ⟨some ids, []⟩
  | ⟨.inspectPod _, .error _⟩ => ⟨none, []⟩
  | ⟨.inspectContainer cid, r⟩ => { o with seen := o.seen ++ [(cid, r)] }
  | ⟨.ctxErr, _⟩ | ⟨.pause, _⟩ => o

def State.Exited (state : State) : Prop :=
  state.status = .exited ∨ state.status = .stopped

/-- The last listing named a container, and every container that it named was seen to have exited with the
code zero. -/
def Observed.Completed (o : Observed) : Prop :=
  ∃ ids, o.listing = some ids ∧ ids ≠ [] ∧
    ∀ cid ∈ ids, ∃ state, (cid, .ok (some state)) ∈ o.seen ∧ state.Exited ∧ state.exitCode = 0

/-- The answer shows neither a running container nor an exit code other than zero. -/
def Inactive (r : Except Error (Option State)) : Prop :=
  ∃ data, r = .ok data ∧ report data = (false, 0)

/-- Every container of the last listing was inspected, and all are inactive. -/
def Observed.Settled (o : Observed) : Prop :=
  o.listing = some (o.seen.map Prod.fst) ∧ ∀ x ∈ o.seen, Inactive x.2

/-- Where all containers of the last listing are inactive, there is one and each was seen exited. -/
def Observed.Candid (o : Observed) : Prop :=
  o.Settled → o.seen ≠ [] ∧ ∀ x ∈ o.seen, ∃ state, (x.1, .ok (some state)) ∈ o.seen ∧ state.Exited

variable {o : Observed}

theorem Observed.Settled.completed_iff (h : o.Settled) : o.Completed ↔
    o.seen ≠ [] ∧ ∀ x ∈ o.seen, ∃ state, (x.1, .ok (some state)) ∈ o.seen ∧ state.Exited := by
  have hcode : ∀ {cid state}, (cid, .ok (some state)) ∈ o.seen → state.exitCode = 0 := by
    intro cid state hmem
    obtain ⟨data, hdata, hreport⟩ := h.2 _ hmem
    cases hdata
    exact congrArg Prod.snd hreport
  constructor
  · rintro ⟨ids, hids, hne, hall⟩
    obtain rfl : o.seen.map Prod.fst = ids := Option.some.inj (h.1.symm.trans hids)
    refine ⟨fun hnil => hne (by rw [hnil]; rfl), fun x hx => ?_⟩
    obtain ⟨state, hmem, hexited, -⟩ := hall x.1 (List.mem_map_of_mem hx)
    exact ⟨state, hmem, hexited⟩
  · rintro ⟨hne, hall⟩
    refine ⟨_, h.1, fun hnil => hne (List.map_eq_nil_iff.1 hnil), fun cid hcid => ?_⟩
    obtain ⟨x, hx, rfl⟩ := List.mem_map.1 hcid
    obtain ⟨state, hmem, hexited⟩ := hall x hx
    exact ⟨state, hmem, hexited, hcode hmem⟩

/-! ## When the wait returns zero -/

abbrev observing : Service waitCalls Observed :=
  tracking Observed.after fun _ => True

variable {podName : String}

theorem ensures_ask {α : Type} (op : Op) {f : op.Ans → Wait α} {Q : Observed → Except Error α → Prop}
    (hQ : ∀ r : op.Ans, Ends observing Q (f r).run (o.after ⟨op, r⟩)) : Ends observing Q (ask op >>= f).run o :=
  ensures_ask_bind (Γ := waitCalls) trivial fun r _ ho' => ho'.2 ▸ hQ r

theorem tally_eq_iff {acc : Bool × Int} {data : Option State} :
    tally acc data = (true, 0) ↔ acc = (true, 0) ∧ report data = (false, 0) := by
  obtain ⟨allExited, exitCode⟩ := acc
  simp only [tally]
  grind

/-- The invariant of a round over `done`: they have been inspected, and an exit code zero is still possible
exactly if they are all inactive. -/
structure Visited (ids done : List String) (acc : Bool × Int) (o : Observed) : Prop where
  listing : o.listing = some ids
  inspected : o.seen.map Prod.fst = done
  verdict : acc = (true, 0) ↔ ∀ x ∈ o.seen, Inactive x.2

theorem visit_ensures {ids done : List String} {acc : Bool × Int} {cid : String}
    (h : Visited ids done acc o) : Ends observing (fun o r =>
      (∀ acc, r = .ok acc → Visited ids (done ++ [cid]) acc o) ∧ ∀ e, r = .error e → ¬o.Settled)
      (visit podName acc cid).run o := by
  refine ensures_ask (.inspectContainer cid) fun r => ?_
  cases r with
  | error err =>
    refine ensures_ask .ctxErr fun _ => ensures_throw.2 ⟨nofun, fun _ _ hsettled => ?_⟩
    obtain ⟨_, heq, -⟩ := hsettled.2 (cid, .error err) List.mem_concat_self
    cases heq
  | ok data =>
    refine ensures_pure.2 ⟨fun _ hr => Except.ok.inj hr ▸ ⟨h.listing, ?_, ?_⟩, nofun⟩
    · show (o.seen ++ [(cid, Except.ok data)]).map Prod.fst = done ++ [cid]
      rw [List.map_append, h.inspected]
      rfl
    · show _ ↔ ∀ x ∈ o.seen ++ [(cid, .ok data)], Inactive x.2
      rw [tally_eq_iff, h.verdict, List.forall_mem_append, List.forall_mem_singleton]
      refine and_congr_right fun _ => ⟨fun hr => ⟨data, rfl, hr⟩, ?_⟩
      rintro ⟨_, heq, hr⟩
      exact Except.ok.inj heq ▸ hr

theorem round_ensures (ids : List String) : Ends observing (fun o r =>
    (∀ acc, r = .ok acc → (acc = (true, 0) ↔ o.Settled)) ∧ ∀ e, r = .error e → ¬o.Settled)
    (ids.foldlM (visit podName) (true, 0)).run ⟨some ids, []⟩ := by
  refine ensures_foldlM (Visited ids) ids (fun done cid rest _ acc o h => ?_) (fun acc o h => ?_)
    ⟨rfl, rfl, by simp⟩
  · exact (visit_ensures h).imp fun o r hr => ⟨hr.1, fun e he => ⟨nofun, fun _ _ => hr.2 e he⟩⟩
  · refine ⟨fun _ heq => ?_, nofun⟩
    rw [← Except.ok.inj heq, h.verdict]
    exact ⟨fun hall => ⟨h.inspected ▸ h.listing, hall⟩, And.right⟩

theorem waitForCompletion_ensures (u : Unicode) (rounds : Nat) (ho : ¬o.Settled) :
    Ends observing (fun o r => r = .ok (some 0) ↔ o.Settled) (waitForCompletion u podName rounds).run o := by
  induction rounds generalizing o with
  | zero => exact ensures_pure.2 ⟨nofun, fun h => absurd h ho⟩
  | succ rounds ih =>
    refine ensures_ask (.inspectPod podName) fun r => ?_
    cases r with
    | error err =>
      have hunsettled : ¬(⟨none, []⟩ : Observed).Settled := fun h => nomatch h.1
      dsimp only
      split
      · exact ensures_throw.2 ⟨nofun, fun h => absurd h hunsettled⟩
      · exact ensures_ask .ctxErr fun _ => ensures_throw.2 ⟨nofun, fun h => absurd h hunsettled⟩
    | ok ids =>
      refine (round_ensures ids).andThen (fun o e h => ⟨nofun, fun hs => absurd hs (h.2 e rfl)⟩) ?_
      rintro o ⟨allExited, exitCode⟩ h
      have hverdict := h.1 _ rfl
      cases allExited with
      | true =>
        refine ensures_pure.2 (Iff.trans ?_ hverdict)
        simp [Prod.ext_iff]
      | false =>
        have hunsettled : ¬o.Settled := fun hs => nomatch hverdict.2 hs
        refine ensures_ask .pause fun cause => ?_
        split
        · exact ensures_throw.2 ⟨nofun, fun hs => absurd hs hunsettled⟩
        · exact ensures_throw.2 ⟨nofun, fun hs => absurd hs hunsettled⟩
        · exact ih hunsettled

/-- A wait that returns zero has seen every container of its last listing exited with zero, and at least one,
exactly if podman's answers since that listing are candid: no inactive container is merely created, initialised or
paused, or without a state, and the listing is not empty. -/
theorem completion_observed_iff (u : Unicode) (podName : String) (rounds : Nat) (t : List (Event waitCalls))
    (out : Except Error (Option Int)) (h : Returns (waitForCompletion u podName rounds).run t out) :
    (out = .ok (some 0) → (t.foldl Observed.after .nothing).Completed) ↔ (t.foldl Observed.after .nothing).Candid := by
  have hrun := h.tracking (f := Observed.after) (fun _ _ => trivial) .nothing
  have hzero := (waitForCompletion_ensures (o := .nothing) u rounds fun hsettled => nomatch hsettled.1).post hrun
  rw [hzero]
  exact forall_congr' fun hsettled => hsettled.completed_iff

def gcPod (state : State) : Handler waitCalls Unit := fun _ op =>
  match op with
  | .inspectPod _ => (.ok ["gc"], ())
  | .inspectContainer _ => (.ok (some state), ())
  | .ctxErr | .pause => (none, ())

def gcRound (state : State) : Except Error (Option Int) × List (Event waitCalls) × Unit :=
  (waitForCompletion .ascii "registry-gc" 1).run.eval (gcPod state) ()

theorem returns_gcRound (state : State) :
    Returns (waitForCompletion .ascii "registry-gc" 1).run (gcRound state).2.1 (gcRound state).1 :=
  (exec_eval (gcPod state) _ ()).returns

/-- A container that has exited. -/
theorem exited_container_observed : (gcRound ⟨.exited, false, 0⟩).1 = .ok (some 0) ∧
    ((gcRound ⟨.exited, false, 0⟩).2.1.foldl Observed.after .nothing).Completed := by
  refine ⟨rfl, (completion_observed_iff .ascii "registry-gc" 1 _ _ (returns_gcRound _)).2 ?_ rfl⟩
  refine fun _ => ⟨nofun, fun x hx => ⟨⟨.exited, false, 0⟩, ?_, .inl rfl⟩⟩
  obtain rfl := List.mem_singleton.1 hx
  exact hx

/-- A container that was only created ends the wait with a zero. -/
theorem created_container_completes :
    Returns (waitForCompletion .ascii "registry-gc" 1).run (gcRound ⟨.created, false, 0⟩).2.1 (.ok (some 0)) ∧
    ¬((gcRound ⟨.created, false, 0⟩).2.1.foldl Observed.after .nothing).Completed := by
  refine ⟨returns_gcRound ⟨.created, false, 0⟩, ?_⟩
  rintro ⟨ids, hids, -, hall⟩
  obtain rfl : ["gc"] = ids := Option.some.inj hids
  obtain ⟨state, hmem, hexited, -⟩ := hall "gc" List.mem_cons_self
  obtain rfl : ⟨.created, false, 0⟩ = state :=
    Option.some.inj (Except.ok.inj (congrArg Prod.snd (List.mem_singleton.1 hmem)).symm)
  simp [State.Exited] at hexited

end PodmanApi.Podman.Completion
