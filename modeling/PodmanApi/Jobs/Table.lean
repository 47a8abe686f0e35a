/-
# PodmanApi.Jobs.Table — the table of jobs.

`internal/store` keeps one row per job, with a state that goes from queued to running to one of three final ones;
a restart moves running jobs of some kinds to reconciling. What a change can do to the rows is said once, in
`JobTable.Ages`: every row was a row of the old table that had come no further. Every change but an insert ages
the table, and an insert adds its own row.
-/
import Mathlib.Data.String.Basic
import PodmanApi.Data

namespace PodmanApi.Jobs

open GoStd

/-! ## Jobs -/

inductive JobState where
  | queued
  | running
  | reconciling
  | succeeded
  | failed
  | canceled
  deriving DecidableEq, Repr

def JobState.active : JobState → Bool
  | queued | running | reconciling => true
  | succeeded | failed | canceled => false

/-- How far a job has come; all final states are alike. -/
def JobState.age : JobState → Nat
  | queued => 0
  | running => 1
  | reconciling => 2
  | succeeded | failed | canceled => 3

theorem JobState.active_iff {state : JobState} : state.active = true ↔ state.age < 3 := by
  cases state <;> decide

theorem JobState.age_le (state : JobState) {final : JobState} (h : final.active = false) :
    state.age ≤ final.age := by
  revert h
  cases state <;> cases final <;> decide

/-- `Job`, without its progress steps. -/
structure Job where
  id : String
  kind : String
  args : String
  state : JobState
  parentID : String
  error : String
  created : Time
  started : Time
  finished : Time
  deriving DecidableEq, Repr

def Job.childOf (c p : Job) : Bool :=
  c.parentID != "" && c.parentID == p.id

structure JobFilter where
  state : Option JobState := none
  kind : String := ""
  parentID : String := ""
  limit : Int := 0
  before : String := ""
  deriving DecidableEq, Repr

def defaultJobLimit : Nat := 100

def maxJobLimit : Nat := 1000

def clampJobLimit (n : Int) : Nat :=
  if n ≤ 0 then defaultJobLimit else if maxJobLimit < n then maxJobLimit else n.toNat

/-- The `WHERE` clause of `ListJobs`. -/
def JobFilter.accepts (f : JobFilter) (j : Job) : Bool :=
  (f.state.all (· == j.state)) && (f.kind == "" || j.kind == f.kind) &&
    (f.parentID == "" || j.parentID == f.parentID) && (f.before == "" || decide (j.id < f.before))

/-- Which queued jobs a claim may take: `ClaimNext`, `ClaimNextMatching` or `ClaimNextExcluding`. -/
inductive ClaimScope where
  | any
  | matching (kinds : List String)
  | excluding (kinds : List String)
  deriving DecidableEq, Repr

/-- The extra predicate of `claimNextWhere`. -/
def ClaimScope.accepts : ClaimScope → String → Bool
  | any, _ => true
  | matching kinds, kind => kinds.contains kind
  | excluding kinds, kind => !kinds.contains kind

def Job.olderOrSame (a b : Job) : Bool :=
  decide (a.created.ns < b.created.ns) || (a.created == b.created && decide (a.id ≤ b.id))

/-! ## The table -/

@[ext]
structure JobTable where
  list : List Job
  nodup : (list.map Job.id).Nodup

namespace JobTable

def empty : JobTable := ⟨[], List.nodup_nil⟩

variable (t : JobTable) (id : String)

/-- `ListJobs`: the newest jobs that the filter accepts, as far as the limit goes. -/
def page (f : JobFilter) : List Job :=
  ((t.list.filter f.accepts).insertionSort fun a b => b.id ≤ a.id).take (clampJobLimit f.limit)

def get : Option Job :=
  t.list.find? (·.id == id)

/-- The insert of `Enqueue` and of `StartChild`. -/
def insert (j : Job) (fresh : j.id ∉ t.list.map Job.id) : JobTable where
  list := t.list ++ [j]
  nodup := by
    rw [List.map_append, List.nodup_append]
    refine ⟨t.nodup, List.nodup_singleton _, ?_⟩
    rintro id hid _ hlast rfl
    exact fresh (List.mem_singleton.1 hlast ▸ hid)

/-- An `UPDATE` that leaves the ids alone. -/
def update (f : Job → Job) (hid : ∀ j, (f j).id = j.id) : JobTable where
  list := t.list.map f
  nodup := by
    have hids : (t.list.map f).map Job.id = t.list.map Job.id := by
      rw [List.map_map]
      exact List.map_congr_left fun j _ => hid j
    exact hids ▸ t.nodup

def remove (gone : Job → Bool) : JobTable where
  list := t.list.filter fun j => !gone j
  nodup := t.nodup.sublist (List.filter_sublist.map Job.id)

def claimable (scope : ClaimScope) : Option Job :=
  ((t.list.filter fun j => j.state == .queued && scope.accepts j.kind).insertionSort
    fun a b => a.olderOrSame b = true).head?

/-- The new state of the jobs that `which` selects. -/
def mark (which : Job → Bool) (f : Job → Job) (hid : ∀ j, (f j).id = j.id) : JobTable :=
  t.update (fun j => if which j then f j else j) fun j => by
    split
    · exact hid j
    · rfl

def claim (j : Job) (now : Time) : JobTable :=
  t.mark (fun row => row.id == j.id && row.state == .queued)
    (fun row => { row with state := .running, started := now }) fun _ => rfl

def conclude (which : Job → Bool) (state : JobState) (msg : String) (now : Time) : JobTable :=
  t.mark which (fun row => { row with state := state, error := msg, finished := now }) fun _ => rfl

/-- `Finish`, for a valid final state. -/
def finish (state : JobState) (msg : String) (now : Time) : JobTable :=
  t.conclude (·.id == id) state msg now

def failRunning (reason : String) (now : Time) : JobTable :=
  t.conclude (·.state == .running) .failed reason now

/-- `ResolveReconciling`, for a valid final state. -/
def resolveReconciling (state : JobState) (msg : String) (now : Time) : JobTable :=
  t.conclude (fun row => row.id == id && row.state == .reconciling) state msg now

/-- A cancellation of a job that is still in this state; the message stays. -/
def cancelFrom (state : JobState) (id : String) (now : Time) : JobTable :=
  t.mark (fun row => row.id == id && row.state == state)
    (fun row => { row with state := .canceled, finished := now }) fun _ => rfl

def cancelQueued (now : Time) : JobTable :=
  t.cancelFrom .queued id now

def cancelReconciling (now : Time) : JobTable :=
  t.cancelFrom .reconciling id now

def markReconciling (kinds : List String) : JobTable :=
  t.mark (fun row => row.state == .running && kinds.contains row.kind)
    (fun row => { row with state := .reconciling }) fun _ => rfl

def expired (cutoff : Time) (j : Job) : Bool :=
  !j.state.active && !j.finished.isZero && decide (j.finished.ns < cutoff.ns)

/-- `PruneJobs`: expired children first, then expired jobs that no row names as its parent. -/
def pruneJobs (cutoff : Time) : JobTable :=
  let rest := t.remove fun j => j.parentID != "" && expired cutoff j
  rest.remove fun j => expired cutoff j && !rest.list.any (·.childOf j)

/-! ## The state of one job -/

def stateOf : Option JobState :=
  (t.get id).map Job.state

variable {which : Job → Bool} {f : Job → Job} {j : Job} {id : String} {hid : ∀ j, (f j).id = j.id}

theorem get_eq_some : t.get id = some j ↔ j ∈ t.list ∧ j.id = id := by
  constructor
  · intro h
    exact ⟨List.mem_of_find?_eq_some h, by simpa using List.find?_some h⟩
  · rintro ⟨hmem, rfl⟩
    obtain ⟨j', hget⟩ : ∃ j', t.get j.id = some j' :=
      Option.isSome_iff_exists.1 (List.find?_isSome.2 ⟨j, hmem, beq_self_eq_true _⟩)
    have hid : j'.id = j.id := by simpa using List.find?_some hget
    rw [hget, List.inj_on_of_nodup_map t.nodup (List.mem_of_find?_eq_some hget) hmem hid]

theorem get_eq_none : t.get id = none ↔ id ∉ t.list.map Job.id := by
  simp [get]

theorem stateOf_of_mem (h : j ∈ t.list) : t.stateOf j.id = some j.state := by
  rw [stateOf, (get_eq_some t).2 ⟨h, rfl⟩, Option.map_some]

theorem stateOf_eq_none : t.stateOf id = none ↔ id ∉ t.list.map Job.id := by
  rw [stateOf, Option.map_eq_none_iff, get_eq_none]

theorem get_mark (id : String) :
    (t.mark which f hid).get id = (t.get id).map fun j => if which j then f j else j := by
  have hsame : ((·.id == id) ∘ fun j => if which j then f j else j) = (·.id == id) := by
    funext j
    dsimp only [Function.comp_apply]
    split
    · rw [hid]
    · rfl
  show (t.list.map _).find? _ = _
  rw [List.find?_map, hsame]
  rfl

theorem get_insert (fresh : j.id ∉ t.list.map Job.id) (id : String) :
    (t.insert j fresh).get id = if j.id = id then some j else t.get id := by
  have hnone : j.id = id → t.get id = none := by
    rintro rfl
    exact (get_eq_none t).2 fresh
  show (t.list ++ [j]).find? _ = _
  rw [List.find?_append]
  split
  · rename_i heq
    rw [show t.list.find? (·.id == id) = none from hnone heq]
    simp [heq]
  · rename_i hne
    simp [hne, get]

theorem get_remove {gone : Job → Bool} (id : String) :
    (t.remove gone).get id = (t.get id).filter fun j => !gone j := by
  cases hget : t.get id with
  | none =>
    have hnone := (get_eq_none t).1 hget
    refine (get_eq_none _).2 fun hmem => hnone ?_
    obtain ⟨j, hj, hjid⟩ := List.mem_map.1 hmem
    exact List.mem_map.2 ⟨j, (List.mem_filter.1 hj).1, hjid⟩
  | some j =>
    obtain ⟨hj, rfl⟩ := (get_eq_some t).1 hget
    rw [Option.filter_some]
    split
    · rename_i hkeep
      exact (get_eq_some _).2 ⟨List.mem_filter.2 ⟨hj, hkeep⟩, rfl⟩
    · rename_i hgone
      refine (get_eq_none _).2 fun hmem => hgone ?_
      obtain ⟨j', hj', hid⟩ := List.mem_map.1 hmem
      obtain ⟨hj', hkeep⟩ := List.mem_filter.1 hj'
      rwa [List.inj_on_of_nodup_map t.nodup hj' hj hid] at hkeep

theorem stateOf_mark_of_mem
    (h : j ∈ t.list) : (t.mark which f hid).stateOf j.id = some (if which j then f j else j).state := by
  rw [stateOf, get_mark, (get_eq_some t).2 ⟨h, rfl⟩]
  rfl

theorem stateOf_mark (id : String) : (t.mark which f hid).stateOf id = t.stateOf id ∨
      ∃ j ∈ t.list, j.id = id ∧ which j = true ∧ (t.mark which f hid).stateOf id = some (f j).state := by
  unfold stateOf
  rw [get_mark]
  cases hget : t.get id with
  | none => exact .inl rfl
  | some j =>
    obtain ⟨hj, rfl⟩ := (get_eq_some t).1 hget
    by_cases hwhich : which j = true
    · exact .inr ⟨j, hj, rfl, hwhich, by simp [hwhich]⟩
    · exact .inl (by simp [hwhich])

theorem stateOf_remove (gone : Job → Bool) (id : String) : (t.remove gone).stateOf id = t.stateOf id ∨
      ∃ j ∈ t.list, j.id = id ∧ gone j = true ∧ (t.remove gone).stateOf id = none := by
  unfold stateOf
  rw [get_remove]
  cases hget : t.get id with
  | none => exact .inl rfl
  | some j =>
    obtain ⟨hj, rfl⟩ := (get_eq_some t).1 hget
    by_cases hgone : gone j = true
    · exact .inr ⟨j, hj, rfl, hgone, by simp [hgone]⟩
    · exact .inl (by simp [hgone])

/-! ## What a listing shows -/

section Page

variable {t} {f : JobFilter} {j : Job}

theorem page_complete (hj : j ∈ t.list) (haccepts : f.accepts j = true)
    (hlen : (t.list.filter f.accepts).length ≤ clampJobLimit f.limit) : j ∈ t.page f := by
  unfold JobTable.page
  rw [List.take_of_length_le (by rw [List.length_insertionSort]; exact hlen), List.mem_insertionSort]
  exact List.mem_filter.2 ⟨hj, haccepts⟩

theorem page_newest (hj : j ∈ t.list) (haccepts : f.accepts j = true) (hlimit : 0 < clampJobLimit f.limit)
    (hnewest : ∀ i ∈ t.list, f.accepts i = true → i.id ≤ j.id) : j ∈ t.page f := by
  have hmem : j ∈ (t.list.filter f.accepts).insertionSort fun a b => b.id ≤ a.id :=
    (List.mem_insertionSort _).2 (List.mem_filter.2 ⟨hj, haccepts⟩)
  have hsorted := List.pairwise_insertionSort (fun a b : Job => b.id ≤ a.id) (t.list.filter f.accepts)
  unfold JobTable.page
  cases hsort : (t.list.filter f.accepts).insertionSort fun a b => b.id ≤ a.id with
  | nil =>
    rw [hsort] at hmem
    cases hmem
  | cons first rest =>
    rw [hsort] at hmem hsorted
    have hfirst : first ∈ t.list.filter f.accepts :=
      (List.mem_insertionSort _).1 (hsort ▸ List.mem_cons_self)
    obtain ⟨hfirst, hfirstAccepts⟩ := List.mem_filter.1 hfirst
    have hle : j.id ≤ first.id := by
      rcases List.mem_cons.1 hmem with rfl | hmem
      · exact le_refl _
      · exact List.rel_of_pairwise_cons hsorted hmem
    have hid : j.id = first.id := le_antisymm hle (hnewest first hfirst hfirstAccepts)
    obtain rfl := List.inj_on_of_nodup_map t.nodup hj hfirst hid
    obtain ⟨n, hn⟩ := Nat.exists_eq_succ_of_ne_zero hlimit.ne'
    rw [hn]
    exact List.mem_cons_self

end Page

/-! ## What a change does to the active jobs -/

def Active (kind args : String) : Prop :=
  ∃ j ∈ t.list, j.state.active = true ∧ j.kind = kind ∧ j.args = args

/-- A job of this kind with these arguments has come less far than this. -/
def Young (n : Nat) (kind args : String) : Prop :=
  ∃ j ∈ t.list, j.state.age < n ∧ j.kind = kind ∧ j.args = args

theorem active_iff_young {kind args : String} : t.Active kind args ↔ t.Young 3 kind args := by
  unfold Active Young
  simp only [JobState.active_iff]

/-- Every active job of `t'` is a job of `t` that had come no further. -/
def Keeps (t' : JobTable) : Prop :=
  ∀ n kind args, n ≤ 3 → t'.Young n kind args → t.Young n kind args

/-- Every row of `t'` is a row of `t`, with the same id, kind and arguments, that had come no further. -/
def Ages (t' : JobTable) : Prop :=
  ∀ j' ∈ t'.list, ∃ j ∈ t.list,
    j.id = j'.id ∧ j.kind = j'.kind ∧ j.args = j'.args ∧ j.state.age ≤ j'.state.age

variable {t}

theorem ages_refl : t.Ages t :=
  fun j hj => ⟨j, hj, rfl, rfl, rfl, Nat.le_refl _⟩

theorem Ages.trans {t' t'' : JobTable} (h : t.Ages t') (h' : t'.Ages t'') : t.Ages t'' := by
  intro j'' hj''
  obtain ⟨j', hj', hid', hkind', hargs', hage'⟩ := h' j'' hj''
  obtain ⟨j, hj, hid, hkind, hargs, hage⟩ := h j' hj'
  exact ⟨j, hj, hid.trans hid', hkind.trans hkind', hargs.trans hargs', Nat.le_trans hage hage'⟩

theorem Ages.keeps {t' : JobTable} (h : t.Ages t') : t.Keeps t' := by
  rintro n kind args - ⟨j', hj', hyoung, rfl, rfl⟩
  obtain ⟨j, hj, -, hkind, hargs, hage⟩ := h j' hj'
  exact ⟨j, hj, Nat.lt_of_le_of_lt hage hyoung, hkind, hargs⟩

theorem ages_remove (gone : Job → Bool) : t.Ages (t.remove gone) :=
  fun j hj => ages_refl j (List.mem_filter.1 hj).1

theorem ages_mark
    (hf : ∀ j, which j = true → j.state.age ≤ (f j).state.age ∧ (f j).kind = j.kind ∧ (f j).args = j.args) :
    t.Ages (t.mark which f hid) := by
  intro j' hj'
  obtain ⟨row, hrow, rfl⟩ := List.mem_map.1 hj'
  split
  · rename_i hwhich
    obtain ⟨hage, hkind, hargs⟩ := hf row hwhich
    exact ⟨row, hrow, (hid row).symm, hkind.symm, hargs.symm, hage⟩
  · exact ages_refl row hrow

theorem ages_claim (j : Job) (now : Time) : t.Ages (t.claim j now) := by
  refine ages_mark fun row hwhich => ⟨?_, rfl, rfl⟩
  obtain ⟨-, hqueued⟩ := Bool.and_eq_true_iff.1 hwhich
  rw [beq_iff_eq.1 hqueued]
  exact Nat.zero_le _

theorem ages_conclude {state : JobState} (h : state.active = false)
    (msg : String) (now : Time) : t.Ages (t.conclude which state msg now) :=
  ages_mark fun row _ => ⟨row.state.age_le h, rfl, rfl⟩

theorem ages_cancelFrom (state : JobState) (id : String) (now : Time) : t.Ages (t.cancelFrom state id now) :=
  ages_mark fun row _ => ⟨row.state.age_le rfl, rfl, rfl⟩

theorem ages_markReconciling (kinds : List String) : t.Ages (t.markReconciling kinds) := by
  refine ages_mark fun row hwhich => ⟨?_, rfl, rfl⟩
  obtain ⟨hrunning, -⟩ := Bool.and_eq_true_iff.1 hwhich
  rw [beq_iff_eq.1 hrunning]
  exact Nat.le_succ 1

theorem ages_pruneJobs (cutoff : Time) : t.Ages (t.pruneJobs cutoff) :=
  (ages_remove _).trans (ages_remove _)

theorem young_insert {fresh : j.id ∉ t.list.map Job.id} {n : Nat} {kind args : String}
    (h : (t.insert j fresh).Young n kind args) : t.Young n kind args ∨ (kind = j.kind ∧ args = j.args) := by
  obtain ⟨row, hrow, hyoung, hkind, hargs⟩ := h
  obtain hrow | hrow := List.mem_append.1 hrow
  · exact .inl ⟨row, hrow, hyoung, hkind, hargs⟩
  · rw [List.mem_singleton.1 hrow] at hkind hargs
    exact .inr ⟨hkind.symm, hargs.symm⟩

end JobTable

end PodmanApi.Jobs
