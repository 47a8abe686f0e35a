/-
# PodmanApi.Jobs.DeleteBackup — the deletion of a backup beside the jobs that need it.

`internal/backupctl` deletes a backup when no backup or restore job that targets it is active. It looks by six
listings, one for each kind and active state; nothing is locked between them and the deletion, and a request for
a restore does not look for a deletion.

A job goes from queued to running to reconciling and never back. So three listings in that order that show no
job show that there is none, but for what was queued later. `Scan` is how far a deletion has come.
-/
import PodmanApi.Instance.Backup
import PodmanApi.Jobs.Recovery

namespace PodmanApi.Jobs

open GoStd Calls
open Function (update update_self update_of_ne update_idem)

/-! ## The programs -/

/-- JSON of the requests that name a backup: of a restore, and of a backup. -/
structure BackupCodec where
  marshalRestore : String → Except Error String
  restoreTarget : String → Except Error String
  backupTarget : String → Except Error String

/-- Arguments that carry this backup id; what cannot be decoded carries none. -/
def carries (unmarshal : String → Except Error String) (backupID args : String) : Bool :=
  match unmarshal args with
  | .error _ => false
  | .ok id => id == backupID

def activeFilter (kind : String) (state : JobState) : JobFilter where
  state := some state
  kind := kind
  limit := maxJobLimit

/-- The loop of `jobTargetsBackup`. -/
def scanStates (kind backupID : String) (unmarshal : String → Except Error String) : List JobState → Work Bool
  | [] => pure false
  | state :: states => do
    let jobs ← Act.lift (issue (.listJobs (activeFilter kind state)))
    if jobs.any fun j => carries unmarshal backupID j.args then pure true
    else scanStates kind backupID unmarshal states

def jobTargetsBackup (kind backupID : String) (unmarshal : String → Except Error String) : Work Bool :=
  scanStates kind backupID unmarshal [.queued, .running, .reconciling]

namespace BackupCodec

variable (c : BackupCodec)

def restoreInFlight (backupID : String) : Work Bool :=
  jobTargetsBackup "restore" backupID c.restoreTarget

def backupInFlight (backupID : String) : Work Bool :=
  jobTargetsBackup "backup" backupID c.backupTarget

/-- `BackupDeletable`, with a job store. -/
def backupDeletable (backupID : String) : Work Unit :=
  forM [c.restoreInFlight, c.backupInFlight] fun check => do
    if ← check backupID then throw (.sentinel .backupBusy)

def deleteBackup (svc : Instance.Service) (id : String) : Work Unit := do
  c.backupDeletable id
  match ← Act.attempt (viaService (svc.deleteBackup id)) with
  | .ok _ => pure ()
  | .error e => if e.is .backupNotFound then pure () else throw e

/-- `postRestore`, up to the answer: the id of the job. -/
def postRestore (svc : Instance.Service) (id : String) : Work String := do
  let _ ← viaService (svc.checkRestorable id)
  let args ← Act.lift (pure (c.marshalRestore id))
  let job ← Act.lift (issue (.enqueue "restore" args ""))
  pure job.id

/-- A job of one of the two kinds targets the backup that its arguments carry. -/
def targets (kind backupID args : String) : Bool :=
  if kind = "restore" then carries c.restoreTarget backupID args
  else if kind = "backup" then carries c.backupTarget backupID args
  else false

end BackupCodec

/-! ## How far a deletion has looked -/

/-- The backup that a thread deletes, if it does; and for each kind, how many of the active states it has listed,
in order, without finding a job that targets the backup. -/
structure Scan where
  id : Option String
  seen : String → Nat

def Scan.of (id : Option String) : Scan := ⟨id, fun _ => 0⟩

/-- A thread that has listed `n` more states of a kind. -/
def Scan.add (w : Scan) (kind : String) (n : Nat) : Scan :=
  { w with seen := update w.seen kind (w.seen kind + n) }

@[simp]
theorem Scan.add_id (w : Scan) (kind : String) (n : Nat) : (w.add kind n).id = w.id := rfl

@[simp]
theorem Scan.add_seen (w : Scan) (kind : String) (n : Nat) : (w.add kind n).seen kind = w.seen kind + n :=
  update_self ..

variable {kind : String} {state : JobState} {t : JobTable}

theorem Scan.add_seen_of_ne (w : Scan) {kind' : String} (n : Nat) (h : kind' ≠ kind) :
    (w.add kind n).seen kind' = w.seen kind' :=
  update_of_ne h ..

theorem Scan.add_add (w : Scan) (kind : String) (n m : Nat) : (w.add kind n).add kind m = w.add kind (n + m) := by
  simp only [Scan.add, update_idem, update_self, Nat.add_assoc]

/-- The scan after one more call. Once a deletion has found a job, was told of an error or has deleted the blobs,
what it has seen no longer matters. -/
def Scan.after (c : BackupCodec) (w : Scan) : Event jobCalls → Scan
  | ⟨.listJobs f, .ok jobs⟩ =>
    if f.state.map JobState.age = some (w.seen f.kind) ∧
        w.id.all (fun id => !jobs.any fun j => c.targets f.kind id j.args) = true then
      w.add f.kind 1
    else .of w.id
  | ⟨.service (.getBackup _), .ok _⟩ => w
  | ⟨_, _⟩ => .of w.id

/-- What a deletion lists, and what it has seen when it deletes the blobs. -/
def Careful (w : Scan) (op : Op) : Prop :=
  w.id.isSome = true → match op with
    | .listJobs f => ∃ kind state, f = activeFilter kind state ∧ state.active = true
    | .service (.blobDeleteAll _) => w.seen "restore" = 3 ∧ w.seen "backup" = 3
    | _ => True

abbrev scanning (c : BackupCodec) : Calls.Service jobCalls Scan :=
  tracking (Scan.after c) fun _ => True

section Program

variable {c : BackupCodec} {w : Scan} {id : String} {α : Type}

theorem scan_issue (op : Op) {Q : Scan → op.Ans → Prop} (hG : Careful w op)
    (hQ : ∀ r, Q (w.after c ⟨op, r⟩) r) : Ensures (scanning c) Careful Q (issue op) w :=
  ensures_perform hG fun r _ hr => hr.2 ▸ hQ r

theorem Scan.after_listed {jobs : List Job} (hid : w.id = some id)
    (hage : state.age = w.seen kind) (hnone : (jobs.any fun j => c.targets kind id j.args) = false) :
    w.after c ⟨.listJobs (activeFilter kind state), .ok jobs⟩ = w.add kind 1 := by
  refine if_pos ⟨congrArg some hage, ?_⟩
  rw [hid]
  exact congrArg not hnone

theorem scanStates_careful {unmarshal : String → Except Error String} (hid : w.id = some id)
    (htargets : ∀ args, c.targets kind id args = carries unmarshal id args) {states : List JobState}
    (hactive : ∀ state ∈ states, state.active = true)
    (hages : states.map JobState.age = List.range' (w.seen kind) states.length) :
    Ensures (scanning c) Careful (fun w' r => r = .ok false → w' = w.add kind states.length)
      (scanStates kind id unmarshal states).run w := by
  induction states generalizing w with
  | nil =>
    refine ensures_pure.2 fun _ => ?_
    simp [Scan.add]
  | cons state states ih =>
    rw [List.map_cons, List.length_cons, List.range'_succ, List.cons.injEq] at hages
    obtain ⟨hage, hages⟩ := hages
    refine ensures_run_bind.2 (scan_issue (.listJobs (activeFilter kind state)) ?_ fun r => ⟨?_, nofun⟩)
    · exact fun _ => ⟨kind, state, rfl, hactive state List.mem_cons_self⟩
    rintro jobs rfl
    split
    · exact ensures_pure.2 nofun
    · rename_i hnone
      have hnone : (jobs.any fun j => c.targets kind id j.args) = false := by simpa [htargets] using hnone
      rw [Scan.after_listed hid hage hnone]
      refine (ih (w := w.add kind 1) hid (fun s hs => hactive s (List.mem_cons_of_mem _ hs)) ?_).imp ?_
      · rw [Scan.add_seen]
        exact hages
      · intro w' r h hr
        rw [h hr, Scan.add_add, Nat.add_comm, List.length_cons]

theorem jobTargetsBackup_careful (kind : String) {unmarshal : String → Except Error String}
    (hid : w.id = some id) (htargets : ∀ args, c.targets kind id args = carries unmarshal id args)
    (hseen : w.seen kind = 0) : Ensures (scanning c) Careful (fun w' r => r = .ok false → w' = w.add kind 3)
      (jobTargetsBackup kind id unmarshal).run w := by
  have hactive : ∀ state ∈ [JobState.queued, .running, .reconciling], state.active = true := by decide
  refine scanStates_careful hid htargets hactive ?_
  rw [hseen]
  rfl

theorem service_careful (svc : Instance.Service) (hrestore : w.seen "restore" = 3) (hbackup : w.seen "backup" = 3) :
    Ensures (scanning c) Careful (fun _ _ => True) (viaService (svc.deleteBackup id)).run w := by
  refine ensures_via.2 ?_
  refine .andThen (P := fun w' _ => w' = w) (ensures_require.2 ⟨fun _ => rfl, fun _ => rfl⟩)
    (fun _ _ _ => trivial) ?_
  rintro w _ rfl
  refine .andThen (P := fun w' r => ∀ b, r = .ok b → w' = w) ?_ (fun _ _ _ => trivial) ?_
  · refine ensures_mapErr.2 (ensures_issue (Instance.Op.getBackup id) (fun _ => trivial) ?_)
    rintro r _ ⟨r', ⟨-, rfl⟩, rfl⟩ b hb
    cases r' with
    | error e => cases hb
    | ok b' => rfl
  intro w' b hw
  rw [hw b rfl]
  have hdelete : ∀ under, Careful w (.service (.blobDeleteAll under)) := fun _ _ => ⟨hrestore, hbackup⟩
  refine .andThen (P := fun _ _ => True) ?_ (fun _ _ _ => trivial) fun w' _ _ => ?_
  · exact ensures_mapErr.2 (ensures_issue (Instance.Op.blobDeleteAll _) (hdelete _) fun _ _ _ => trivial)
  refine ensures_ask_bind (fun _ => trivial) fun r w' _ => ?_
  split
  · exact ensures_pure.2 trivial
  · split
    · exact ensures_pure.2 trivial
    · exact ensures_throw.2 trivial

theorem refuse_careful {check : Work Bool} {w' : Scan}
    (hcheck : Ensures (scanning c) Careful (fun w₁ r => r = .ok false → w₁ = w') check.run w) :
    Ensures (scanning c) Careful (fun w₁ r => r = .ok ⟨⟩ → w₁ = w')
      (do if ← check then throw (.sentinel .backupBusy) : Work PUnit).run w := by
  refine hcheck.andThen (fun _ _ _ => nofun) fun w₁ busy h => ?_
  cases busy with
  | true => exact ensures_throw.2 nofun
  | false => exact ensures_pure.2 fun _ => h rfl

theorem backupDeletable_careful (id : String) : Ensures (scanning c) Careful
      (fun w r => r = .ok ⟨⟩ → w = ((Scan.of (some id)).add "restore" 3).add "backup" 3)
      (c.backupDeletable id).run (.of (some id)) := by
  have hrestore := refuse_careful (jobTargetsBackup_careful (c := c) (w := .of (some id)) "restore" rfl
    (fun _ => rfl) rfl)
  refine hrestore.andThen (fun _ _ _ => nofun) fun w _ hw => ?_
  rw [hw rfl]
  have hbackup := refuse_careful (jobTargetsBackup_careful (c := c)
    (w := (Scan.of (some id)).add "restore" 3) "backup" rfl (fun _ => rfl) rfl)
  refine hbackup.andThen (fun _ _ _ => nofun) fun w _ hw => ?_
  exact ensures_pure.2 fun _ => hw rfl

theorem deleteBackup_careful (svc : Instance.Service) (id : String) :
    Ensures (scanning c) Careful (fun _ _ => True) (c.deleteBackup svc id).run (.of (some id)) := by
  refine (backupDeletable_careful id).andThen (fun _ _ _ => trivial) fun w _ hw => ?_
  rw [hw rfl]
  refine (service_careful svc rfl rfl).attemptThen fun w r _ => ?_
  split
  · exact ensures_pure.2 trivial
  · split
    · exact ensures_pure.2 trivial
    · exact ensures_throw.2 trivial

theorem Scan.after_cases (w : Scan) (e : Event jobCalls) : w.after c e = .of w.id ∨ w.after c e = w ∨
    ∃ f jobs, e = ⟨.listJobs f, .ok jobs⟩ ∧ f.state.map JobState.age = some (w.seen f.kind) ∧
      w.id.all (fun id => !jobs.any fun j => c.targets f.kind id j.args) = true ∧ w.after c e = w.add f.kind 1 := by
  unfold Scan.after
  split
  · rename_i f jobs
    split
    · rename_i hseen
      exact .inr (.inr ⟨f, jobs, rfl, hseen.1, hseen.2, rfl⟩)
    · exact .inl rfl
  · exact .inr (.inl rfl)
  · exact .inl rfl

theorem Scan.after_id (w : Scan) (e : Event jobCalls) : (w.after c e).id = w.id := by
  rcases Scan.after_cases (c := c) w e with h | h | ⟨f, jobs, -, -, -, h⟩ <;> rw [h] <;> rfl

theorem other_careful (p : Prog jobCalls α) (hid : w.id = none) :
    Ensures (scanning c) Careful (fun _ _ => True) p w := by
  refine (issues_true p).ensures (I := fun w : Scan => w.id = none) ?_ ?_ hid |>.imp fun _ _ _ => trivial
  · rintro w op r _ - hw ⟨-, rfl⟩
    exact (Scan.after_id w _).trans hw
  · intro w op _ hw hsome
    rw [hw] at hsome
    cases hsome

end Program

/-! ## Side by side -/

/-- At most `MaxJobLimit` active jobs in each state. -/
def JobTable.Bounded (t : JobTable) : Prop :=
  ∀ state : JobState, state.active = true → t.count (·.state == state) ≤ maxJobLimit

/-- What a deletion has seen is worth something: the jobs that target the backup have all come further. -/
def Scan.Clear (c : BackupCodec) (t : JobTable) (w : Scan) : Prop :=
  ∀ id, w.id = some id → ∀ kind, w.seen kind ≤ 3 ∧
    ∀ args, c.targets kind id args = true → ¬t.Young (w.seen kind) kind args

theorem activeFilter_accepts {j : Job} (hkind : j.kind = kind)
    (hstate : j.state = state) : (activeFilter kind state).accepts j = true := by
  simp [JobFilter.accepts, activeFilter, hkind, hstate]

theorem bounded_listing (ht : t.Bounded) (hactive : state.active = true) :
    (t.list.filter (activeFilter kind state).accepts).length ≤ clampJobLimit (activeFilter kind state).limit := by
  rw [← List.countP_eq_length_filter]
  refine (List.countP_mono_left fun j _ haccepts => ?_).trans (ht state hactive)
  simp only [JobFilter.accepts, activeFilter, Bool.and_eq_true, Option.all_some, beq_iff_eq] at haccepts
  exact beq_iff_eq.2 haccepts.1.1.1.symm

theorem JobState.eq_of_age {a b : JobState} (hb : b.active = true) (h : a.age = b.age) : a = b := by
  revert hb h
  cases a <;> cases b <;> decide

theorem Scan.Clear.listed {c : BackupCodec} {w : Scan}
    (h : w.Clear c t) (ht : t.Bounded) (hactive : state.active = true) (hage : state.age = w.seen kind)
    (hnone : w.id.all (fun id => !(t.page (activeFilter kind state)).any
      fun j => c.targets kind id j.args) = true) : (w.add kind 1).Clear c t := by
  intro id hid kind'
  by_cases hkind : kind' = kind
  · subst hkind
    rw [Scan.add_seen, ← hage]
    refine ⟨JobState.active_iff.1 hactive, ?_⟩
    rintro args htargets ⟨j, hj, hyoung, hjkind, rfl⟩
    rcases Nat.lt_succ_iff_lt_or_eq.1 hyoung with hless | heq
    · exact (h id hid kind').2 j.args htargets ⟨j, hj, hage ▸ hless, hjkind, rfl⟩
    · have haccepts := activeFilter_accepts hjkind (JobState.eq_of_age hactive heq)
      have hmem : j ∈ t.page (activeFilter kind' state) :=
        JobTable.page_complete hj haccepts (bounded_listing ht hactive)
      rw [Scan.add_id] at hid
      rw [hid, Option.all_some, Bool.not_eq_true', List.any_eq_false] at hnone
      exact hnone j hmem htargets
  · rw [Scan.add_seen_of_ne w 1 hkind]
    exact h id hid kind'

theorem Scan.clear_of {c : BackupCodec} (id : Option String) : (Scan.of id).Clear c t :=
  fun _ _ _ => ⟨Nat.zero_le 3, fun _ _ ⟨_, _, hage, _⟩ => absurd hage (Nat.not_lt_zero _)⟩

section Pool

variable {ι : Type} [DecidableEq ι] (c : BackupCodec)

/-- The condition: no job that targets the backup of a deletion is inserted once the deletion has listed the
queued jobs of that kind. -/
def Unmissed (_ : ι) (s : JobTable × (ι → Scan)) (op : Op) : Prop :=
  ∀ kind args, op.inserted = some (kind, args) → ∀ j id, (s.2 j).id = some id →
    c.targets kind id args = true → (s.2 j).seen kind = 0

/-- Threads over the job store, each with its scan, with few enough active jobs. -/
def crowd : Shared jobCalls ι (JobTable × (ι → Scan)) :=
  (watched (Scan.after c) fun _ => jobStore).when fun _ s _ => s.1.Bounded

variable {c} {s s' : JobTable × (ι → Scan)} {i : ι} {op : Op} {r : op.Ans}

omit [DecidableEq ι] in
theorem Scan.Clear.kept {j : ι} (h : (s.2 j).Clear c s.1) (hcond : Unmissed c i s op)
    (hstore : jobStore s.1 op r s'.1) : (s.2 j).Clear c s'.1 := by
  intro id hid kind
  obtain ⟨hseen, hclear⟩ := h id hid kind
  refine ⟨hseen, fun args htargets hyoung => ?_⟩
  rcases jobStore_young hstore hseen hyoung with hold | hnew
  · exact hclear args htargets hold
  · rw [hcond kind args hnew j id hid htargets] at hyoung
    obtain ⟨_, _, hage, _⟩ := hyoung
    exact absurd hage (Nat.not_lt_zero _)

omit [DecidableEq ι] in
theorem Scan.Clear.answered (h : (s.2 i).Clear c s.1) (hcareful : Careful (s.2 i) op) (hcond : Unmissed c i s op)
    (hbound : s.1.Bounded) (hstore : jobStore s.1 op r s'.1) : ((s.2 i).after c ⟨op, r⟩).Clear c s'.1 := by
  have hkept := h.kept hcond hstore
  rcases Scan.after_cases (c := c) (s.2 i) ⟨op, r⟩ with hof | hsame | ⟨f, jobs, he, hage, hnone, hadd⟩
  · rw [hof]
    exact Scan.clear_of _
  · rw [hsame]
    exact hkept
  · cases he
    obtain ⟨htable, hpage⟩ : s'.1 = s.1 ∧ _ := hstore
    obtain rfl : jobs = s.1.page f := by
      rcases hpage with hpage | ⟨e, he⟩
      · exact Except.ok.inj hpage
      · cases he
    rw [hadd, htable]
    intro id hid
    obtain ⟨kind, state, rfl, hactive⟩ := hcareful (Option.isSome_iff_exists.2 ⟨id, hid⟩)
    exact h.listed hbound hactive (Option.some.inj hage) hnone id hid

/-- What is true of the threads at every moment: each goes on carefully, still has the backup it began with,
and has seen what its scan says. -/
structure Watchful (c : BackupCodec) (deletes : ι → Option String)
    (y : Pool jobCalls ι (JobTable × (ι → Scan)) (Except Error Unit)) : Prop where
  careful : ∀ i, Ensures (scanning c) Careful (fun _ _ => True) (y.left i) (y.state.2 i)
  same : ∀ i, (y.state.2 i).id = deletes i
  clear : ∀ i, (y.state.2 i).Clear c y.state.1

theorem watchful_step {deletes : ι → Option String} {e : ι × Event jobCalls}
    {y z : Pool jobCalls ι (JobTable × (ι → Scan)) (Except Error Unit)} (hy : Watchful c deletes y)
    (h : Pool.Step ((crowd c).when (Unmissed c)) y e z) : Watchful c deletes z := by
  have hwatches : Watches (Scan.after c) ((crowd (ι := ι) c).when (Unmissed c)) :=
    (watches_watched _).when.when
  have hcareful := h.ensures (G := fun _ => Careful) (Q := fun _ _ _ => True) hwatches hy.careful
  cases h with
  | @answer i op k r s hnext hr =>
    obtain ⟨hcond, hbound, hstore, hwatch⟩ := hr
    have hcall := hy.careful i
    rw [hnext, ensures_call] at hcall
    refine ⟨hcareful, fun j => ?_, fun j => ?_⟩
    · rw [hwatch]
      by_cases hij : j = i
      · subst hij
        rw [update_self, Scan.after_id]
        exact hy.same j
      · rw [update_of_ne hij]
        exact hy.same j
    · rw [hwatch]
      by_cases hij : j = i
      · subst hij
        rw [update_self]
        exact (hy.clear j).answered hcall.1 hcond hbound hstore
      · rw [update_of_ne hij]
        exact (hy.clear j).kept hcond hstore

def bystanders (c : BackupCodec) (svc : Instance.Service) (t : JobTable) (deletes : ι → Option String)
    (others : ι → Work Unit) : Pool jobCalls ι (JobTable × (ι → Scan)) (Except Error Unit) where
  state := (t, fun i => .of (deletes i))
  left i := match deletes i with
    | some id => (c.deleteBackup svc id).run
    | none => (others i).run

/-- No deletion is about to delete the blobs of a backup that an active job targets. -/
def SparesTargets (c : BackupCodec) (deletes : ι → Option String)
    (y : Pool jobCalls ι (JobTable × (ι → Scan)) (Except Error Unit)) : Prop :=
  ∀ i id under, deletes i = some id → (y.left i).next = some (.service (.blobDeleteAll under)) →
    ∀ job ∈ y.state.1.list, job.state.active = true → c.targets job.kind id job.args = false

/-- In every run of deletions beside anything else, in which no job that targets the backup of a deletion is
inserted behind that deletion's listing of queued jobs, no blobs are deleted while a backup or restore job for
them is queued, running or reconciling. -/
theorem delete_spares_targets (c : BackupCodec) (svc : Instance.Service) (t₀ : JobTable)
    (deletes : ι → Option String) (others : ι → Work Unit) {t : List (ι × Event jobCalls)}
    {y : Pool jobCalls ι (JobTable × (ι → Scan)) (Except Error Unit)}
    (hrun : Pool.Run ((crowd c).when (Unmissed c)) (bystanders c svc t₀ deletes others) t y) :
    SparesTargets c deletes y := by
  have hstart : Watchful c deletes (bystanders c svc t₀ deletes others) := by
    refine ⟨fun i => ?_, fun _ => rfl, fun _ => Scan.clear_of _⟩
    unfold bystanders
    dsimp only
    split
    · rename_i id hdeletes
      rw [hdeletes]
      exact deleteBackup_careful svc id
    · rename_i hdeletes
      exact other_careful _ hdeletes
  have hwatchful := hrun.invariant (Watchful c deletes) hstart fun _ _ _ hy hstep => watchful_step hy hstep
  intro i id under hdeletes hnext job hjob hactive
  have hid : (y.state.2 i).id = some id := (hwatchful.same i).trans hdeletes
  obtain ⟨hrestore, hbackup⟩ := (hwatchful.careful i).next hnext (Option.isSome_iff_exists.2 ⟨id, hid⟩)
  by_contra htargets
  have htargets : c.targets job.kind id job.args = true := by simpa using htargets
  -- both kinds have been listed in all three states, and no other kind targets a backup
  have hseen : (y.state.2 i).seen job.kind = 3 := by
    unfold BackupCodec.targets at htargets
    split at htargets
    · rename_i hkind
      rw [hkind, hrestore]
    · split at htargets
      · rename_i hkind
        rw [hkind, hbackup]
      · cases htargets
  have hnone := (hwatchful.clear i id hid job.kind).2 job.args htargets
  rw [hseen] at hnone
  exact hnone ⟨job, hjob, JobState.active_iff.1 hactive, rfl, rfl⟩

end Pool

/-! ## A restore that is accepted meanwhile -/

def plainCodec : BackupCodec := ⟨.ok, .ok, .ok⟩

def storedBackup (id : String) : Backup where
  id := id
  host := "engine-1"
  template := "web"
  slug := "shop"
  state := .complete
  volumes := [⟨"web-shop-data", 0, [], "", none⟩]
  image := ""
  mode := "snapshot"

def storedRest : (op : Op) → Option op.Ans
  | .service (.getBackup id) => some (.ok (storedBackup id))
  | .service (.getSpec _ _ _) => some (.ok Instance.exampleRow)
  | .service (.blobGet _) => some (.ok [])
  | _ => none

inductive Visitor where
  | retention
  | api
  deriving DecidableEq

def visitorDeletes : Visitor → Option String
  | .retention => some "b1"
  | .api => none

def visitorOthers (id : String) (_ : Visitor) : Work Unit := do
  let _ ← plainCodec.postRestore Instance.exampleService id
  pure ()

def fewJobs {ι : Type} (_ : ι) (s : JobTable × (ι → Scan)) (_ : Op) : Bool :=
  decide (s.1.list.length ≤ maxJobLimit)

theorem fewJobs_spec {ι : Type} (i : ι) (s : JobTable × (ι → Scan)) (op : Op) (h : fewJobs i s op = true) :
    s.1.Bounded :=
  fun _ _ => List.countP_le_length.trans (of_decide_eq_true h)

abbrev visitorReply : Answers jobCalls Visitor (JobTable × (Visitor → Scan)) :=
  Answers.only fewJobs (Answers.watched (Scan.after plainCodec) fun _ => obedient ⟨1⟩ storedRest)

theorem visitorReply_crowd (i : Visitor) (s : JobTable × (Visitor → Scan)) (op : Op) (r : op.Ans)
    (s' : JobTable × (Visitor → Scan)) (h : visitorReply i s op = some (r, s')) : crowd plainCodec i s op r s' :=
  Answers.only_when (Γ := jobCalls)
    (Answers.watched_shared (f := Scan.after plainCodec) fun _ _ _ _ _ h => jobStore_obedient h)
    fewJobs_spec i s op r s' h

/-- The retention pass is about to delete the blobs of the backup. -/
def deletesNext (y : Pool jobCalls Visitor (JobTable × (Visitor → Scan)) (Except Error Unit)) : Bool :=
  (y.left .retention).next == some (.service (.blobDeleteAll "engine-1/web/shop/b1"))

/-- A restore is accepted after the six listings of a deletion and before its
blobs are deleted. -/
theorem delete_meets_restore : ∃ t y, Pool.Run (crowd plainCodec)
      (bystanders plainCodec Instance.exampleService .empty visitorDeletes (visitorOthers "b1")) t y ∧
    ¬SparesTargets plainCodec visitorDeletes y := by
  obtain ⟨t, y, hrun, htest⟩ := Pool.run_of_play
    (x := bystanders plainCodec Instance.exampleService .empty visitorDeletes (visitorOthers "b1"))
    visitorReply_crowd (List.replicate 7 .retention ++ List.replicate 4 .api)
    (fun y => deletesNext y && y.state.1.list.any fun job =>
      job.state.active && plainCodec.targets job.kind "b1" job.args) (by decide +kernel)
  obtain ⟨hnext, hjobs⟩ := Bool.and_eq_true_iff.1 htest
  obtain ⟨job, hjob, hactive⟩ := List.any_eq_true.1 hjobs
  obtain ⟨hactive, htargets⟩ := Bool.and_eq_true_iff.1 hactive
  refine ⟨t, y, hrun, fun h => ?_⟩
  rw [h .retention "b1" _ rfl (beq_iff_eq.1 hnext) job hjob hactive] at htargets
  cases htargets

def unmissed (_ : Visitor) (s : JobTable × (Visitor → Scan)) (op : Op) : Bool :=
  op.inserted.all fun new => [Visitor.retention, .api].all fun j => (s.2 j).id.all fun id =>
    !plainCodec.targets new.1 id new.2 || (s.2 j).seen new.1 == 0

theorem unmissed_spec (i : Visitor) (s : JobTable × (Visitor → Scan)) (op : Op) (h : unmissed i s op = true) :
    Unmissed plainCodec i s op := by
  intro kind args hnew j id hid htargets
  unfold unmissed at h
  rw [hnew] at h
  have hj := List.all_eq_true.1 h j (by cases j <;> decide)
  rw [hid, Option.all_some, htargets] at hj
  simpa using hj

/-- A restore of another backup is accepted at the same moment. -/
theorem delete_beside_restore : ∃ t y, Pool.Run ((crowd plainCodec).when (Unmissed plainCodec))
      (bystanders plainCodec Instance.exampleService .empty visitorDeletes (visitorOthers "b2")) t y ∧
    deletesNext y = true ∧ y.state.1.list.length = 1 ∧ SparesTargets plainCodec visitorDeletes y := by
  obtain ⟨t, y, hrun, htest⟩ := Pool.run_of_play
    (x := bystanders plainCodec Instance.exampleService .empty visitorDeletes (visitorOthers "b2"))
    (Answers.only_when visitorReply_crowd unmissed_spec) (List.replicate 7 .retention ++ List.replicate 4 .api)
    (fun y => deletesNext y && y.state.1.list.length == 1) (by decide +kernel)
  obtain ⟨hnext, hjobs⟩ := Bool.and_eq_true_iff.1 htest
  exact ⟨t, y, hrun, hnext, beq_iff_eq.1 hjobs, delete_spares_targets plainCodec Instance.exampleService .empty
    visitorDeletes (visitorOthers "b2") hrun⟩

end PodmanApi.Jobs
