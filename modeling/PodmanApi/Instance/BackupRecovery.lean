/-
# PodmanApi.Instance.BackupRecovery — a backup that a crash has cut, and the instance it stopped.

The recovery of a backup job decides by the row of the backup alone: a row that is complete needs nothing more.
But a backup completes its row BEFORE it starts the instance. A crash between the two leaves a complete row and
a stopped instance, and the recovery resolves the job without a start (`recovered_backup_left_stopped`).
-/
import PodmanApi.Instance.Backup

namespace PodmanApi.Instance

open GoStd Calls

/-! ## What a crash leaves -/

/-- The state of the backup's row, if there is one, and whether the instance has been stopped and not been
started since. -/
structure Held where
  row : Option BackupState
  owed : Bool
  deriving DecidableEq

/-- A statement that may fail, and may fail after it has taken effect. -/
inductive Written {α : Type} (row row' : Option BackupState) (a : α) :
    Except Error α → Option BackupState → Prop where
  | done : Written row row' a (.ok a) row'
  | failed (e : Error) : Written row row' a (.error e) row
  | unsure (e : Error) : Written row row' a (.error e) row'

def casBackupState (row : Option BackupState) (state : BackupState) : Option BackupState :=
  if row = some .creating then some state else row

/-- What the store does to the row of this backup, and what it tells about it. It has no instances, so none of
its errors says that one is missing. -/
def RowStep (id : String) (row : Option BackupState) (op : Op) (r : op.Ans) (row' : Option BackupState) : Prop :=
  match op, r with
  | .createBackup b, r =>
    if b.id = id then
      if row = none then Written row (some .creating) () r row' else row' = row ∧ ∃ e, r = .error e
    else row' = row
  | .completeBackup id' _, r =>
    if id' = id then Written row (casBackupState row .complete) (row == some .creating) r row' else row' = row
  | .failBackup id', r =>
    if id' = id then Written row (casBackupState row .failed) (row == some .creating) r row' else row' = row
  | .deleteBackup id', r => if id' = id then ∃ a, Written row none a r row' else row' = row
  | .getBackup id', .ok b => row' = row ∧ (id' = id → row = some b.state)
  | .getBackup id', .error e => row' = row ∧ (id' = id → e.is .storeNotFound = true → row = none)
  | .getTemplate _, .error e => row' = row ∧ e.is .instanceNotFound = false ∧ e.is .podmanNotFound = false
  | _, _ => row' = row

/-- The account of the instance: a stop is owed a start, whatever podman answers. -/
def owes (req : BackupRequest) (owed : Bool) : Op → Bool
  | .podStop host name => if host = req.host ∧ name = podName req.template req.slug then true else owed
  | .podStart host name => if host = req.host ∧ name = podName req.template req.slug then false else owed
  | _ => owed

/-- The store and podman, as far as the recovery of a backup depends on them. -/
def recorded (req : BackupRequest) : Calls.Service calls Held := fun w op r w' =>
  RowStep req.backupID w.row op r w'.row ∧ w'.owed = owes req w.owed op

/-- Sweeps that call `ReconcileBackup`; each of them may be cut, or leave the job unresolved. -/
inductive Sweeps (s : Service) (req : BackupRequest) (w : Held) : Held → Prop where
  | none : Sweeps s req w w
  | next {w₁ w₂ : Held} {t : History} {q : Prog calls (Except Error (Bool × String))} (before : Sweeps s req w w₁)
      (h : Exec (recorded req) w₁ (s.reconcileBackup req).run t w₂ q) : Sweeps s req w w₂

/-! ## One call -/

def Unhalting : Op → Prop
  | .podStop _ _ => False
  | _ => True

def Undeleting : Op → Prop
  | .deleteBackup _ => False
  | _ => True

section Steps

variable {s : Service} {req : BackupRequest} {w w' : Held} {op : Op} {r : op.Ans}

theorem owed_step (hop : Unhalting op) (h : recorded req w op r w') (hw : w.owed = false) : w'.owed = false := by
  rw [h.2]
  cases op with
  | podStop host name => cases hop
  | podStart host name =>
    show (if _ then false else w.owed) = false
    split
    · rfl
    · exact hw
  | _ => exact hw

theorem Written.isSome {α : Type} {row next row' : Option BackupState} {a : α} {r : Except Error α}
    (h : Written row next a r row') (hrow : row.isSome = true) (hnext : next.isSome = true) :
    row'.isSome = true := by
  cases h with
  | done => exact hnext
  | unsure e => exact hnext
  | failed e => exact hrow

theorem casBackupState_isSome {row : Option BackupState} (state : BackupState) (h : row.isSome = true) :
    (casBackupState row state).isSome = true := by
  unfold casBackupState
  split
  · rfl
  · exact h

theorem row_step (hop : Undeleting op) (h : recorded req w op r w') (hw : w.row.isSome = true) :
    w'.row.isSome = true := by
  have hrow := h.1
  unfold RowStep at hrow
  split at hrow
  · split at hrow
    · split at hrow
      · exact hrow.isSome hw rfl
      · exact hrow.1 ▸ hw
    · exact hrow ▸ hw
  · split at hrow
    · exact hrow.isSome hw (casBackupState_isSome _ hw)
    · exact hrow ▸ hw
  · split at hrow
    · exact hrow.isSome hw (casBackupState_isSome _ hw)
    · exact hrow ▸ hw
  · cases hop
  · exact hrow.1 ▸ hw
  · exact hrow.1 ▸ hw
  · exact hrow.1 ▸ hw
  · exact hrow ▸ hw

theorem held_same (hrow : w'.row = w.row) (howed : w'.owed = w.owed) : w' = w := by
  cases w
  cases w'
  cases hrow
  cases howed
  rfl

theorem held_lock {m : Mutex} (h : recorded req w (.lock m) () w') : w' = w :=
  held_same h.1 h.2

theorem held_unlock {m : Mutex} (h : recorded req w (.unlock m) () w') : w' = w :=
  held_same h.1 h.2

end Steps

/-! ## The backup -/

/-- An instance that is owed a start has a row. -/
def Held.Noted (w : Held) : Prop :=
  w.owed = true → w.row.isSome = true

abbrev Notes {α : Type} (req : BackupRequest) (Q : Held → α → Prop) (p : Prog calls α) (w : Held) : Prop :=
  Ensures (recorded req) (fun w _ => w.Noted) Q p w

variable {p : Prog calls α} {tmpl : String} {op : Op} {w' : Held}

section Backup

variable {s : Service} {req : BackupRequest} {w : Held} {α : Type}

theorem noted_of_running (h : w.owed = false) : w.Noted := by
  intro howed
  rw [h] at howed
  cases howed

theorem noted_of_row (h : w.row.isSome = true) : w.Noted :=
  fun _ => h

theorem unhalting_ensures (hp : p.Issues Unhalting) (hw : w.owed = false) :
    Notes req (fun w _ => w.owed = false) p w :=
  hp.ensures (I := fun w : Held => w.owed = false) (fun _ _ _ _ hop hw h => owed_step hop h hw)
    (fun _ _ _ hw => noted_of_running hw) hw

theorem undeleting_ensures (hp : p.Issues Undeleting) (hw : w.row.isSome = true) :
    Notes req (fun w _ => w.Noted) p w := by
  refine .imp (hp.ensures (I := fun w : Held => w.row.isSome = true) ?_ (fun _ _ _ hw => noted_of_row hw) hw)
    fun _ _ => noted_of_row
  exact fun _ _ _ _ hop hw h => row_step hop h hw

variable {host slug : String}

theorem Reading.unhalting (h : Reading host tmpl slug op) : Unhalting op := by
  cases h <;> trivial

theorem Waiting.unhalting {name : String} (h : Waiting host name op) : Unhalting op := by
  cases h <;> trivial

theorem Starting.undeleting (h : Starting host tmpl slug op) : Undeleting op := by
  cases h with
  | waiting h => cases h <;> trivial
  | reading h => cases h <;> trivial
  | lock | podStart | unlock => trivial

theorem Stopping.undeleting (h : Stopping host tmpl slug op) : Undeleting op := by
  cases h <;> trivial

theorem snapshotVolumes_undeleting (wasRunning : Bool) (vols : List HostVolume) (metas : GoMap VolMeta) :
    (s.snapshotVolumes req wasRunning vols metas).run.Issues Undeleting := by
  have habandon : (abandonBackup req).run.Issues Undeleting := abandonBackup_issues trivial fun _ => trivial
  have hrestart : (s.restartAfter req wasRunning).run.Issues Undeleting :=
    restartAfter_issues fun _ h => h.undeleting
  refine .andThen (orAfter_issues ?_ habandon) fun _ => ?_
  · exact runPreBackup_issues trivial trivial fun _ _ => trivial
  refine .andThen (orAfter_issues ?_ habandon) fun _ => ?_
  · exact (stop_issues.mono fun _ h => h.undeleting).mapErr
  refine .andThen (orAfter_issues ?_ (hrestart.andThen fun _ => habandon)) fun _ => hrestart
  exact captureVolumes_issues (fun _ => trivial) (fun _ => trivial) (fun _ _ => trivial) (fun _ => trivial)
    fun _ => trivial

theorem createBackup_ensures {image mode : String} {f : Error → Error} (hw : w.owed = false) :
    Notes req (fun w r => (∀ u, r = .ok u → w.row.isSome = true) ∧ w.owed = false)
      (Act.mapErr f (Act.lift (issue (.createBackup (Service.creatingBackup req image mode))))).run w := by
  refine ensures_mapErr.2 (ensures_issue (Op.createBackup _) (noted_of_running hw) fun r w' h => ?_)
  refine ⟨fun u hu => ?_, h.2.trans hw⟩
  cases r with
  | error e => cases hu
  | ok _ =>
    have hrow := h.1
    unfold RowStep at hrow
    dsimp only at hrow
    rw [if_pos (show (Service.creatingBackup req image mode).id = req.backupID from rfl)] at hrow
    split at hrow
    · generalize w'.row = row' at hrow ⊢
      cases hrow
      rfl
    · obtain ⟨-, e, he⟩ := hrow
      cases he

/-- Wherever a snapshot is cut, an instance that it has stopped and not started has a row. -/
theorem backup_noted (hmode : (req.mode == "live") = false) (hw : w.owed = false) :
    Notes req (fun w _ => w.Noted) (s.backup req).run w := by
  unfold Service.backup
  rw [if_neg (by rw [hmode]; exact Bool.false_ne_true)]
  refine ensures_lock (noted_of_running hw) fun y hy => ?_
  rw [held_lock hy]
  suffices hsnapshot : Notes req (fun w _ => w.Noted) (s.snapshotBackup req).run w by
    exact hsnapshot.imp fun z _ hz => ⟨hz, fun u hu => held_unlock hu ▸ hz⟩
  have hcheck : (s.checkBackupable req.host req.template req.slug req.volumes false).run.Issues Unhalting :=
    checkBackupable_issues (fun _ h => h.unhalting) trivial
  refine (unhalting_ensures hcheck hw).andThen (fun _ _ => noted_of_running) fun w out hw => ?_
  have hget : (s.get req.host req.template req.slug).run.Issues Unhalting :=
    get_issues.mono fun _ h => h.unhalting
  refine (unhalting_ensures hget hw).andThen (fun _ _ => noted_of_running) fun w obs hw => ?_
  refine (createBackup_ensures hw).andThen (fun _ _ h => noted_of_running h.2) fun w _ h => ?_
  exact undeleting_ensures (snapshotVolumes_undeleting _ _ _) (h.1 _ rfl)

end Backup

/-! ## The recovery -/

/-- An instance that is owed a start has a row that is not complete. -/
def Held.Recoverable (w : Held) : Prop :=
  w.owed = true → w.row = some .creating ∨ w.row = some .failed

abbrev Mends {α : Type} (req : BackupRequest) (Q : Held → α → Prop) (p : Prog calls α) (w : Held) : Prop :=
  Ensures (recorded req) (fun w _ => w.Recoverable) Q p w

section Recovery

variable {s : Service} {req : BackupRequest} {w : Held} {α : Type}

theorem recoverable_of_running (h : w.owed = false) : w.Recoverable := by
  intro howed
  rw [h] at howed
  cases howed

/-- A row that needs no recovery, or none at all, is that of an instance that runs. -/
theorem running_of_row (h : w.Recoverable) (hcreating : w.row ≠ some .creating) (hfailed : w.row ≠ some .failed) :
    w.owed = false := by
  by_contra howed
  rcases h (by simpa using howed) with hrow | hrow
  · exact hcreating hrow
  · exact hfailed hrow

theorem recoverable_same (h : w.Recoverable) (hrow : w'.row = w.row) (howed : w'.owed = w.owed) :
    w'.Recoverable := by
  unfold Held.Recoverable
  rw [hrow, howed]
  exact h

/-- An error that says nothing about the instance. -/
def Unrelated (e : Error) : Prop :=
  e.is .instanceNotFound = false ∧ e.is .podmanNotFound = false

/-- Where a start ends: it has been issued, or an unrelated error came before it. -/
def Started (w : Held) (r : Except Error α) : Prop :=
  w.owed = false ∨ w.Recoverable ∧ ∃ e, r = .error e ∧ Unrelated e

theorem running_ensures (hp : p.Issues Unhalting) (hw : w.owed = false) :
    Mends req (fun w _ => w.owed = false) p w :=
  hp.ensures (I := fun w : Held => w.owed = false) (fun _ _ _ _ hop hw h => owed_step hop h hw)
    (fun _ _ _ hw => recoverable_of_running hw) hw

section Sweep

variable (hhost : (s.host req.host).isSome = true)

include hhost

theorem lookup_ensures (hw : w.Recoverable) :
    Mends req (fun w r => w.Recoverable ∧ ∀ e, r = .error e → Unrelated e) (s.lookup req.host tmpl).run w := by
  refine ensures_lookup (fun h => nomatch hhost.symm.trans h) hw
    (fun _ t w' h => ⟨recoverable_same hw h.1 h.2, nofun⟩) fun e w' h => ?_
  obtain ⟨⟨hrow, hinstance, hpodman⟩, howed⟩ := h
  refine ⟨recoverable_same hw hrow howed, ?_⟩
  rintro _ he
  cases he
  unfold lookupError
  split
  · exact ⟨rfl, rfl⟩
  · exact ⟨hinstance, hpodman⟩

theorem start_ensures (hw : w.Recoverable) : Mends req Started (s.start req.host req.template req.slug).run w := by
  have hlifecycle : Mends req Started
      (s.lifecycle req.host req.template req.slug fun h n => issue (.podStart h n)).run w := by
    refine (lookup_ensures hhost hw).andThen (fun w e h => .inr ⟨h.1, e, rfl, h.2 e rfl⟩) fun w _ h => ?_
    refine ensures_lock h.1 fun y hy => ?_
    rw [held_lock hy]
    refine ensures_mapErr.2 (ensures_issue (Op.podStart _ _) h.1 fun r z hz => ?_)
    have howed : z.owed = false := hz.2.trans (if_pos ⟨rfl, rfl⟩)
    exact ⟨recoverable_of_running howed, fun u hu => held_unlock hu ▸ .inl howed⟩
  refine hlifecycle.andThen (fun w e h => ?_) fun w _ h => ?_
  · rcases h with howed | ⟨hrec, e', he, hunrelated⟩
    · exact .inl howed
    · cases he
      exact .inr ⟨hrec, e, rfl, hunrelated⟩
  have howed : w.owed = false := by
    rcases h with howed | ⟨-, e, he, -⟩
    · exact howed
    · cases he
  have hrest : (do
      let _ ← Act.attempt (s.waitReady req.host req.template req.slug
        ⟨s.deployVerifyTimeout, s.deployVerifyStableCount, false⟩)
      s.get req.host req.template req.slug : Task Observed).run.Issues Unhalting := by
    refine .andThen ?_ fun _ => get_issues.mono fun _ h => h.unhalting
    exact ((waitReady_issues _).mono fun _ h => h.unhalting).attempt
  exact (running_ensures hrest howed).imp fun _ _ => .inl

omit hhost in
theorem failBackup_recoverable {r : Except Error Bool}
    (h : recorded req w (.failBackup req.backupID) r w') (hw : w.Recoverable) : w'.Recoverable := by
  obtain ⟨hrow, howed⟩ := h
  have howed : w'.owed = w.owed := howed
  intro hw'
  have hold := hw (howed ▸ hw')
  have hnew : casBackupState w.row .failed = some .failed := by
    rcases hold with hold | hold <;> rw [hold] <;> rfl
  unfold RowStep at hrow
  dsimp only at hrow
  rw [if_pos rfl, hnew] at hrow
  generalize w'.row = row' at hrow
  cases hrow with
  | done => exact .inr rfl
  | unsure e => exact .inr rfl
  | failed e => exact hold

/-- What a recovery keeps, and what it has done when it resolves the job. -/
def Resolves (w : Held) (r : Except Error (Bool × String)) : Prop :=
  w.Recoverable ∧ ∀ v, r = .ok v → w.owed = false

theorem restartInterrupted_ensures (hw : w.Recoverable) :
    Mends req (fun w r => w.Recoverable ∧ ∀ u, r = .ok u → w.owed = false) (s.restartInterrupted req).run w := by
  refine (start_ensures hhost hw).attemptThen fun w r h => ?_
  rcases h with howed | ⟨hrec, e, rfl, hinstance, hpodman⟩
  · have hw := recoverable_of_running howed
    split
    · exact ensures_pure.2 ⟨hw, fun _ _ => howed⟩
    · split
      · exact ensures_pure.2 ⟨hw, fun _ _ => howed⟩
      · exact ensures_throw.2 ⟨hw, nofun⟩
  · dsimp only
    rw [hinstance, hpodman, Bool.or_false]
    exact ensures_throw.2 ⟨hrec, nofun⟩

theorem failInterrupted_ensures (hw : w.Recoverable) : Mends req Resolves (s.failInterrupted req).run w := by
  refine .andThen (P := fun w _ => w.Recoverable) ?_ (fun _ _ h => ⟨h, nofun⟩) fun w _ hw => ?_
  · exact ensures_issue (Op.failBackup _) hw fun _ _ h => failBackup_recoverable h hw
  refine ensures_ask_bind hw fun _ w' h => ?_
  have hw' : w'.Recoverable := recoverable_same hw h.1 h.2
  rw [if_neg (by rw [Option.isNone_iff_eq_none]; exact Option.isSome_iff_ne_none.1 hhost)]
  refine (restartInterrupted_ensures hhost hw').andThen (fun _ _ h => ⟨h.1, nofun⟩) fun w _ h => ?_
  exact ensures_pure.2 ⟨h.1, fun _ _ => h.2 _ rfl⟩

theorem reconcileBackup_ensures (hw : w.Recoverable) : Mends req Resolves (s.reconcileBackup req).run w := by
  refine ensures_lock hw fun y hy => ?_
  rw [held_lock hy]
  suffices hlocked : Mends req Resolves _ w by
    exact hlocked.imp fun z _ hz => ⟨hz.1, fun u hu => held_unlock hu ▸ hz⟩
  refine ensures_ask_bind hw fun r w' h => ?_
  cases r with
  | error e =>
    obtain ⟨⟨hrow, hnone⟩, howed⟩ := h
    have hw' : w'.Recoverable := recoverable_same hw hrow howed
    dsimp only
    split
    · rename_i hmissing
      have hgone : w'.row = none := hrow.trans (hnone rfl hmissing)
      refine ensures_pure.2 ⟨hw', fun _ _ => running_of_row hw' ?_ ?_⟩ <;> rw [hgone] <;> nofun
    · exact ensures_throw.2 ⟨hw', nofun⟩
  | ok b =>
    obtain ⟨⟨hrow, hstate⟩, howed⟩ := h
    have hw' : w'.Recoverable := recoverable_same hw hrow howed
    dsimp only
    split
    · rename_i hcomplete
      have hdone : w'.row = some .complete := by rw [hrow, hstate rfl, beq_iff_eq.1 hcomplete]
      refine ensures_pure.2 ⟨hw', fun _ _ => running_of_row hw' ?_ ?_⟩ <;> rw [hdone] <;> nofun
    · exact failInterrupted_ensures hhost hw'

theorem sweeps_recoverable (h : Sweeps s req w w') (hw : w.Recoverable) : w'.Recoverable := by
  induction h with
  | none => exact hw
  | next _ h ih =>
    refine Ensures.reached (I := Held.Recoverable) ?_ h
    exact (reconcileBackup_ensures hhost ih).imp fun _ _ h => h.1

end Sweep

theorem complete_resolved (hrow : w.row = some .complete) :
    ∃ t, Exec (recorded req) w (s.reconcileBackup req).run t w (.ret (.ok (true, ""))) := by
  let b : Backup := ⟨req.backupID, req.host, req.template, req.slug, .complete, [], "", ""⟩
  have hlock : recorded req w (.lock (migrateLock req.template req.slug)) () w := ⟨rfl, rfl⟩
  have hread : recorded req w (.getBackup req.backupID) (.ok b) w := ⟨⟨rfl, fun _ => hrow⟩, rfl⟩
  have hunlock : recorded req w (.unlock (migrateLock req.template req.slug)) () w := ⟨rfl, rfl⟩
  exact ⟨_, .step hlock (.step hread (.step hunlock (.refl _ _)))⟩

/-- For a snapshot cut anywhere, any answers and any number of sweeps: whenever `ReconcileBackup` resolves the
job, the instance has been started since the backup last stopped it, exactly when the crash has not left a
complete row and a stopped instance. -/
theorem recovered_backup_started_iff (hmode : (req.mode == "live") = false)
    (hhost : (s.host req.host).isSome = true) (hw : w.owed = false) {w' : Held} {t : History}
    {q : Prog calls (Except Error Unit)} (hrun : Exec (recorded req) w (s.backup req).run t w' q) :
    (∀ w₁ w₂ t' v, Sweeps s req w' w₁ →
      Exec (recorded req) w₁ (s.reconcileBackup req).run t' w₂ (.ret (.ok v)) → w₂.owed = false) ↔
    ¬(w'.row = some .complete ∧ w'.owed = true) := by
  constructor
  · rintro h ⟨hrow, howed⟩
    obtain ⟨t', hresolved⟩ : ∃ t, Exec (recorded req) w' (s.reconcileBackup req).run t w' _ := complete_resolved hrow
    rw [h w' w' t' _ .none hresolved] at howed
    cases howed
  · intro hcrash w₁ w₂ t' v hsweeps hresolved
    have hnoted : w'.Noted := (backup_noted hmode hw).reached hrun
    have hrecoverable : w'.Recoverable := by
      intro howed
      obtain ⟨state, hrow⟩ := Option.isSome_iff_exists.1 (hnoted howed)
      cases state with
      | creating => exact .inl hrow
      | failed => exact .inr hrow
      | complete => exact absurd ⟨hrow, howed⟩ hcrash
    have hlast := sweeps_recoverable hhost hsweeps hrecoverable
    exact ((reconcileBackup_ensures hhost hlast).post hresolved).2 v rfl

end Recovery

/-! ## A crash before the restart -/

def snapshotTemplate : Template where
  metadata := ⟨"web", [], [], [], [⟨"data", "", [], none⟩], none, [], none, some []⟩
  body := "kind: Pod"

def snapshotRequest : BackupRequest :=
  ⟨"b1", "engine-1", "web", "shop", [], ""⟩

def snapshotRow (state : BackupState) : Backup :=
  { Service.creatingBackup snapshotRequest "" "" with state := state }

def snapshotStore (row : Option BackupState) : (op : Op) → op.Ans × Option BackupState
  | .getTemplate _ => (.ok snapshotTemplate, row)
  | .getSpec _ _ _ => (.ok exampleRow, row)
  | .createBackup b =>
    if b.id = "b1" then if row = none then (.ok (), some .creating) else (.error (.text "exists"), row)
    else (.ok (), row)
  | .completeBackup id _ =>
    if id = "b1" then (.ok (row == some .creating), casBackupState row .complete) else (.ok false, row)
  | .failBackup id =>
    if id = "b1" then (.ok (row == some .creating), casBackupState row .failed) else (.ok false, row)
  | .deleteBackup id => if id = "b1" then (.ok (), none) else (.ok (), row)
  | .getBackup _ => ((row.map snapshotRow).elim (.error (.sentinel .storeNotFound)) .ok, row)
  | op => (op.plain, row)

def snapshotHost : Handler calls Held := fun w op =>
  ((snapshotStore w.row op).1, ⟨(snapshotStore w.row op).2, owes snapshotRequest w.owed op⟩)

theorem snapshotStore_step (row : Option BackupState) (op : Op) :
    RowStep "b1" row op (snapshotStore row op).1 (snapshotStore row op).2 := by
  cases op with
  | createBackup b =>
    show if b.id = "b1" then _ else _
    unfold snapshotStore
    dsimp only
    split
    · split
      · exact .done
      · exact ⟨rfl, _, rfl⟩
    · rfl
  | completeBackup id vols | failBackup id =>
    show if id = "b1" then _ else _
    unfold snapshotStore
    dsimp only
    split
    · exact .done
    · rfl
  | deleteBackup id =>
    show if id = "b1" then _ else _
    unfold snapshotStore
    dsimp only
    split
    · exact ⟨(), .done⟩
    · rfl
  | getBackup id =>
    cases row with
    | none => exact ⟨rfl, fun _ _ => rfl⟩
    | some state => exact ⟨rfl, fun _ => rfl⟩
  | _ => rfl

theorem snapshotHost_recorded {w : Held} {r : op.Ans} (h : snapshotHost.service w op r w') :
    recorded snapshotRequest w op r w' := by
  cases h
  exact ⟨snapshotStore_step w.row op, rfl⟩

/-- The backup on that host, cut after `n` calls. -/
@[irreducible]
def cutBackup (n : Nat) : Prog calls (Except Error Unit) × History × Held :=
  (exampleService.backup snapshotRequest).run.evalFor snapshotHost n ⟨none, false⟩

theorem cutBackup_exec (n : Nat) : Exec (recorded snapshotRequest) ⟨none, false⟩
    (exampleService.backup snapshotRequest).run (cutBackup n).2.1 (cutBackup n).2.2 (cutBackup n).1 := by
  exact (Prog.exec_of_evalFor (cutBackup.eq_def ..)).mono fun _ _ _ _ h => snapshotHost_recorded h

@[irreducible]
def cutRecovery (n : Nat) : Except Error (Bool × String) × History × Held :=
  (exampleService.reconcileBackup snapshotRequest).run.eval snapshotHost (cutBackup n).2.2

theorem cutRecovery_exec (n : Nat) : Exec (recorded snapshotRequest) (cutBackup n).2.2
    (exampleService.reconcileBackup snapshotRequest).run (cutRecovery n).2.1 (cutRecovery n).2.2
    (.ret (cutRecovery n).1) := by
  exact (exec_of_eval (cutRecovery.eq_def ..)).mono fun _ _ _ _ h => snapshotHost_recorded h

def observedRunning (req : BackupRequest) : Event calls → Bool
  | ⟨.podInspect host name, .ok p⟩ =>
    host == req.host && name == podName req.template req.slug && p.status == "Running"
  | _ => false

/-- The daemon dies after the row of a running instance's backup is complete and before the instance is started.
The recovery resolves the job and starts nothing. -/
theorem recovered_backup_left_stopped : ∃ t w q t' w',
    Exec (recorded snapshotRequest) ⟨none, false⟩ (exampleService.backup snapshotRequest).run t w q ∧
    t.any (observedRunning snapshotRequest) = true ∧ (exampleService.host "engine-1").isSome = true ∧
    Exec (recorded snapshotRequest) w (exampleService.reconcileBackup snapshotRequest).run t' w'
      (.ret (.ok (true, ""))) ∧ w'.owed = true := by
  have hresolved : (cutRecovery 21).1 = .ok (true, "") := by decide +kernel
  exact ⟨_, _, _, _, _, cutBackup_exec 21, by decide +kernel, rfl, hresolved ▸ cutRecovery_exec 21,
    by decide +kernel⟩

/-- The same crash a little earlier: the recovery fails the row and starts the instance. -/
theorem cut_backup_is_started : (cutBackup 16).2.2 = ⟨some .creating, true⟩ ∧
    (cutRecovery 16).1 = .ok (false, "backup interrupted by daemon restart; instance restarted") ∧
    (cutRecovery 16).2.2.owed = false := by
  have hcut : (cutBackup 16).2.2 = ⟨some .creating, true⟩ := by decide +kernel
  have hresolved : (cutRecovery 16).1 =
      .ok (false, "backup interrupted by daemon restart; instance restarted") := by decide +kernel
  refine ⟨hcut, hresolved, ?_⟩
  have hstarted := (recovered_backup_started_iff (by decide) rfl rfl (cutBackup_exec 16)).2 (by rw [hcut]; decide)
  exact hstarted _ _ _ _ .none (hresolved ▸ cutRecovery_exec 16)

end PodmanApi.Instance
