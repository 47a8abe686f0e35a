/-
# PodmanApi.Backupctl.History — when an instance was last backed up.

`LastBackupAt` of `internal/backupctl` asks the store for the backups of an instance with the limit 0, which the
store reads as its default page of 100 rows, newest first. It does not ask for a second page. A row of
`internal/store/sqlite_backups.go` leaves the creating state once, and is stamped as it does (`settled_once`).
-/
import Mathlib.Data.Prod.Lex
import Mathlib.Data.String.Basic
import PodmanApi.Instance.Calls
import PodmanApi.Jobs.Table

namespace PodmanApi.Backupctl

open GoStd
open Jobs (clampJobLimit defaultJobLimit)

/-! ## Rows -/

/-- The instant of `time.Unix(0, 0)`. -/
def unixEpoch : Time := ⟨62135596800 * second⟩

/-- `time.Unix(0, ns)` -/
def unixTime (ns : Int) : Time := ⟨unixEpoch.ns + ns⟩

/-- A reading of `time.Now().UnixNano()`. No clock is set before 1970. -/
abbrev Stamp : Type := {ns : Int // 0 < ns}

/-- A row of the `backups` table: the backup, and its two time columns. -/
structure BackupRow where
  backup : Backup
  created : Int
  finished : Option Int
  deriving DecidableEq, Repr

namespace BackupRow

variable (r : BackupRow)

def id : String := r.backup.id

def complete : Bool := r.backup.state == .complete

/-- The field `Finished` as `scanBackup` fills it: the zero time for a column that is NULL or 0. -/
def finishTime : Time :=
  if r.finished.getD 0 = 0 then ⟨0⟩ else unixTime (r.finished.getD 0)

/-- What a listing is ordered by, `ORDER BY created DESC, id DESC`. -/
def key : Lex (Int × String) := toLex (r.created, r.id)

/-- The rows that a listing has before `b`. -/
def newer (a b : BackupRow) : Bool := decide (b.key < a.key)

def Stamped : Prop :=
  r.complete = true → ∃ now : Stamp, r.finished = some now.1

end BackupRow

/-! ## The table -/

structure BackupTable where
  list : List BackupRow
  nodup : (list.map BackupRow.id).Nodup
  stamped : ∀ r ∈ list, r.Stamped

namespace BackupTable

def empty : BackupTable := ⟨[], List.nodup_nil, List.forall_mem_nil _⟩

variable (t : BackupTable)

/-- The rows of an instance, the `WHERE` clause of `ListBackups`. -/
def rowsOf (k : SpecId) : List BackupRow :=
  t.list.filter fun r => decide (r.backup.target = k)

def completeOf (k : SpecId) : List BackupRow :=
  (t.rowsOf k).filter BackupRow.complete

def listBackups (k : SpecId) (limit : Int) : List BackupRow :=
  ((t.rowsOf k).insertionSort fun a b => b.key ≤ a.key).take (clampJobLimit limit)

/-- The `INSERT` of `CreateBackup`, for an id that is not taken. -/
def insert (b : Backup) (now : Stamp) (fresh : b.id ∉ t.list.map BackupRow.id) : BackupTable where
  list := t.list ++ [⟨{ b with state := .creating }, now.1, none⟩]
  nodup := by
    rw [List.map_append, List.nodup_append]
    refine ⟨t.nodup, List.nodup_singleton _, ?_⟩
    rintro id hid _ hlast rfl
    have hid' : id = b.id := List.mem_singleton.1 hlast
    exact fresh (hid' ▸ hid)
  stamped := by
    refine List.forall_mem_append.2 ⟨t.stamped, ?_⟩
    intro r hr hcomplete
    obtain rfl := List.mem_singleton.1 hr
    cases hcomplete

def createBackup (b : Backup) (now : Stamp) : Except Error BackupTable :=
  if fresh : b.id ∉ t.list.map BackupRow.id then .ok (t.insert b now fresh)
  else .error (.text "UNIQUE constraint failed: backups.id")

/-- One row under the `UPDATE` of `casBackupState`; without new volumes the column stays as it is. -/
def settle (id : String) (state : BackupState) (vols : Option (List BackupVolume)) (now : Stamp)
    (r : BackupRow) : BackupRow :=
  if r.id = id ∧ r.backup.state = .creating then
    ⟨{ r.backup with state := state, volumes := vols.getD r.backup.volumes }, r.created, some now.1⟩
  else r

theorem settle_id {id : String} {state : BackupState} {vols : Option (List BackupVolume)} {now : Stamp}
    (r : BackupRow) : (settle id state vols now r).id = r.id := by
  unfold settle
  split <;> rfl

theorem settle_stamped {id : String} {state : BackupState} {vols : Option (List BackupVolume)} {now : Stamp}
    {r : BackupRow} (h : r.Stamped) : (settle id state vols now r).Stamped := by
  unfold settle
  split
  · exact fun _ => ⟨now, rfl⟩
  · exact h

/-- `casBackupState`: whether a row has changed, and the table after it. -/
def casBackupState (id : String) (state : BackupState) (vols : Option (List BackupVolume)) (now : Stamp) :
    Bool × BackupTable where
  fst := t.list.any fun r => decide (r.id = id ∧ r.backup.state = .creating)
  snd :=
    { list := t.list.map (settle id state vols now)
      nodup := by
        have hids : (t.list.map (settle id state vols now)).map BackupRow.id = t.list.map BackupRow.id := by
          rw [List.map_map]
          exact List.map_congr_left fun r _ => settle_id r
        exact hids ▸ t.nodup
      stamped := List.forall_mem_map.2 fun r hr => settle_stamped (t.stamped r hr) }

def completeBackup (id : String) (vols : List BackupVolume) (now : Stamp) : Bool × BackupTable :=
  t.casBackupState id .complete (some vols) now

def failBackup (id : String) (now : Stamp) : Bool × BackupTable :=
  t.casBackupState id .failed none now

def remove (id : String) : BackupTable where
  list := t.list.filter fun r => r.id != id
  nodup := t.nodup.sublist (List.filter_sublist.map BackupRow.id)
  stamped := fun r hr => t.stamped r (List.mem_of_mem_filter hr)

end BackupTable

/-! ## The answer -/

/-- `LastBackupAt` over what `ListBackups` returns: the first complete row counts. -/
def lastOf (backups : List BackupRow) : Time :=
  ((backups.find? BackupRow.complete).map BackupRow.finishTime).getD ⟨0⟩

def listBackups (svc : Instance.Service) (t : BackupTable) (k : SpecId) (limit : Int) :
    Except Error (List BackupRow) :=
  if (svc.host k.host).isNone then .error (.sentinel .unknownHost) else .ok (t.listBackups k limit)

def lastBackupAt (svc : Instance.Service) (t : BackupTable) (k : SpecId) : Except Error Time :=
  (listBackups svc t k 0).map lastOf

/-- What the answer has to be: the finish time of a complete backup of the instance with none created later, and
the zero time only if there is none. -/
structure LastBackup (t : BackupTable) (k : SpecId) (answer : Time) : Prop where
  newest : t.completeOf k ≠ [] → ∃ r ∈ t.completeOf k,
    (∀ other ∈ t.completeOf k, other.created ≤ r.created) ∧ answer = r.finishTime
  zero : answer.isZero = true ↔ t.completeOf k = []

/-! ## Pages of a listing -/

section Page

variable {α : Type} {before : α → α → Prop} [DecidableRel before] {l : List α} {x : α} {n : Nat}

/-- In a list that is sorted strictly, an entry is among the first `n` when fewer than `n` come before it. -/
theorem mem_take_iff_of_pairwise (hsorted : l.Pairwise before) (hasymm : ∀ a b, before a b → ¬before b a)
    (hx : x ∈ l) : x ∈ l.take n ↔ (l.filter fun y => decide (before y x)).length < n := by
  obtain ⟨front, rest, rfl⟩ := List.append_of_mem hx
  obtain ⟨-, hrest, hfront⟩ := List.pairwise_append.1 hsorted
  have hirrefl : ∀ a, ¬before a a := fun a h => hasymm a a h h
  have hcount : ((front ++ x :: rest).filter fun y => decide (before y x)) = front := by
    have hleft : front.filter (fun y => decide (before y x)) = front :=
      List.filter_eq_self.2 fun y hy => decide_eq_true (hfront y hy x List.mem_cons_self)
    have hright : (x :: rest).filter (fun y => decide (before y x)) = [] := by
      refine List.filter_eq_nil_iff.2 fun y hy => ?_
      rw [decide_eq_true_eq]
      rcases List.mem_cons.1 hy with rfl | hy
      · exact hirrefl y
      · exact hasymm x y (List.rel_of_pairwise_cons hrest hy)
    rw [List.filter_append, hleft, hright, List.append_nil]
  rw [hcount]
  constructor
  · intro hmem
    by_contra hle
    -- all of the page is in front of `x`
    rw [List.take_append_of_le_length (by omega)] at hmem
    exact hirrefl x (hfront x (List.mem_of_mem_take hmem) x List.mem_cons_self)
  · intro hlt
    obtain ⟨m, hm⟩ := Nat.exists_eq_add_of_lt hlt
    rw [List.take_append, hm, show front.length + m + 1 - front.length = m + 1 by omega]
    exact List.mem_append_right _ List.mem_cons_self

end Page

section Answer

variable {t : BackupTable} {k : SpecId} {r : BackupRow}

def BackupTable.sorted (t : BackupTable) (k : SpecId) : List BackupRow :=
  (t.rowsOf k).insertionSort fun a b => b.key ≤ a.key

theorem mem_sorted : r ∈ t.sorted k ↔ r ∈ t.rowsOf k :=
  List.mem_insertionSort _

theorem mem_completeOf : r ∈ t.completeOf k ↔ r ∈ t.rowsOf k ∧ r.complete = true :=
  List.mem_filter

theorem sorted_pairwise : (t.sorted k).Pairwise fun a b => a.newer b = true := by
  have hids : ((t.sorted k).map BackupRow.id).Nodup := by
    refine ((List.perm_insertionSort _ _).map BackupRow.id).nodup_iff.2 ?_
    exact t.nodup.sublist (List.filter_sublist.map BackupRow.id)
  refine ((List.pairwise_insertionSort _ _).and (List.pairwise_map.1 hids)).imp fun {a b} h => ?_
  refine decide_eq_true (h.1.lt_of_ne fun hkey => h.2 ?_)
  exact (congrArg (fun x => (ofLex x).2) hkey).symm

theorem mem_listBackups_iff {limit : Int} (hr : r ∈ t.rowsOf k) :
    r ∈ t.listBackups k limit ↔ ((t.rowsOf k).filter (·.newer r)).length < clampJobLimit limit := by
  have hcount : ((t.sorted k).filter fun y => decide (y.newer r = true)).length =
      ((t.rowsOf k).filter (·.newer r)).length := by
    simp only [Bool.decide_eq_true]
    exact ((List.perm_insertionSort _ _).filter _).length_eq
  rw [← hcount]
  refine mem_take_iff_of_pairwise sorted_pairwise (fun a b hab hba => ?_) (mem_sorted.2 hr)
  exact lt_asymm (of_decide_eq_true hab) (of_decide_eq_true hba)

theorem finishTime_pos (hr : r ∈ t.completeOf k) : r.finishTime.isZero = false := by
  obtain ⟨hr, hcomplete⟩ := mem_completeOf.1 hr
  obtain ⟨now, hnow⟩ := t.stamped r (List.mem_of_mem_filter hr) hcomplete
  unfold BackupRow.finishTime
  rw [hnow, Option.getD_some, if_neg (by omega)]
  simp only [Time.isZero, unixTime, unixEpoch, second, beq_eq_false_iff_ne]
  omega

theorem find?_newest {limit : Int} (hfind : (t.listBackups k limit).find? BackupRow.complete = some r) :
    r ∈ t.completeOf k ∧ ∀ other ∈ t.completeOf k, other.created ≤ r.created := by
  have hsplit : t.sorted k = t.listBackups k limit ++ (t.sorted k).drop (clampJobLimit limit) :=
    (List.take_append_drop _ _).symm
  have hfirst : (t.sorted k).find? BackupRow.complete = some r := by
    rw [hsplit, List.find?_append, hfind]
    rfl
  obtain ⟨hcomplete, front, rest, hsorted, hfront⟩ := List.find?_eq_some_iff_append.1 hfirst
  refine ⟨mem_completeOf.2 ⟨mem_sorted.1 (List.mem_of_find?_eq_some hfirst), hcomplete⟩, ?_⟩
  intro other hother
  obtain ⟨hother, hdone⟩ := mem_completeOf.1 hother
  have hmem : other ∈ front ++ r :: rest := hsorted ▸ mem_sorted.2 hother
  rcases List.mem_append.1 hmem with hmem | hmem
  · have hnot := hfront other hmem
    rw [hdone] at hnot
    cases hnot
  · rcases List.mem_cons.1 hmem with rfl | hmem
    · exact le_refl _
    · have hpair : (front ++ r :: rest).Pairwise fun a b => a.newer b = true := hsorted ▸ sorted_pairwise
      have hnewer := List.rel_of_pairwise_cons (List.pairwise_append.1 hpair).2.1 hmem
      rcases Prod.Lex.toLex_lt_toLex.1 (of_decide_eq_true hnewer) with h | ⟨h, -⟩
      · exact h.le
      · exact h.le

def OnFirstPage (t : BackupTable) (k : SpecId) : Prop :=
  ∃ r ∈ t.completeOf k, ((t.rowsOf k).filter (·.newer r)).length < defaultJobLimit

theorem lastBackupAt_known {svc : Instance.Service} (hhost : (svc.host k.host).isSome = true) :
    lastBackupAt svc t k = .ok (lastOf (t.listBackups k 0)) := by
  obtain ⟨h, hh⟩ := Option.isSome_iff_exists.1 hhost
  unfold lastBackupAt listBackups
  rw [hh]
  rfl

/-- There is an answer and it is right exactly when the host is known and the instance
has no complete backup, or one with fewer than 100 rows before it. -/
theorem lastBackupAt_iff (svc : Instance.Service) (t : BackupTable) (k : SpecId) :
    (∃ answer, lastBackupAt svc t k = .ok answer ∧ LastBackup t k answer) ↔
      ((svc.host k.host).isSome = true ∧ (t.completeOf k = [] ∨ OnFirstPage t k)) := by
  constructor
  · rintro ⟨answer, hanswer, hlast⟩
    have hhost : (svc.host k.host).isSome = true := by
      by_contra hunknown
      unfold lastBackupAt listBackups at hanswer
      rw [if_pos (by simpa using hunknown)] at hanswer
      cases hanswer
    refine ⟨hhost, ?_⟩
    rw [lastBackupAt_known hhost] at hanswer
    obtain rfl := Except.ok.inj hanswer
    by_cases hnone : t.completeOf k = []
    · exact .inl hnone
    right
    cases hfind : (t.listBackups k 0).find? BackupRow.complete with
    | none =>
      -- nothing on the page: the answer is the zero time
      have hzero : (lastOf (t.listBackups k 0)).isZero = true := by
        unfold lastOf
        rw [hfind]
        rfl
      exact absurd (hlast.zero.1 hzero) hnone
    | some r =>
      have hr := (find?_newest hfind).1
      exact ⟨r, hr, (mem_listBackups_iff (mem_completeOf.1 hr).1).1 (List.mem_of_find?_eq_some hfind)⟩
  · rintro ⟨hhost, hcond⟩
    refine ⟨_, lastBackupAt_known hhost, ?_⟩
    cases hfind : (t.listBackups k 0).find? BackupRow.complete with
    | none =>
      have hnone : t.completeOf k = [] := by
        refine hcond.resolve_right ?_
        rintro ⟨r, hr, hpage⟩
        obtain ⟨hrow, hcomplete⟩ := mem_completeOf.1 hr
        exact List.find?_eq_none.1 hfind r ((mem_listBackups_iff hrow).2 hpage) hcomplete
      refine ⟨fun h => absurd hnone h, ⟨fun _ => hnone, fun _ => ?_⟩⟩
      unfold lastOf
      rw [hfind]
      rfl
    | some r =>
      obtain ⟨hr, hnewest⟩ := find?_newest hfind
      have htime : lastOf (t.listBackups k 0) = r.finishTime := by
        unfold lastOf
        rw [hfind]
        rfl
      rw [htime]
      refine ⟨fun _ => ⟨r, hr, hnewest, rfl⟩, ⟨fun hzero => ?_, fun hnone => ?_⟩⟩
      · rw [finishTime_pos hr] at hzero
        cases hzero
      · rw [hnone] at hr
        cases hr

end Answer

/-! ## A backup behind a hundred failures -/

def historyRow (id : String) (state : BackupState) (now : Int) : BackupRow :=
  ⟨⟨id, "engine-1", "web", "shop", state, [], "", ""⟩, now, some now⟩

def historyTarget : SpecId := ⟨"engine-1", "web", "shop"⟩

def goodRow : BackupRow := historyRow "b1" .complete 1

/-- The row of a backup that starts at the instant `n + 2`, and fails at once. -/
def failedRow (n : Nat) : BackupRow :=
  historyRow (.ofList (List.replicate n 'f')) .failed (n + 2)

/-- One good backup, then `n` that fail. -/
def overshadowed (n : Nat) : BackupTable where
  list := goodRow :: (List.range n).map failedRow
  nodup := by
    rw [List.map_cons, List.map_map, List.nodup_cons, List.mem_map]
    constructor
    · rintro ⟨m, -, hid⟩
      have hchars : List.replicate m 'f' = ['b', '1'] := String.ofList_inj.1 hid
      have hb : 'b' ∈ List.replicate m 'f' := hchars ▸ List.mem_cons_self
      simp at hb
    · refine List.nodup_range.map fun m m' hid => ?_
      have hchars : List.replicate m 'f' = List.replicate m' 'f' := String.ofList_inj.1 hid
      simpa using congrArg List.length hchars
  stamped := by
    refine List.forall_mem_cons.2 ⟨fun _ => ⟨⟨1, by decide⟩, rfl⟩, List.forall_mem_map.2 fun n _ h => ?_⟩
    cases h

/-- The good backup is not on the page, and the answer is that there has never been one. -/
theorem overshadowed_backup_forgotten :
    lastBackupAt Instance.exampleService (overshadowed 100) historyTarget = .ok ⟨0⟩ ∧
      goodRow ∈ (overshadowed 100).completeOf historyTarget ∧
      ¬∃ answer, lastBackupAt Instance.exampleService (overshadowed 100) historyTarget = .ok answer ∧
        LastBackup (overshadowed 100) historyTarget answer := by
  have hrows : (overshadowed 100).rowsOf historyTarget = goodRow :: (List.range 100).map failedRow :=
    List.filter_eq_self.2 (List.forall_mem_cons.2 ⟨rfl, List.forall_mem_map.2 fun n _ => rfl⟩)
  have hgood : goodRow ∈ (overshadowed 100).completeOf historyTarget :=
    mem_completeOf.2 ⟨hrows ▸ List.mem_cons_self, rfl⟩
  have hnewer : ((overshadowed 100).rowsOf historyTarget).filter (·.newer goodRow) =
      (List.range 100).map failedRow := by
    rw [hrows, List.filter_cons_of_neg (by simp [BackupRow.newer])]
    refine List.filter_eq_self.2 (List.forall_mem_map.2 fun n _ => decide_eq_true ?_)
    exact Prod.Lex.toLex_lt_toLex.2 (.inl (show (1 : Int) < n + 2 by omega))
  have hnone : ((overshadowed 100).listBackups historyTarget 0).find? BackupRow.complete = none := by
    refine List.find?_eq_none.2 fun r hr hcomplete => ?_
    have hrow : r ∈ (overshadowed 100).rowsOf historyTarget := mem_sorted.1 (List.mem_of_mem_take hr)
    rcases List.mem_cons.1 (hrows ▸ hrow) with rfl | hfailed
    · have hfew := (mem_listBackups_iff hrow).1 hr
      rw [hnewer, List.length_map] at hfew
      exact absurd hfew (by decide)
    · obtain ⟨n, -, rfl⟩ := List.mem_map.1 hfailed
      cases hcomplete
  have hanswer : lastBackupAt Instance.exampleService (overshadowed 100) historyTarget = .ok ⟨0⟩ := by
    rw [lastBackupAt_known (by decide +kernel), lastOf, hnone]
    rfl
  refine ⟨hanswer, hgood, ?_⟩
  rintro ⟨answer, hok, hlast⟩
  obtain rfl : (⟨0⟩ : Time) = answer := Except.ok.inj (hanswer.symm.trans hok)
  rw [hlast.zero.1 rfl] at hgood
  cases hgood

/-! ## Whole histories -/

/-- The statements that write to the table. `RenameHost` also has one, but is refused where it would find a row. -/
inductive Write where
  | createBackup (b : Backup) (now : Stamp)
  | completeBackup (id : String) (vols : List BackupVolume) (now : Stamp)
  | failBackup (id : String) (now : Stamp)
  | deleteBackup (id : String)

namespace BackupTable

/-- An id that is taken is refused. -/
def write (t : BackupTable) : Write → BackupTable
  | .createBackup b now => (t.createBackup b now).toOption.getD t
  | .completeBackup id vols now => (t.completeBackup id vols now).2
  | .failBackup id now => (t.failBackup id now).2
  | .deleteBackup id => t.remove id

variable {t : BackupTable} {r : BackupRow}

theorem casBackupState_lost {state : BackupState} {vols : Option (List BackupVolume)} {now : Stamp}
    (hr : r ∈ t.list) (hdone : r.backup.state ≠ .creating) : (t.casBackupState r.id state vols now).1 = false := by
  refine List.any_eq_false.2 fun other hother h => ?_
  obtain ⟨hid, hcreating⟩ := of_decide_eq_true h
  obtain rfl := List.inj_on_of_nodup_map t.nodup hother hr hid
  exact hdone hcreating

theorem write_keeps {w : Write} (hr : r ∈ t.list) (hdone : r.backup.state ≠ .creating)
    (hw : w ≠ .deleteBackup r.id) : r ∈ (t.write w).list := by
  have hsettle : ∀ {id state vols now}, r ∈ (t.casBackupState id state vols now).2.list :=
    List.mem_map.2 ⟨r, hr, if_neg fun h => hdone h.2⟩
  cases w with
  | createBackup b now =>
    show r ∈ ((t.createBackup b now).toOption.getD t).list
    unfold createBackup
    split
    · exact List.mem_append_left _ hr
    · exact hr
  | completeBackup | failBackup => exact hsettle
  | deleteBackup id =>
    refine List.mem_filter.2 ⟨hr, bne_iff_ne.2 ?_⟩
    rintro rfl
    exact hw rfl

/-- A backup is settled once: until it is deleted, the row that a `casBackupState` has changed stays as that left
it, and no other `casBackupState` reports a change of it. -/
theorem settled_once (t u : BackupTable) (id : String) (state : BackupState) (vols : Option (List BackupVolume))
    (now : Stamp) (hstate : state ≠ .creating) (hwon : t.casBackupState id state vols now = (true, u))
    (later : List Write) (hkept : .deleteBackup id ∉ later) :
    ∃ r ∈ u.list, r.id = id ∧ r.backup.state = state ∧ r.finished = some now.1 ∧ r ∈ (later.foldl write u).list ∧
      ∀ state' vols' now', ((later.foldl write u).casBackupState id state' vols' now').1 = false := by
  obtain ⟨r, hr, rfl, rfl, hstamp⟩ :
      ∃ r ∈ u.list, r.id = id ∧ r.backup.state = state ∧ r.finished = some now.1 := by
    obtain ⟨hwon, rfl⟩ := Prod.ext_iff.1 hwon
    obtain ⟨r, hr, hcreating⟩ := List.any_eq_true.1 hwon
    have hcreating := of_decide_eq_true hcreating
    refine ⟨_, List.mem_map_of_mem hr, (settle_id r).trans hcreating.1, ?_⟩
    rw [settle, if_pos hcreating]
    exact ⟨rfl, rfl⟩
  -- the row is in the table after every write
  have hstays : r ∈ (later.foldl write u).list := List.foldlRecOn (motive := fun u => r ∈ u.list) later write hr
    fun _ hr w hw => write_keeps hr hstate fun h => hkept (h ▸ hw)
  exact ⟨r, hr, rfl, rfl, hstamp, hstays, fun _ _ _ => casBackupState_lost hstays hstate⟩

theorem late_failure : ∃ u : BackupTable, ∃ r : BackupRow, r.backup.state = .complete ∧
    r ∈ (u.write (.failBackup "b1" ⟨5, by decide⟩)).list := by
  obtain ⟨r, -, -, hstate, -, hstays, -⟩ := settled_once
    (empty.insert ⟨"b1", "engine-1", "shop", "a", .creating, [], "", ""⟩ ⟨3, by decide⟩ List.not_mem_nil) _ "b1"
    .complete none ⟨4, by decide⟩ (by decide) rfl [.failBackup "b1" ⟨5, by decide⟩] (by simp)
  exact ⟨_, r, hstate, hstays⟩

end BackupTable

end PodmanApi.Backupctl
