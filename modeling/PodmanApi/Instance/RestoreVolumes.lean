/-
# PodmanApi.Instance.RestoreVolumes — the volumes a restore replaces and the blobs it reads.

A volume is removed, recreated or read only in its own turn: every entry of the backup before it has been
restored, and its tar has been opened. `CheckRestorable` opens every tar and nothing else, so a manifest kept in
an object of its own is first asked for when the volume is already gone. And the volumes come from the backup
and the pod from the current template; nobody compares the two.
-/
import PodmanApi.Instance.Restore

namespace PodmanApi.Instance

open GoStd Calls

/-! ## Turns -/

/-- The volume, by host and name, that a call removes, creates, fills or reads. -/
def Op.volume : Op → Option (String × String)
  | .volumeRemove host name _ => some (host, name)
  | .volumeCreate host name => some (host, name)
  | .volumeImport host name _ => some (host, name)
  | .volumeExport host name => some (host, name)
  | _ => none

def Untouching (op : Op) : Prop :=
  op.volume = none

/-- `Restored s b done t`: the answered calls `t` restore the entries `done`, one after the other. -/
inductive Restored (s : Service) (b : Backup) : List BackupVolume → History → Prop where
  | nil : Restored s b [] []
  | next {done : List BackupVolume} {bv : BackupVolume} {t t' : History} (h : Restored s b done t)
      (hnext : Returns (s.restoreVolume b bv).run t' (.ok ())) : Restored s b (done ++ [bv]) (t ++ t')

/-- The turn of one entry of a backup: what came before the volumes, the entries that were restored, and the calls
of this entry, the first of which has opened its tar. -/
structure Turn (s : Service) (id : String) (past : History) where
  b : Backup
  done : List BackupVolume
  bv : BackupVolume
  rest : List BackupVolume
  before : History
  steps : History
  tar : Bytes
  here : History
  listed : b.volumes = done ++ bv :: rest
  split : past = before ++ steps ++ ⟨.blobGet (tarKey b bv), .ok tar⟩ :: here
  admitted : ⟨.getBackup id, .ok b⟩ ∈ before
  untouched : ∀ e ∈ before, Untouching e.1
  restored : Restored s b done steps
  own : ∀ e ∈ here, Restoring b bv e.1

/-- A call that touches a volume does so in the turn of an entry of that name. -/
def InTurn (s : Service) (id : String) (past : History) (op : Op) : Prop :=
  ∀ place, op.volume = some place → ∃ turn : Turn s id past, place = (turn.b.host, turn.bv.name)

variable {host : String} {t : History} {tmpl : Template}

section Turns

variable {s : Service} {b : Backup} {bv : BackupVolume} {id : String} {past : History} {α : Type}

variable {op : Op}

theorem Untouching.inTurn (h : Untouching op) : InTurn s id past op := by
  intro place hplace
  cases h.symm.trans hplace

theorem Restoring.volume (h : Restoring b bv op) : op.volume = none ∨ op.volume = some (b.host, bv.name) := by
  cases h with
  | tar | sidecar => exact .inl rfl
  | _ => exact .inr rfl

theorem Checking.untouching (h : Checking op) : Untouching op := by
  cases h <;> rfl

theorem Applying.untouching {tmpl slug : String} (h : Applying host tmpl slug op) : Untouching op := by
  cases h with
  | checking h => exact h.untouching
  | lock | unlock => rfl
  | committing h =>
    cases h with
    | pushing h => cases h <;> rfl
    | _ => rfl

theorem Waiting.untouching {name : String} (h : Waiting host name op) : Untouching op := by
  cases h <;> rfl

theorem LiveRestoring.untouching (h : LiveRestoring b op) : Untouching op := by
  cases h with
  | reading h => cases h <;> rfl
  | _ => rfl

/-- The teardown is a delete without prune flags: it touches no volume, nor the ones that wrap secrets. -/
theorem teardown_untouching : (s.teardown b).run.Issues Untouching := by
  have hdelete : (s.delete b.host b.template b.slug {}).run.Issues Untouching :=
    delete_issues_keeping rfl rfl rfl rfl rfl rfl rfl
  exact hdelete.attempt.cases (fun _ => issues_pure) fun _ => issues_pure_or_throw

theorem untouching_inTurn {p : Prog calls α} (hp : p.Issues Untouching) :
    Ensures (anything calls) (InTurn s id) (fun _ _ => True) p past :=
  hp.ensures (fun _ _ _ _ _ _ _ => trivial) (fun _ _ hop _ => hop.inTurn) trivial

theorem untouching_ensures {p : Prog calls α} (hp : p.Issues Untouching) (hpast : ∀ e ∈ past, Untouching e.1) :
    Ensures (anything calls) (InTurn s id) (fun past' _ => (∀ e ∈ past', Untouching e.1) ∧ past ⊆ past') p past :=
  (hp.ensures_past hpast).mono (fun _ _ hop => hop.inTurn) fun _ _ h => h

/-- The history in which an entry gets its turn: the backup is admitted, no volume was touched before the
first turn, and the turns so far restored `done`. -/
def Queued (s : Service) (id : String) (b : Backup) (done : List BackupVolume) (past : History) : Prop :=
  ∃ before steps, past = before ++ steps ∧ ⟨.getBackup id, .ok b⟩ ∈ before ∧
    (∀ e ∈ before, Untouching e.1) ∧ Restored s b done steps

theorem checkRestorable_returns (h : Returns (s.checkRestorable id).run t (.ok b)) :
    ∃ row opened, t = ⟨.getBackup id, .ok b⟩ :: ⟨.getSpec b.host b.template b.slug, .ok row⟩ :: opened ∧
      Returns (preflightBlobs b).run opened (.ok ()) := by
  obtain ⟨_, _, b', hget, h₂, rfl⟩ := returns_bind_ok.1 h.required.2
  obtain ⟨-, h₃⟩ := h₂.required
  obtain ⟨-, h₄⟩ := h₃.required
  obtain ⟨_, _, row, hrow, h₆, rfl⟩ := returns_bind_ok.1 h₄.required.2
  obtain ⟨opened, _, _, hopened, h₇, rfl⟩ := returns_bind_ok.1 h₆
  obtain ⟨rfl, rfl⟩ := returns_pure.1 h₇
  obtain rfl := returns_perform.1 (returns_mapErr_ok.1 hget)
  obtain rfl := returns_perform.1 (returns_mapErr_ok.1 hrow)
  exact ⟨row, opened, by simp, hopened⟩

theorem openTar_returns {opening : String} {tar : Bytes} :
    Returns (openTar b bv opening).run t (.ok tar) ↔ t = [⟨.blobGet (tarKey b bv), .ok tar⟩] :=
  returns_mapErr_ok.trans returns_perform

/-- A volume is restored within its turn. The tar comes first; what follows are calls of this entry. -/
theorem restoreVolume_inTurn {done rest : List BackupVolume} (hlisted : b.volumes = done ++ bv :: rest)
    (hqueued : Queued s id b done past) :
    Ensures (anything calls) (InTurn s id) (fun _ _ => True) (s.restoreVolume b bv).run past := by
  obtain ⟨before, steps, rfl, hadm, hbefore, hdone⟩ := hqueued
  have hcalls : (s.restoreVolume b bv).run.Issues (Restoring b bv) := restoreVolume_issues
  have hopen : (openTar b bv "open blob: ").run.Issues Untouching := openTar_issues rfl
  refine (hopen.ensures_returns (fun _ _ h => h.inTurn) _).andThen (fun _ _ _ => trivial)
    fun past' tar hpast => ?_
  obtain ⟨t, rfl, hret⟩ := hpast
  have hrest := (issues_run_bind_iff.1 hcalls).2 t tar hret
  rw [openTar_returns.1 hret]
  have hturn := hrest.ensures (S := anything calls) (G := InTurn s id)
    (I := fun past => ∃ here, past = before ++ steps ++ ⟨.blobGet (tarKey b bv), .ok tar⟩ :: here ∧
      ∀ e ∈ here, Restoring b bv e.1) ?_ ?_ ⟨[], rfl, nofun⟩
  · exact hturn.imp fun _ _ _ => trivial
  · rintro _ op r _ hop ⟨here, rfl, hhere⟩ rfl
    refine ⟨here ++ [⟨op, r⟩], by simp, fun e he => ?_⟩
    rcases List.mem_append.1 he with he | he
    · exact hhere e he
    · rw [List.mem_singleton.1 he]
      exact hop
  · rintro past op hop ⟨here, hpast, hhere⟩ place hplace
    refine ⟨⟨b, done, bv, rest, before, steps, tar, here, hlisted, hpast, hadm, hbefore, hdone, hhere⟩, ?_⟩
    rcases hop.volume with hnone | hsome
    · cases hnone.symm.trans hplace
    · exact Option.some.inj (hplace.symm.trans hsome)

theorem volumes_inTurn {before : History} (hadm : ⟨.getBackup id, .ok b⟩ ∈ before)
    (hbefore : ∀ e ∈ before, Untouching e.1) : Ensures (anything calls) (InTurn s id) (fun _ _ => True)
      (forM b.volumes (s.restoreVolumeNamed b) : Task PUnit).run before := by
  refine ensures_forM (Queued s id b) b.volumes (fun done bv rest hlisted past hqueued => ?_)
    (fun _ _ => trivial) ⟨before, [], (List.append_nil _).symm, hadm, hbefore, .nil⟩
  have hreturns := (issues_true (s.restoreVolume b bv).run).ensures_returns
    (G := fun _ _ => True) (fun _ _ _ => trivial) past
  refine ensures_mapErr.2 (((restoreVolume_inTurn hlisted hqueued).also hreturns).imp fun past' r hr => ?_)
  obtain ⟨-, t, rfl, hret⟩ := hr
  refine ⟨fun hok => ?_, fun _ _ => trivial⟩
  obtain ⟨before', steps, rfl, hadm', hbefore', hdone⟩ := hqueued
  cases r with
  | error e => cases hok
  | ok u => exact ⟨before', steps ++ t, by rw [List.append_assoc], hadm', hbefore', hdone.next hret⟩

theorem restorePostTeardown_inTurn {before : History} {sp : Spec} (hadm : ⟨.getBackup id, .ok b⟩ ∈ before)
    (hbefore : ∀ e ∈ before, Untouching e.1) :
    Ensures (anything calls) (InTurn s id) (fun _ _ => True) (s.restorePostTeardown b sp) before := by
  refine (volumes_inTurn hadm hbefore).bind fun past r _ => ?_
  cases r with
  | error e => exact ensures_ret.2 trivial
  | ok _ =>
    have happly : (s.apply b.host (Service.restoreRequest b sp) { replace := false }).Issues Untouching :=
      apply_issues.mono fun _ h => h.untouching
    refine (untouching_inTurn happly).bind fun past out _ => ?_
    obtain ⟨r, left⟩ := out
    cases r with
    | error e => exact ensures_ret.2 trivial
    | ok _ =>
      have hwait : (s.waitRunning b.host b.template b.slug).run.Issues Untouching :=
        waitRunning_issues.mono fun _ h => h.untouching
      exact (untouching_inTurn hwait.mapErr).map fun _ _ _ => trivial

theorem restoreLocked_inTurn (hpast : ∀ e ∈ past, Untouching e.1) :
    Ensures (anything calls) (InTurn s id) (fun _ _ => True) (s.restoreLocked id).run past := by
  have hcheck : (s.checkRestorable id).run.Issues Untouching :=
    checkRestorable_issues rfl (fun _ _ _ => rfl) fun _ => rfl
  refine ((untouching_ensures hcheck hpast).also (hcheck.ensures_returns (fun _ _ _ => trivial) past)).andThen
    (fun _ _ _ => trivial) fun past₁ b hb => ?_
  obtain ⟨⟨hpast₁, -⟩, t, rfl, hret⟩ := hb
  obtain ⟨row, opened, rfl, -⟩ := checkRestorable_returns hret
  split
  · exact untouching_inTurn (liveRestore_issues.mono fun _ h => h.untouching)
  have hget : (Act.lift (issue (.getSpec b.host b.template b.slug)) : Task Spec).run.Issues Untouching :=
    issues_perform.2 rfl
  refine (untouching_ensures hget hpast₁).andThen (fun _ _ _ => trivial) fun past₂ sp hpast₂ => ?_
  refine (untouching_ensures teardown_untouching hpast₂.1).andThen (fun _ _ _ => trivial) fun past₃ _ hpast₃ => ?_
  have hadm : ⟨.getBackup id, .ok b⟩ ∈ past₃ := hpast₃.2 (hpast₂.2 (by simp))
  refine (restorePostTeardown_inTurn hadm hpast₃.1).embedThen fun past₄ out _ => ?_
  split
  · exact ensures_pure.2 trivial
  · exact ensures_ask_bind (Untouching.inTurn rfl) fun _ _ _ => ensures_throw.2 trivial

/-- In every run of a restore, whatever is answered and wherever it stops, a volume is touched only in its turn:
it is one of the backup's, its tar was opened in this step, and every entry before it was restored. So nothing is
touched by the teardown. -/
theorem restore_takes_turns {σ : Type} {S : Calls.Service calls σ} {x x' : σ} {t : History}
    {q : Prog calls (Except Error Unit)} (hrun : Exec S x (s.restore id).run t x' q) :
    Along (fun past e => InTurn s id past e.1) [] t := by
  have hcheck : (s.checkRestorable id).run.Issues Untouching :=
    checkRestorable_issues rfl (fun _ _ _ => rfl) fun _ => rfl
  have hall : Ensures (anything calls) (InTurn s id) (fun _ _ => True) (s.restore id).run [] := by
    refine (untouching_ensures hcheck (List.forall_mem_nil _)).andThen (fun _ _ _ => trivial) fun past₁ b hpast₁ => ?_
    refine ensures_lock (Untouching.inTurn rfl) fun past₂ hpast₂ => ?_
    have hfree : ∀ e ∈ past₂, Untouching e.1 := by
      rintro e he
      rw [hpast₂] at he
      rcases List.mem_append.1 he with he | he
      · exact hpast₁.1 e he
      · rw [List.mem_singleton.1 he]
        rfl
    exact (restoreLocked_inTurn hfree).imp fun _ _ _ => ⟨Untouching.inTurn rfl, fun _ _ => trivial⟩
  exact hall.along (hrun.forget [])

end Turns

/-! ## Blobs -/

/-- An entry that can be restored without a sidecar: its manifest is in the row, it decodes, and some content of
the volume agrees with it. -/
def Verifiable (c : Codec) (bv : BackupVolume) : Prop :=
  bv.manifest.isEmpty = false ∧ ∃ want content got, c.unmarshal bv.manifest = .ok want ∧
    c.buildManifest content = .ok got ∧ Manifest.firstDiff (want.filter fun p => !excludePath p.1) got = none

/-- The blobs a call may ask for when `t` is what the check has seen: those it has opened. -/
def Opened (t : History) (op : Op) : Prop :=
  ∀ key, op = .blobGet key → ∃ content, ⟨.blobGet key, .ok content⟩ ∈ t

section Blobs

variable {s : Service} {b : Backup} {bv : BackupVolume} {id : String} {t opened : History}

theorem preflightBlobs_opens (h : Returns (preflightBlobs b).run opened (.ok ())) :
    ∀ bv ∈ b.volumes, ∃ tar, ⟨.blobGet (tarKey b bv), .ok tar⟩ ∈ opened := by
  intro bv hbv
  obtain ⟨t₁, t₂, t₃, rfl, hbody⟩ := returns_forM_ok h bv hbv
  obtain ⟨t₄, t₅, tar, hopen, -, rfl⟩ := returns_bind_ok.1 hbody
  rw [openTar_returns.1 hopen]
  exact ⟨tar, by simp⟩

theorem preflightBlobs_only (h : Returns (preflightBlobs b).run opened (.ok ())) :
    ∀ e ∈ opened, ∃ bv ∈ b.volumes, e.1 = .blobGet (tarKey b bv) := by
  refine h.issued (U := fun op => ∃ bv ∈ b.volumes, op = Op.blobGet (tarKey b bv)) ?_
  refine issues_forM _ fun bv hbv => ?_
  exact (openTar_issues ⟨bv, hbv, rfl⟩).andThen fun _ => issues_pure

theorem opened_iff (hcheck : Returns (s.checkRestorable id).run t (.ok b)) {key : String} :
    (∃ content, ⟨.blobGet key, .ok content⟩ ∈ t) ↔ ∃ bv ∈ b.volumes, key = tarKey b bv := by
  obtain ⟨row, opened, rfl, hopened⟩ := checkRestorable_returns hcheck
  constructor
  · rintro ⟨content, hmem⟩
    have hmem' : ⟨.blobGet key, .ok content⟩ ∈ opened := by simpa using hmem
    obtain ⟨bv, hbv, hkey⟩ := preflightBlobs_only hopened _ hmem'
    exact ⟨bv, hbv, Op.blobGet.inj hkey⟩
  · rintro ⟨bv, hbv, rfl⟩
    obtain ⟨tar, htar⟩ := preflightBlobs_opens hopened bv hbv
    exact ⟨tar, List.mem_cons_of_mem _ (List.mem_cons_of_mem _ htar)⟩

theorem restoreVolume_issues_manifest {U : Op → Prop} (h : (s.restoreVolume b bv).run.Issues U) :
    (loadManifest s.codec b bv).run.Issues U := by
  have h₁ := (issues_run_bind_iff.1 h).2 _ [] (openTar_returns.2 rfl)
  have hclear : Returns (clearVolume b.host bv.name).run [⟨.volumeRemove b.host bv.name true, .ok ()⟩] (.ok ()) :=
    returns_bind_ok.2 ⟨_, [], .ok (), returns_ask.2 rfl, returns_pure.2 ⟨rfl, rfl⟩, rfl⟩
  have h₂ := (issues_run_bind_iff.1 h₁).2 _ () hclear
  have h₃ := (issues_run_bind_iff.1 h₂).2 [⟨.volumeCreate b.host bv.name, .ok ()⟩] ()
    (returns_mapErr_ok.2 (returns_perform.2 rfl))
  have h₄ := (issues_run_bind_iff.1 h₃).2 [⟨.volumeImport b.host bv.name [], .ok ()⟩] ()
    (returns_mapErr_ok.2 (returns_perform.2 rfl))
  exact (issues_bind_iff.1 (issues_run_bind_iff.1 h₄).1).1

theorem restoreVolume_issues_sidecar {U : Op → Prop} (hside : Sidecar bv)
    (h : (s.restoreVolume b bv).run.Issues U) :
    U (.blobGet (manifestBlobKey b.host b.template b.slug b.id bv.name)) := by
  have hload := restoreVolume_issues_manifest h
  unfold loadManifest at hload
  rw [if_pos hside.1, if_neg (by simpa using hside.2)] at hload
  exact issues_perform.1 (issues_bind_iff.1 (issues_run_bind_iff.1 hload).1).1

theorem verifiable_of_returns (h : Returns (s.restoreVolume b bv).run t (.ok ()))
    (hside : ¬Sidecar bv) : Verifiable s.codec bv := by
  obtain ⟨_, _, tar, -, h₁, rfl⟩ := returns_bind_ok.1 h
  obtain ⟨_, _, _, -, h₂, rfl⟩ := returns_bind_ok.1 h₁
  obtain ⟨_, _, _, -, h₃, rfl⟩ := returns_bind_ok.1 h₂
  obtain ⟨_, _, _, -, h₄, rfl⟩ := returns_bind_ok.1 h₃
  obtain ⟨_, _, want, hwant, h₅, rfl⟩ := returns_bind_ok.1 h₄
  obtain ⟨_, _, got, hgot, h₆, rfl⟩ := returns_bind_ok.1 h₅
  have hwant' := returns_mapErr_ok.1 hwant
  have hgot' := returns_mapErr_ok.1 hgot
  obtain ⟨_, _, content, -, hbuild, -⟩ := returns_bind_ok.1 hgot'
  have hbuilt : s.codec.buildManifest content = .ok got := ((returns_ret.1 hbuild).2).symm
  have hdiff : Manifest.firstDiff (want.filter fun p => !excludePath p.1) got = none := by
    split at h₆
    · assumption
    · exact (not_returns_throw h₆).elim
  unfold loadManifest at hwant'
  by_cases hrow : bv.manifest.isEmpty = true
  · -- without a manifest in the row only a sidecar could have been loaded
    have hsum : bv.manifestSHA256 = "" := by
      by_contra hne
      exact hside ⟨hrow, hne⟩
    rw [if_pos hrow, if_pos (by simpa using hsum)] at hwant'
    exact (not_returns_throw hwant').elim
  · rw [if_neg hrow] at hwant'
    have hdecoded : s.codec.unmarshal bv.manifest = .ok want :=
      ((returns_ret.1 (returns_mapErr_ok.1 hwant')).2).symm
    exact ⟨by simpa using hrow, want, content, got, hdecoded, hbuilt, hdiff⟩

theorem returns_of_verifiable (h : Verifiable s.codec bv) : ∃ t, Returns (s.restoreVolume b bv).run t (.ok ()) := by
  obtain ⟨hrow, want, content, got, hdecoded, hbuilt, hdiff⟩ := h
  have hload : Returns (loadManifest s.codec b bv).run [] (.ok want) := by
    unfold loadManifest
    rw [if_neg (by simp [hrow])]
    exact returns_mapErr_ok.2 (returns_ret.2 ⟨rfl, hdecoded.symm⟩)
  have hexport : Returns (s.volumeManifest b.host bv.name).run [⟨.volumeExport b.host bv.name, .ok content⟩]
      (.ok got) := by
    exact returns_bind_ok.2 ⟨_, [], content, returns_perform.2 rfl, returns_ret.2 ⟨rfl, hbuilt.symm⟩, rfl⟩
  have hclear : Returns (clearVolume b.host bv.name).run [⟨.volumeRemove b.host bv.name true, .ok ()⟩] (.ok ()) :=
    returns_bind_ok.2 ⟨_, [], .ok (), returns_ask.2 rfl, returns_pure.2 ⟨rfl, rfl⟩, rfl⟩
  refine Returns.thenOk (a := []) (openTar_returns.2 rfl) (hclear.thenOk ?_)
  refine Returns.thenOk (a := ()) (returns_mapErr_ok.2 (returns_perform.2 rfl)) ?_
  refine Returns.thenOk (a := ()) (returns_mapErr_ok.2 (returns_perform.2 rfl)) ?_
  refine (returns_mapErr_ok.2 hload).thenOk ((returns_mapErr_ok.2 hexport).thenOk ⟨[], ?_⟩)
  rw [hdiff]
  exact returns_pure.2 ⟨rfl, rfl⟩

theorem restoreVolume_opened_iff (hcheck : Returns (s.checkRestorable id).run t (.ok b)) (hbv : bv ∈ b.volumes) :
    (s.restoreVolume b bv).run.Issues (Opened t) ↔ ¬Sidecar bv := by
  constructor
  · intro h hside
    obtain ⟨bv', -, hkey⟩ := (opened_iff hcheck).1 (restoreVolume_issues_sidecar hside h _ rfl)
    exact manifestBlobKey_ne hkey
  · intro hside
    refine restoreVolume_issues.mono fun op hop => ?_
    rintro key rfl
    cases hop with
    | tar => exact (opened_iff hcheck).2 ⟨bv, hbv, rfl⟩
    | sidecar h => exact (hside h).elim

theorem restorePostTeardown_opened_iff {sp : Spec} : (s.restorePostTeardown b sp).Issues (Opened t) ↔
      (forM b.volumes (s.restoreVolumeNamed b) : Task PUnit).run.Issues (Opened t) := by
  have hquiet : ∀ {op : Op}, (∀ key, op ≠ .blobGet key) → Opened t op := fun h key hop => (h key hop).elim
  refine ⟨fun h => (issues_bind_iff.1 h).1, fun h => h.bind fun r => ?_⟩
  cases r with
  | error e => exact issues_ret _
  | ok _ =>
    refine (apply_issues.mono fun op hop => ?_).bind fun out => ?_
    · refine hquiet fun key => ?_
      rintro rfl
      cases hop with
      | checking h => cases h
      | committing h =>
        cases h with
        | pushing h => cases h
    · obtain ⟨r, left⟩ := out
      cases r with
      | error e => exact issues_ret _
      | ok _ =>
        refine (waitRunning_issues.mono fun op hop => ?_).mapErr.bind fun r => issues_ret _
        cases hop <;> exact hquiet nofun

/-- After its teardown a restore asks only for blobs that the accepted check has opened, exactly when it
comes to no entry that keeps its manifest in a sidecar: it comes to an entry when those before it can be
restored. -/
theorem check_opens_reads_iff (hcheck : Returns (s.checkRestorable id).run t (.ok b)) :
    (∀ sp, (s.restorePostTeardown b sp).Issues (Opened t)) ↔
      ∀ done bv rest, b.volumes = done ++ bv :: rest → (∀ v ∈ done, Verifiable s.codec v) → ¬Sidecar bv := by
  have hloop : (∀ sp, (s.restorePostTeardown b sp).Issues (Opened t)) ↔
      (forM b.volumes (s.restoreVolumeNamed b) : Task PUnit).run.Issues (Opened t) :=
    ⟨fun h => restorePostTeardown_opened_iff.1 (h exampleRow), fun h _ => restorePostTeardown_opened_iff.2 h⟩
  have hnamed : ∀ bv, (s.restoreVolumeNamed b bv).run.Issues (Opened t) ↔
      (s.restoreVolume b bv).run.Issues (Opened t) :=
    fun bv => ⟨fun h => (issues_bind_iff.1 h).1, fun h => h.mapErr⟩
  rw [hloop, issues_forM_iff]
  constructor
  · intro h done bv rest hsplit hdone
    refine (restoreVolume_opened_iff hcheck (by simp [hsplit])).1 ((hnamed bv).1 ?_)
    refine h done bv rest hsplit fun v hv => ?_
    obtain ⟨t', ht'⟩ := returns_of_verifiable (hdone v hv)
    exact ⟨t', returns_mapErr_ok.2 ht'⟩
  · intro h done bv rest hsplit hdone
    refine (hnamed bv).2 ((restoreVolume_opened_iff hcheck (by simp [hsplit])).2 (h done bv rest hsplit ?_))
    -- entries that can be restored are verifiable, one after the other: none of them has a sidecar
    clear hnamed hloop
    induction done using List.reverseRecOn generalizing bv rest with
    | nil => nofun
    | append_singleton done v ih =>
      have hsplit' : b.volumes = done ++ v :: bv :: rest := by simp [hsplit]
      have hearlier := ih v (bv :: rest) hsplit' fun d hd => hdone d (List.mem_append_left _ hd)
      intro d hd
      rcases List.mem_append.1 hd with hd | hd
      · exact hearlier d hd
      · obtain rfl := List.mem_singleton.1 hd
        obtain ⟨t', ht'⟩ := hdone d (by simp)
        exact verifiable_of_returns (returns_mapErr_ok.1 ht') (h done d (bv :: rest) hsplit' hearlier)

end Blobs

/-! ## The template that is rendered -/

/-- The history holds an apply of the restore that rendered `tmpl` and played the pod. -/
def RenderedFrom (s : Service) (b : Backup) (t : History) (tmpl : Template) : Prop :=
  ∃ before checks commit after sp prep, t = before ++ (checks ++ commit) ++ after ∧
    Returns (s.applyPush b.host (Service.restoreRequest b sp) { replace := false }).run checks (.ok prep) ∧
    Returns (s.applyCommit b.host (Service.restoreRequest b sp) { replace := false } prep).run commit (.ok ()) ∧
    prep.tmpl = tmpl

/-- Every volume of the backup is one that the template declares for the instance. -/
def DeclaredBy (tmpl : Template) (b : Backup) : Prop :=
  ∀ bv ∈ b.volumes, ∃ d ∈ tmpl.metadata.volumes, bv.name = volumeName b.template b.slug d.name

/-- The volumes of a backup under names that a template gives to no volume of the instance. -/
def strays (tmpl : Template) (b : Backup) : List String :=
  (b.volumes.map (·.name)).filter fun name =>
    !(tmpl.metadata.volumes.map fun d => volumeName b.template b.slug d.name).contains name

theorem strays_eq_nil_iff {b : Backup} : strays tmpl b = [] ↔ DeclaredBy tmpl b := by
  simp only [strays, DeclaredBy, List.filter_eq_nil_iff, Bool.not_eq_true', Bool.not_eq_false,
    List.contains_iff_mem, List.mem_map]
  constructor
  · intro h bv hbv
    obtain ⟨d, hd, hname⟩ := h bv.name ⟨bv, hbv, rfl⟩
    exact ⟨d, hd, hname.symm⟩
  · rintro h _ ⟨bv, hbv, rfl⟩
    obtain ⟨d, hd, hname⟩ := h bv hbv
    exact ⟨d, hd, hname.symm⟩

section Rendered

variable {s : Service} {b : Backup} {id : String} {t : History}

theorem applyPush_template {req : ApplyRequest} {opts : ApplyOptions} {prep : Prepared}
    (h : Returns (s.applyPush host req opts).run t (.ok prep)) :
    ⟨.getTemplate req.template, .ok prep.tmpl⟩ ∈ t := by
  unfold Returns at h
  refine ((applyPush_prepares (T := fun (past : History) t => ⟨.getTemplate req.template, .ok t⟩ ∈ past)
    ?_ ?_).post h prep rfl).1
  · rintro t past op r _ rfl hmem
    exact List.mem_append_left _ hmem
  · refine ensures_lookup_onOk trivial fun _ t past hpast => ?_
    subst hpast
    exact List.mem_append_right _ List.mem_cons_self

theorem apply_returns_ok {req : ApplyRequest} {opts : ApplyOptions} {u : Unit} {left : GoMap String}
    (h : Returns (s.apply host req opts) t (.ok u, left)) :
    ∃ before checks commit after prep, t = before ++ (checks ++ commit) ++ after ∧
      Returns (s.applyPush host req opts).run checks (.ok prep) ∧
      Returns (s.applyCommit host req opts prep).run commit (.ok ()) := by
  have hlocked : ∀ {t}, Returns (s.applyLocked host req opts) t (.ok u, left) → ∃ checks commit prep,
      t = checks ++ commit ∧ Returns (s.applyPush host req opts).run checks (.ok prep) ∧
      Returns (s.applyCommit host req opts prep).run commit (.ok ()) := by
    intro t h
    obtain ⟨checks, _, r, hpush, h₁, rfl⟩ := returns_bind.1 h
    cases r with
    | error e => cases (returns_ret.1 h₁).2
    | ok prep =>
      obtain ⟨commit, _, r, hcommit, h₂, rfl⟩ := returns_bind.1 h₁
      obtain ⟨rfl, hpair⟩ := returns_ret.1 h₂
      obtain ⟨rfl, -⟩ := Prod.mk.inj hpair
      exact ⟨checks, commit, prep, by simp, hpush, hcommit⟩
  unfold Service.apply at h
  split at h
  · obtain ⟨t', ht', rfl⟩ := returns_locked.1 h
    obtain ⟨checks, commit, prep, rfl, hpush, hcommit⟩ := hlocked ht'
    exact ⟨[_], checks, commit, [_], prep, rfl, hpush, hcommit⟩
  · obtain ⟨t₁, ht₁, rfl⟩ := returns_locked.1 h
    obtain ⟨t', ht', rfl⟩ := returns_locked.1 ht₁
    obtain ⟨checks, commit, prep, rfl, hpush, hcommit⟩ := hlocked ht'
    refine ⟨[⟨.lock (.hostLocks host), ()⟩, ⟨.lock (instanceLock host req.template req.slug), ()⟩], checks, commit,
      [⟨.unlock (instanceLock host req.template req.slug), ()⟩, ⟨.unlock (.hostLocks host), ()⟩], prep, ?_,
      hpush, hcommit⟩
    simp

theorem RenderedFrom.around (h : RenderedFrom s b t tmpl) (l r : History) :
    RenderedFrom s b (l ++ t ++ r) tmpl := by
  obtain ⟨before, checks, commit, after, sp, prep, rfl, hpush, hcommit, htmpl⟩ := h
  exact ⟨l ++ before, checks, commit, after ++ r, sp, prep, by simp, hpush, hcommit, htmpl⟩

theorem snapshotRestore_rendered (h : Returns (s.snapshotRestore b).run t (.ok ())) :
    ∃ tmpl, RenderedFrom s b t tmpl := by
  obtain ⟨get, _, sp, -, h₁, rfl⟩ := returns_bind_ok.1 h
  obtain ⟨down, _, _, -, h₂, rfl⟩ := returns_bind_ok.1 h₁
  obtain ⟨post, rest, out, hpost, h₃, rfl⟩ := returns_bind_ok.1 h₂
  have hpost' : Returns (s.restorePostTeardown b sp) post out := returns_embed.1 hpost
  obtain ⟨r, left⟩ := out
  cases r with
  | error e =>
    obtain ⟨_, _, _, -, h₄, -⟩ := returns_bind_ok.1 h₃
    exact (not_returns_throw h₄).elim
  | ok u =>
    obtain ⟨volumes, _, r, -, h₅, rfl⟩ := returns_bind.1 hpost'
    cases r with
    | error e => cases (returns_ret.1 h₅).2
    | ok _ =>
      obtain ⟨applied, wait, out, happly, h₆, rfl⟩ := returns_bind.1 h₅
      obtain ⟨r, left'⟩ := out
      cases r with
      | error e => cases (returns_ret.1 h₆).2
      | ok u =>
        obtain ⟨before, checks, commit, after, prep, rfl, hpush, hcommit⟩ := apply_returns_ok happly
        have hhere : RenderedFrom s b (before ++ (checks ++ commit) ++ after) prep.tmpl :=
          ⟨before, checks, commit, after, sp, prep, rfl, hpush, hcommit, rfl⟩
        have hall := hhere.around (get ++ down ++ volumes) (wait ++ rest)
        exact ⟨prep.tmpl, by simpa only [List.append_assoc] using hall⟩

theorem restore_rendered (hrun : Returns (s.restore id).run t (.ok ()))
    (hbackup : ∀ r, ⟨.getBackup id, .ok r⟩ ∈ t → r = b) (hmode : b.mode ≠ "live") :
    ∃ tmpl, RenderedFrom s b t tmpl := by
  obtain ⟨first, _, b₀, hfirst, h₁, rfl⟩ := returns_bind_ok.1 hrun
  obtain ⟨t', hlocked, rfl⟩ := returns_withLock.1 h₁
  obtain ⟨check, rest, b', hcheck, h₂, rfl⟩ := returns_bind_ok.1 hlocked
  obtain ⟨row, opened, rfl, -⟩ := checkRestorable_returns hcheck
  obtain rfl : b' = b := hbackup b' (by simp)
  rw [if_neg (by simpa using hmode)] at h₂
  obtain ⟨tmpl, htmpl⟩ := snapshotRestore_rendered h₂
  have hall := htmpl.around (first ++ ⟨.lock (migrateLock b₀.template b₀.slug), ()⟩ ::
    ⟨.getBackup id, .ok b'⟩ :: ⟨.getSpec b'.host b'.template b'.slug, .ok row⟩ :: opened)
    [⟨.unlock (migrateLock b₀.template b₀.slug), ()⟩]
  exact ⟨tmpl, by simpa using hall⟩

theorem RenderedFrom.read (h : RenderedFrom s b t tmpl) : ⟨.getTemplate b.template, .ok tmpl⟩ ∈ t := by
  obtain ⟨before, checks, commit, after, sp, prep, rfl, hpush, -, rfl⟩ := h
  have hmem := applyPush_template hpush
  exact List.mem_append_left _ (List.mem_append_right _ (List.mem_append_left _ hmem))

/-- A restore that succeeds, while the store keeps backup and template as they are, leaves no data outside the
volumes of the template it renders exactly when the backup has no stray volume. -/
theorem restored_volumes_declared_iff {stored : Template} (hrun : Returns (s.restore id).run t (.ok ()))
    (hbackup : ∀ r, ⟨.getBackup id, .ok r⟩ ∈ t → r = b) (hmode : b.mode ≠ "live")
    (htemplate : ∀ r, ⟨.getTemplate b.template, .ok r⟩ ∈ t → r = stored) :
    (∀ tmpl, RenderedFrom s b t tmpl → DeclaredBy tmpl b) ↔ strays stored b = [] := by
  rw [strays_eq_nil_iff]
  constructor
  · intro h
    obtain ⟨tmpl, htmpl⟩ := restore_rendered hrun hbackup hmode
    exact htemplate tmpl htmpl.read ▸ h tmpl htmpl
  · intro h tmpl htmpl
    exact (htemplate tmpl htmpl.read).symm ▸ h

end Rendered

/-! ## A backup of one volume -/

def inlineEntry : BackupVolume := ⟨"web-shop-data", 1, [123], "", none⟩

def sidecarEntry : BackupVolume := ⟨"web-shop-data", 1, [], "5feceb66", none⟩

def archived (bv : BackupVolume) : Backup := { exampleBackup with volumes := [bv] }

def archiveTemplate (volumes : List String) : Template :=
  { exampleTemplate with metadata := { exampleTemplate.metadata with
      volumes := volumes.map (⟨·, "", [], none⟩) } }

/-- A host with every tar and no sidecar, and a template with these volumes. The state says whether the
pod has been played. -/
def archiveHost (bv : BackupVolume) (volumes : List String) : Handler calls Bool
  | x, .getBackup _ => (.ok (archived bv), x)
  | x, .getSpec _ _ _ => (.ok exampleRow, x)
  | x, .getTemplate _ => (.ok (archiveTemplate volumes), x)
  | x, .blobGet key => (if hasSuffix key ".tar" then .ok [0] else .error (.sentinel .fileNotExist), x)
  | x, .podInspect _ _ => (if x then .ok ⟨"Running", []⟩ else .error (.sentinel .podmanNotFound), x)
  | _, .playKube _ _ _ _ => (.ok (), true)
  | x, op => (op.plain, x)

@[irreducible]
def archiveCheck (bv : BackupVolume) : Except Error Backup × History × Bool :=
  (exampleService.checkRestorable "b1").run.eval (archiveHost bv ["data"]) false

@[irreducible]
def archiveTurns (bv : BackupVolume) : (Except Error Unit × GoMap String) × History × Bool :=
  (exampleService.restorePostTeardown (archived bv) exampleRow).eval (archiveHost bv ["data"]) false

@[irreducible]
def archiveRestore (bv : BackupVolume) (volumes : List String) : Except Error Unit × History × Bool :=
  (exampleService.restore "b1").run.eval (archiveHost bv volumes) false

theorem archiveCheck_returns {bv : BackupVolume} (h : (archiveCheck bv).1 = .ok (archived bv)) :
    Returns (exampleService.checkRestorable "b1").run (archiveCheck bv).2.1 (.ok (archived bv)) := by
  rw [← h]
  unfold archiveCheck
  generalize (exampleService.checkRestorable "b1").run = p
  exact (exec_eval _ p _).returns

theorem archiveTurns_returns (bv : BackupVolume) :
    Returns (exampleService.restorePostTeardown (archived bv) exampleRow) (archiveTurns bv).2.1
      (archiveTurns bv).1 := by
  unfold archiveTurns
  generalize exampleService.restorePostTeardown (archived bv) exampleRow = p
  exact (exec_eval _ p _).returns

theorem archiveRestore_exec (bv : BackupVolume) (volumes : List String) :
    Exec (archiveHost bv volumes).service false (exampleService.restore "b1").run
      (archiveRestore bv volumes).2.1 (archiveRestore bv volumes).2.2 (.ret (archiveRestore bv volumes).1) := by
  unfold archiveRestore
  generalize (exampleService.restore "b1").run = p
  exact exec_eval _ p _

/-- A restore of the entry whose sidecar is missing: it fails, and the one volume it has removed was
removed in its turn. -/
theorem archived_volume_takes_turn : (archiveRestore sidecarEntry ["data"]).1.isOk = false ∧
      (archiveRestore sidecarEntry ["data"]).2.1.filterMap (·.1.volume) =
        [("engine-1", "web-shop-data"), ("engine-1", "web-shop-data"), ("engine-1", "web-shop-data")] ∧
      Along (fun past e => InTurn exampleService "b1" past e.1) [] (archiveRestore sidecarEntry ["data"]).2.1 :=
  ⟨by decide +kernel, by decide +kernel, restore_takes_turns (archiveRestore_exec sidecarEntry ["data"])⟩

/-- With the manifest in the row everything a restore reads was opened by the check. -/
theorem inline_manifest_opened : (exampleService.restorePostTeardown (archived inlineEntry) exampleRow).Issues
      (Opened (archiveCheck inlineEntry).2.1) := by
  refine (check_opens_reads_iff (archiveCheck_returns (by decide +kernel))).2 ?_ exampleRow
  intro done bv rest hsplit _ hside
  have hbv : bv ∈ (archived inlineEntry).volumes := by simp [hsplit]
  rw [List.mem_singleton.1 hbv] at hside
  exact absurd hside.1 (by decide)

/-- The check accepts a backup whose sidecar is gone. The restore removes the volume, and asks for the sidecar,
which the check has not opened. -/
theorem missing_sidecar_accepted :
    ∃ check turns e left, Returns (exampleService.checkRestorable "b1").run check (.ok (archived sidecarEntry)) ∧
      Returns (exampleService.restorePostTeardown (archived sidecarEntry) exampleRow) turns (.error e, left) ∧
      Error.string e = "restore volume \"web-shop-data\": load manifest: open manifest blob: file does not exist" ∧
      Op.volumeRemove "engine-1" "web-shop-data" true ∈ turns.map (·.1) ∧
      Op.blobGet "engine-1/web/shop/b1/web-shop-data.manifest.json.gz" ∈ turns.map (·.1) ∧
      Op.blobGet "engine-1/web/shop/b1/web-shop-data.manifest.json.gz" ∉ check.map (·.1) := by
  have hturns := archiveTurns_returns sidecarEntry
  have hfail : (archiveTurns sidecarEntry).1.1 = .error (.wrap "restore volume \"web-shop-data\": "
      (.wrap "load manifest: " (.wrap "open manifest blob: " (.sentinel .fileNotExist) "") "") "") := by
    decide +kernel
  rw [← Prod.eta (archiveTurns sidecarEntry).1, hfail] at hturns
  exact ⟨_, _, _, _, archiveCheck_returns (by decide +kernel), hturns, by decide +kernel, by decide +kernel,
    by decide +kernel, by decide +kernel⟩

theorem archiveRestore_read (bv : BackupVolume) (volumes : List String) :
    (∀ id r, ⟨.getBackup id, .ok r⟩ ∈ (archiveRestore bv volumes).2.1 → r = archived bv) ∧
      ∀ id r, ⟨.getTemplate id, .ok r⟩ ∈ (archiveRestore bv volumes).2.1 → r = archiveTemplate volumes := by
  have hread := (archiveRestore_exec bv volumes).answered (A := fun op r => r = (archiveHost bv volumes true op).1 ∨
    r = (archiveHost bv volumes false op).1) ?_
  · refine ⟨fun id r h => ?_, fun id r h => ?_⟩
    · exact Except.ok.inj ((hread _ h).elim (·) (·))
    · exact Except.ok.inj ((hread _ h).elim (·) (·))
  · rintro (_ | _) op r _ h
    · exact .inr (congrArg Prod.fst h).symm
    · exact .inl (congrArg Prod.fst h).symm

/-- With the volume declared the restored data is where the pod looks for it. -/
theorem declared_volume_restored : (archiveRestore inlineEntry ["data"]).1 = .ok () ∧
      ∀ tmpl, RenderedFrom exampleService (archived inlineEntry) (archiveRestore inlineEntry ["data"]).2.1 tmpl →
        DeclaredBy tmpl (archived inlineEntry) := by
  have hok : (archiveRestore inlineEntry ["data"]).1 = .ok () := by decide +kernel
  have hrun := (archiveRestore_exec inlineEntry ["data"]).returns
  rw [hok] at hrun
  obtain ⟨hbackup, htemplate⟩ := archiveRestore_read inlineEntry ["data"]
  exact ⟨hok, (restored_volumes_declared_iff hrun (hbackup _) (by decide) (htemplate _)).2 (by decide +kernel)⟩

/-- Once the template has renamed its volume, the restore of an older backup succeeds, fills the volume of the old
name, and plays a pod that does not use it. -/
theorem renamed_volume_stranded : ∃ t, Returns (exampleService.restore "b1").run t (.ok ()) ∧
      Op.volumeImport "engine-1" "web-shop-data" [0] ∈ t.map (·.1) ∧
      (∃ tmpl, RenderedFrom exampleService (archived inlineEntry) t tmpl) ∧
      ∀ tmpl, RenderedFrom exampleService (archived inlineEntry) t tmpl → ¬DeclaredBy tmpl (archived inlineEntry) := by
  have hok : (archiveRestore inlineEntry ["files"]).1 = .ok () := by decide +kernel
  have hrun := (archiveRestore_exec inlineEntry ["files"]).returns
  rw [hok] at hrun
  obtain ⟨hbackup, htemplate⟩ := archiveRestore_read inlineEntry ["files"]
  refine ⟨_, hrun, by decide +kernel, restore_rendered hrun (hbackup _) (by decide), fun tmpl htmpl hdecl => ?_⟩
  rw [htemplate _ _ htmpl.read, ← strays_eq_nil_iff] at hdecl
  exact absurd hdecl (by decide +kernel)

end PodmanApi.Instance
