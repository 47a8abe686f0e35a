/-
# PodmanApi.Instance.BackupSpec — a volume marked `backup: none` and the blob store.

The marker of a volume is the one the template declares for it or, for a name the template no longer declares,
the one the row recorded at the last apply. A snapshot reads it on every path. A live backup never reads it.
-/
import PodmanApi.Instance.Backup

namespace PodmanApi.Instance

open GoStd Calls
open Render (isBackupMarkerNone)

/-! ## Markers -/

/-- The declaration of a volume name that counts: the last one. -/
def lastDeclared (vols : List Volume) (short : String) : Option Volume :=
  vols.reverse.find? (·.name == short)

def effectiveMarker (t : Template) (sp : Spec) (short : String) : Option String :=
  match lastDeclared t.metadata.volumes short with
  | some v => some v.backup
  | none => (GoMap.get? (sp.appliedVolumeMeta.getD []) short).map (·.backup)

def vetoed (u : Unicode) (t : Template) (sp : Spec) (short : String) : Bool :=
  (effectiveMarker t sp short).any (isBackupMarkerNone u)

theorem get?_declaredMeta (tmpl slug : String) (vols : List Volume) (short : String) :
    GoMap.get? (declaredMeta tmpl slug vols) (volumeName tmpl slug short) =
      (lastDeclared vols short).map fun v => ⟨v.backup, v.exclude⟩ := by
  have hkey : (fun v : Volume => volumeName tmpl slug v.name == volumeName tmpl slug short) =
      fun v => v.name == short := by
    funext v
    rw [Bool.eq_iff_iff, beq_iff_eq, beq_iff_eq]
    exact volumeName_inj
  unfold declaredMeta lastDeclared
  rw [GoMap.get?_fill (fun v : Volume => volumeName tmpl slug v.name), hkey]

variable {short host : String} {α : Type} {x : Task α}

theorem has_declaredMarkers {vols : List Volume}
    (h : short ∉ GoMap.keys (declaredMarkers vols)) : lastDeclared vols short = none := by
  have hget : GoMap.get? (declaredMarkers vols) short = none := by
    unfold GoMap.get?
    rw [Option.map_eq_none_iff, List.find?_eq_none]
    intro p hp hpk
    exact h (List.mem_map.2 ⟨p, hp, by simpa using hpk⟩)
  unfold declaredMarkers at hget
  rw [GoMap.get?_fill Volume.name, Option.map_eq_none_iff] at hget
  exact hget

theorem get?_mergeMeta (metas recovered : GoMap VolMeta) (k : String) : GoMap.get? (mergeMeta metas recovered) k =
      (GoMap.get? metas k).or (GoMap.get? recovered k) := by
  induction recovered generalizing metas with
  | nil => simp [mergeMeta, GoMap.get?_nil]
  | cons p rest ih =>
    have hstep : mergeMeta metas (p :: rest) =
        mergeMeta (if GoMap.has metas p.1 then metas else GoMap.set metas p.1 p.2) rest := rfl
    rw [hstep, ih, GoMap.get?_cons]
    by_cases hhas : GoMap.has metas p.1 = true
    · rw [if_pos hhas]
      by_cases hk : p.1 = k
      · subst hk
        obtain ⟨v, hv⟩ := GoMap.get?_of_has hhas
        simp [hv]
      · simp [hk]
    · rw [if_neg hhas, GoMap.get?_set]
      by_cases hk : p.1 = k
      · subst hk
        rw [GoMap.get?_of_not_has hhas]
        simp
      · simp [hk]

/-! ## The store and the host a backup finds -/

def volumeKey (req : BackupRequest) (short : String) : String :=
  backupBlobKey req.host req.template req.slug req.backupID (volumeName req.template req.slug short)

/-- The calls that read the content of one volume of the instance or store a tar under its name. -/
def Exposes (req : BackupRequest) (short : String) : Op → Prop
  | .volumeExport host name => host = req.host ∧ name = volumeName req.template req.slug short
  | .blobPut key => key = volumeKey req short
  | .blobCommit key _ => key = volumeKey req short
  | _ => False

/-- The answers of a store with one template and one row for the instance, and of hosts whose inspect answers
about the volume asked for. Every call may fail, and every other answer is free. -/
def Tells (req : BackupRequest) (t : Template) (sp : Spec) : (op : Op) → op.Ans → Prop
  | .getTemplate id, r => id = req.template → ∀ found, r = .ok found → found = t
  | .getSpec host tmpl slug, r =>
    (⟨host, tmpl, slug⟩ : SpecId) = ⟨req.host, req.template, req.slug⟩ → ∀ row, r = .ok row → row = sp
  | .volumeInspect _ name, r => ∀ v, r = .ok v → v.name = name
  | _, _ => True

def storing (req : BackupRequest) (t : Template) (sp : Spec) : Calls.Service calls Unit :=
  fun _ op r _ => Tells req t sp op r

/-- The obligation on every call: it exposes no vetoed volume. -/
def Sealed (u : Unicode) (req : BackupRequest) (t : Template) (sp : Spec) (_ : Unit) (op : Op) : Prop :=
  ∀ short, vetoed u t sp short = true → ¬Exposes req short op

abbrev Seals {α : Type} (u : Unicode) (req : BackupRequest) (t : Template) (sp : Spec) (Q : Unit → α → Prop)
    (p : Prog calls α) : Unit → Prop :=
  Ensures (storing req t sp) (Sealed u req t sp) Q p

def Unexposing : Op → Prop
  | .volumeExport _ _ | .blobPut _ | .blobCommit _ _ => False
  | _ => True

variable {compensation : Task Unit}

section Snapshot

variable {s : Service} {req : BackupRequest} {t : Template} {sp : Spec} {u : Unicode}

variable {metas : GoMap VolMeta} {vols : List HostVolume} {acc : AppliedLoss} {tmpl slug : String} {op : Op}

theorem Unexposing.sealed (h : Unexposing op) : Sealed u req t sp () op := by
  intro short _ hexp
  cases op
  case volumeExport => exact h
  case blobPut => exact h
  case blobCommit => exact h
  all_goals exact hexp

theorem sealed_ensures {p : Prog calls α} (hp : p.Issues Unexposing) : Seals u req t sp (fun _ _ => True) p () :=
  hp.ensures (fun _ _ _ _ _ _ _ => trivial) (fun _ _ hop _ => hop.sealed) trivial

theorem lookup_sealed : Seals u req t sp (OnOk fun _ found => found = t ∧ (s.host req.host).isSome = true)
    (s.lookup req.host req.template).run () :=
  ensures_lookup_onOk (Unexposing.sealed (by trivial)) fun hhost found _ hr => ⟨hr rfl found rfl, hhost⟩

variable {f : Error → Error} {name : String}

theorem getSpec_sealed : Seals u req t sp (OnOk fun _ row => row = sp)
    (Act.mapErr f (Act.lift (issue (.getSpec req.host req.template req.slug)))).run () := by
  refine .mapErr_onOk (ensures_issue (Op.getSpec req.host req.template req.slug)
    (Unexposing.sealed trivial) fun r _ hr => ?_)
  exact fun row hrow => hr rfl row hrow

theorem instanceVolumes_sealed : Seals u req t sp (OnOk fun _ vols => ∀ v ∈ vols, ∃ d ∈ t.metadata.volumes,
      v.name = volumeName req.template req.slug d.name)
    (Act.mapErr f (s.instanceVolumes req.host req.template req.slug)).run () := by
  refine .mapErr_onOk ?_
  refine lookup_sealed.thenOk fun _ found hfound => ?_
  obtain ⟨rfl, -⟩ := hfound
  refine ensures_foldlM_onOk (fun _ (vols : List HostVolume) => ∀ v ∈ vols, ∃ d ∈ found.metadata.volumes,
    v.name = volumeName req.template req.slug d.name) _ (fun d hd _ out hout => ?_) (by simp)
  refine ensures_ask_bind (Unexposing.sealed (by trivial)) fun r _ hr => ?_
  cases r with
  | error e => exact ensures_pure_or_throw_onOk fun _ => hout
  | ok v =>
    refine ensures_pure_onOk fun w hw => ?_
    rw [List.mem_append, List.mem_singleton] at hw
    obtain hw | rfl := hw
    · exact hout w hw
    · exact ⟨d, hd, hr w rfl⟩

/-! ## What a snapshot exports -/

/-- Every vetoed volume of the list carries the veto in the metadata the export loop reads. -/
def Covered (u : Unicode) (req : BackupRequest) (t : Template) (sp : Spec) (vols : List HostVolume)
    (metas : GoMap VolMeta) : Prop :=
  ∀ v ∈ vols, ∀ short, v.name = volumeName req.template req.slug short →
    vetoed u t sp short = true →
    isBackupMarkerNone u ((GoMap.get? metas v.name).getD ⟨"", []⟩).marker = true

theorem covered_nil (metas : GoMap VolMeta) : Covered u req t sp [] metas := by
  intro v hv
  cases hv

theorem covered_append {more : List HostVolume} : Covered u req t sp (vols ++ more) metas ↔
      Covered u req t sp vols metas ∧ Covered u req t sp more metas :=
  List.forall_mem_append

/-- Metadata that says about each declared volume what its last declaration says. -/
def Declaring (req : BackupRequest) (t : Template) (metas : GoMap VolMeta) : Prop :=
  ∀ short d, lastDeclared t.metadata.volumes short = some d →
    GoMap.get? metas (volumeName req.template req.slug short) = some ⟨d.backup, d.exclude⟩

theorem declaring_declaredMeta : Declaring req t (declaredMeta req.template req.slug t.metadata.volumes) := by
  intro short d hd
  rw [get?_declaredMeta, hd]
  rfl

theorem Declaring.merge (h : Declaring req t metas) (recovered : GoMap VolMeta) :
    Declaring req t (mergeMeta metas recovered) := by
  intro short d hd
  rw [get?_mergeMeta, h short d hd]
  rfl

theorem Declaring.covered (h : Declaring req t metas)
    (hvols : ∀ v ∈ vols, ∃ d ∈ t.metadata.volumes, v.name = volumeName req.template req.slug d.name) :
    Covered u req t sp vols metas := by
  intro v hv short hname hveto
  obtain ⟨d, hd, hd'⟩ := hvols v hv
  obtain rfl : d.name = short := volumeName_inj.1 (hd'.symm.trans hname)
  have hfound : (t.metadata.volumes.reverse.find? (·.name == d.name)).isSome = true :=
    List.find?_isSome.2 ⟨d, List.mem_reverse.2 hd, beq_self_eq_true _⟩
  obtain ⟨last, hlast⟩ := Option.isSome_iff_exists.1 hfound
  unfold vetoed effectiveMarker lastDeclared at hveto
  simp only [hlast, Option.any_some] at hveto
  rw [hname, h d.name last hlast]
  exact hveto

/-- What the loop over the applied volumes has recovered: volumes no longer declared, each with the metadata that
the row recorded. -/
def Recovering (req : BackupRequest) (t : Template) (sp : Spec) (acc : AppliedLoss) : Prop :=
  ∀ v ∈ acc.recovered, ∃ short, v.name = volumeName req.template req.slug short ∧
    lastDeclared t.metadata.volumes short = none ∧
    ∀ m, GoMap.get? (sp.appliedVolumeMeta.getD []) short = some m →
      GoMap.get? acc.recoveredMeta v.name = some ⟨m.backup, m.exclude⟩

theorem inspectApplied_sealed (hacc : Recovering req t sp acc)
    (hshort : lastDeclared t.metadata.volumes short = none) :
    Seals u req t sp (OnOk fun _ acc => Recovering req t sp acc)
      (inspectApplied req.host (volumeName req.template req.slug short)
        (GoMap.get? (sp.appliedVolumeMeta.getD []) short) acc short).run () := by
  refine ensures_ask_bind (Unexposing.sealed (by trivial)) fun r _ hr => ?_
  cases r with
  | error e => exact ensures_pure_or_throw_onOk fun _ => hacc
  | ok v =>
    have hv : v.name = volumeName req.template req.slug short := hr v rfl
    refine ensures_pure_onOk fun w hw => ?_
    rw [List.mem_append, List.mem_singleton] at hw
    obtain hw | rfl := hw
    · obtain ⟨short', hname, hnone, hmeta⟩ := hacc w hw
      refine ⟨short', hname, hnone, fun m hm => ?_⟩
      -- the same applied name twice: the second write stores the same record
      cases hmark : GoMap.get? (sp.appliedVolumeMeta.getD []) short with
      | none => exact hmeta m hm
      | some m' =>
        show GoMap.get? (GoMap.set _ _ _) _ = _
        rw [GoMap.get?_set]
        split
        · rename_i heq
          obtain rfl : short = short' := volumeName_inj.1 (heq.trans hname)
          rw [hmark] at hm
          rw [Option.some.inj hm]
        · exact hmeta m hm
    · refine ⟨short, hv, hshort, fun m hm => ?_⟩
      rw [hm, hv]
      show GoMap.get? (GoMap.set _ _ _) _ = _
      rw [GoMap.get?_set, if_pos rfl]

theorem classifyApplied_sealed {present : List String} (hacc : Recovering req t sp acc) :
    Seals u req t sp (OnOk fun _ acc => Recovering req t sp acc)
      (classifyApplied req.host req.template req.slug (sp.appliedVolumeMeta.getD []) present
        ((GoMap.keys (declaredMarkers t.metadata.volumes)).map (volumeName req.template req.slug))
        acc short).run () := by
  unfold classifyApplied
  dsimp only
  split
  · exact ensures_pure_onOk hacc
  split
  · exact ensures_pure_onOk hacc
  · rename_i hnot
    refine inspectApplied_sealed hacc (has_declaredMarkers fun hmem => hnot ?_)
    rw [List.contains_iff_mem]
    exact List.mem_map_of_mem hmem

theorem Recovering.covered (h : Recovering req t sp acc) : Covered u req t sp acc.recovered
      (mergeMeta (declaredMeta req.template req.slug t.metadata.volumes) acc.recoveredMeta) := by
  intro v hv short hname hveto
  obtain ⟨short', hname', hnone, hmeta⟩ := h v hv
  obtain rfl : short' = short := volumeName_inj.1 (hname'.symm.trans hname)
  unfold vetoed effectiveMarker at hveto
  rw [hnone] at hveto
  cases hmark : GoMap.get? (sp.appliedVolumeMeta.getD []) short' with
  | none => simp [hmark] at hveto
  | some m =>
    rw [get?_mergeMeta, hname, get?_declaredMeta, hnone, ← hname, hmeta m hmark]
    simpa [hmark] using hveto

/-! ## Admission covers what it admits -/

theorem classifyVolumes_sealed : Seals u req t sp (OnOk fun _ c => Covered u req t sp c.vols c.metas)
    (s.classifyVolumes req.host req.template req.slug (declaredMarkers t.metadata.volumes)
      (declaredMeta req.template req.slug t.metadata.volumes) sp).run () := by
  refine instanceVolumes_sealed.thenOk fun _ vols hvols => ?_
  cases happlied : sp.appliedVolumes with
  | none => exact ensures_pure_onOk (declaring_declaredMeta.covered hvols)
  | some applied =>
    refine .thenOk (ensures_foldlM_onOk (fun _ acc => Recovering req t sp acc) applied
      (fun short _ _ acc hacc => classifyApplied_sealed hacc) ?_) fun _ loss hloss => ?_
    · intro v hv
      cases hv
    · refine ensures_pure_onOk (covered_append.2 ⟨?_, hloss.covered⟩)
      exact (declaring_declaredMeta.merge _).covered hvols

theorem checkMaterialized_sealed : Seals u req t sp (OnOk fun _ out => Covered u req t sp out.1 out.2)
    (s.checkMaterialized req.host req.template req.slug (declaredMarkers t.metadata.volumes)
      (declaredMeta req.template req.slug t.metadata.volumes) sp).run () := by
  refine classifyVolumes_sealed.thenOk fun _ c hc => ?_
  refine (sealed_ensures (refuseTotalLoss_issues trivial)).andThen (fun _ e _ => onOk_error e) fun _ _ _ => ?_
  split
  · exact ensures_require_thenOk fun _ => ensures_pure_onOk (covered_nil _)
  · exact ensures_require_thenOk fun _ => ensures_pure_onOk hc

/-- **Admission**: the volumes it returns carry their vetoes in the metadata it returns. -/
theorem checkBackupable_sealed {volumes : List String} : Seals u req t sp
    (OnOk fun _ out => Covered u req t sp out.1 out.2)
    (s.checkBackupable req.host req.template req.slug volumes false).run () := by
  refine ensures_require_thenOk fun _ => ?_
  refine lookup_sealed.thenOk fun _ found hfound => ?_
  obtain ⟨rfl, -⟩ := hfound
  refine getSpec_sealed.thenOk fun _ row hrow => ?_
  obtain rfl := hrow
  dsimp only
  split
  · unfold Service.checkUnscoped
    split
    · exact ensures_pure_onOk (covered_nil _)
    · refine ensures_require_thenOk fun _ => ?_
      exact checkMaterialized_sealed
  · refine (sealed_ensures (issues_forM volumes fun name _ => checkScopeName_issues)).andThen
      (fun _ e _ => onOk_error e) fun _ _ _ => ?_
    refine instanceVolumes_sealed.thenOk fun _ vols hvols => ?_
    exact ensures_require_thenOk fun _ => ensures_pure_onOk (declaring_declaredMeta.covered hvols)

/-! ## The exports -/

theorem backupBlobKey_inj {id v w : String} :
    backupBlobKey host tmpl slug id v = backupBlobKey host tmpl slug id w ↔ v = w := by
  unfold backupBlobKey
  rw [String.append_left_inj, String.append_right_inj]

def Open (u : Unicode) (req : BackupRequest) (t : Template) (sp : Spec) (name : String) : Prop :=
  ∀ short, name = volumeName req.template req.slug short → vetoed u t sp short = false

theorem Open.key_sealed (h : Open u req t sp name) (hveto : vetoed u t sp short = true) :
    backupBlobKey req.host req.template req.slug req.backupID name ≠ volumeKey req short := by
  intro hkey
  have hopen := h short (backupBlobKey_inj.1 hkey)
  rw [hveto] at hopen
  cases hopen

theorem backupVolumeFromReader_sealed {content : Bytes} {patterns : List String}
    (h : Open u req t sp name) : Seals u req t sp (OnOk fun _ _ => True)
      (s.backupVolumeFromReader req name content patterns).run () := by
  have hkey : ∀ short, vetoed u t sp short = true →
      backupBlobKey req.host req.template req.slug req.backupID name ≠ volumeKey req short :=
    fun short hveto => h.key_sealed hveto
  have hissues : (s.backupVolumeFromReader req name content patterns).run.Issues
      fun op => Sealed u req t sp () op := by
    refine backupVolumeFromReader_issues ?_ (fun kept => ?_) ?_ ?_ fun raw => ?_
    · exact fun short hveto hexp => hkey short hveto hexp
    · exact fun short hveto hexp => hkey short hveto hexp
    · exact Unexposing.sealed trivial
    · exact fun short _ hexp => manifestBlobKey_ne hexp
    · exact fun short _ hexp => manifestBlobKey_ne hexp
  refine .imp (hissues.ensures (I := fun _ => True) ?_ ?_ trivial) fun _ _ _ _ _ => trivial
  · exact fun _ _ _ _ _ _ _ => trivial
  · exact fun _ _ hop _ => hop

theorem exportVolume_sealed (hcov : Covered s.unicode req t sp vols metas) {v : HostVolume} (hv : v ∈ vols)
    (bvols : List BackupVolume) : Seals s.unicode req t sp (OnOk fun _ _ => True)
      (s.exportVolume req metas bvols v).run () := by
  unfold Service.exportVolume
  dsimp only
  split
  · exact ensures_pure_onOk trivial
  rename_i hmarker
  split
  · exact ensures_pure_onOk trivial
  have hopen : Open s.unicode req t sp v.name := by
    intro short hname
    rw [← Bool.not_eq_true]
    exact fun hveto => hmarker (hcov v hv short hname hveto)
  have hexport : Sealed s.unicode req t sp () (.volumeExport req.host v.name) := by
    rintro short hveto ⟨-, hname⟩
    rw [hopen short hname] at hveto
    cases hveto
  have hvolume : Seals s.unicode req t sp (OnOk fun _ _ => True)
      (s.backupVolume req v.name ((GoMap.get? metas v.name).getD ⟨"", []⟩).exclude).run () := by
    refine .thenOk (P := fun _ _ => True) (.mapErr_onOk ?_) fun _ content _ =>
      backupVolumeFromReader_sealed hopen
    exact ensures_issue (Op.volumeExport req.host v.name) hexport fun _ _ _ _ _ => trivial
  exact hvolume.mapErr_onOk.thenOk fun _ bv _ => ensures_pure_onOk trivial

theorem Reading.unexposing (h : Reading host tmpl slug op) : Unexposing op := by
  cases h <;> trivial

theorem Starting.unexposing (h : Starting host tmpl slug op) : Unexposing op := by
  cases h with
  | waiting h => cases h <;> trivial
  | reading h => exact h.unexposing
  | lock | podStart | unlock => trivial

theorem Stopping.unexposing (h : Stopping host tmpl slug op) : Unexposing op := by
  cases h <;> trivial

theorem abandoning : (abandonBackup req).run.Issues Unexposing :=
  abandonBackup_issues trivial fun _ => trivial

theorem restarting {wasRunning : Bool} : (s.restartAfter req wasRunning).run.Issues Unexposing :=
  restartAfter_issues fun _ h => h.unexposing

theorem orAfter_sealed {P : α → Prop} (hc : compensation.run.Issues Unexposing)
    (hx : Seals u req t sp (OnOk fun _ a => P a) x.run ()) : Seals u req t sp (OnOk fun _ a => P a)
      (orAfter compensation x).run () := by
  refine hx.attemptThen fun _ r hr => ?_
  cases r with
  | ok a => exact ensures_pure_onOk (onOk_ok.1 hr)
  | error e =>
    exact (sealed_ensures hc).andThen (fun _ e _ => onOk_error e) fun _ _ _ => ensures_throw_onOk

theorem sealed_onOk (hx : x.run.Issues Unexposing) : Seals u req t sp (OnOk fun _ _ => True) x.run () :=
  (sealed_ensures hx).imp fun _ _ _ _ _ => trivial

theorem snapshotBackup_sealed : Seals s.unicode req t sp (OnOk fun _ _ => True) (s.snapshotBackup req).run () := by
  refine checkBackupable_sealed.thenOk fun _ out hcov => ?_
  obtain ⟨vols, metas⟩ := out
  refine (sealed_onOk (get_issues.mono fun op h => h.unexposing)).thenOk fun _ obs _ => ?_
  refine (sealed_onOk (.mapErr (issues_perform.2 trivial))).thenOk fun _ _ _ => ?_
  have hcapture : Seals s.unicode req t sp (OnOk fun _ _ => True)
      (s.captureVolumes req vols metas).run () := by
    refine .thenOk (ensures_foldlM_onOk (fun _ _ => True) vols
      (fun v hv _ bvols _ => exportVolume_sealed hcov hv bvols) trivial) fun _ bvols _ => ?_
    exact ensures_require_thenOk fun _ => sealed_onOk (completeBackup_issues trivial)
  refine (orAfter_sealed abandoning (sealed_onOk (runPreBackup_issues trivial trivial fun _ _ => trivial))).thenOk
    fun _ _ _ => ?_
  refine (orAfter_sealed abandoning
    (sealed_onOk (stop_issues.mono fun op h => h.unexposing).mapErr)).thenOk fun _ _ _ => ?_
  exact (orAfter_sealed (restarting.andThen fun _ => abandoning) hcapture).thenOk
    fun _ _ _ => sealed_onOk restarting

end Snapshot

/-! ## What a live backup copies -/

/-- A live request for a vetoed volume that gets as far as the copy: there is a blob store, the host is known, the
volume declares a `live_backup`, and its commands render. -/
structure LiveVeto (s : Service) (req : BackupRequest) (t : Template) (sp : Spec) (short : String)
    (lb : LiveBackup) : Prop where
  live : req.mode = "live"
  scope : req.volumes = [short]
  veto : vetoed s.unicode t sp short = true
  blobs : s.blobs = true
  host : (s.host req.host).isSome = true
  declared : (t.metadata.volumes.find? (·.name == short)).bind (·.liveBackup) = some lb
  renders : ∀ argv ∈ [lb.preExec, lb.backupExec, lb.postExec],
    (s.renderBackupArgv sp.parameters argv).isOk = true

section Live

variable {s : Service} {req : BackupRequest} {t : Template} {sp : Spec} {u : Unicode}

variable {argv : Except Error (List String)} {container step : String} {params : GoMap Value}

theorem runExecStep_sealed : Seals u req t sp (OnOk fun _ _ => argv.isOk = true)
      (Service.runExecStep host container step argv).run () := by
  unfold Service.runExecStep
  split
  · exact ensures_throw_onOk
  · exact ensures_pure_onOk rfl
  · refine .thenOk (P := fun _ _ => True) (.mapErr_onOk ?_) fun _ _ _ =>
      ensures_require_onOk fun _ => rfl
    exact ensures_issue (Op.containerExec _ _ _) (Unexposing.sealed trivial) fun _ _ _ _ _ => trivial

variable {lb : LiveBackup}

theorem liveDump_sealed : Seals u req t sp (OnOk fun _ _ => ∀ argv ∈ [lb.preExec, lb.backupExec, lb.postExec],
        (s.renderBackupArgv params argv).isOk = true) (s.liveDump req params lb).run () := by
  refine runExecStep_sealed.thenOk fun _ _ hpre => ?_
  refine runExecStep_sealed.attemptThen fun _ dumped hdump => ?_
  refine runExecStep_sealed.attemptThen fun _ post hpost => ?_
  refine ensures_ret.2 fun a ha => ?_
  cases dumped with
  | error e => cases post <;> cases ha
  | ok _ =>
    cases post with
    | error e => cases ha
    | ok _ => simp [hpre, onOk_ok.1 hdump, onOk_ok.1 hpost]

theorem liveCopy_sealed (h : vetoed u t sp short = false) : Seals u req t sp (OnOk fun _ _ => True)
      (s.liveCopy req short lb).run () := by
  have hopen : Open u req t sp (volumeName req.template req.slug short) := by
    intro short' hname
    obtain rfl := volumeName_inj.1 hname
    exact h
  refine .thenOk (P := fun _ _ => True) (.mapErr_onOk ?_) fun _ content _ => ?_
  · exact ensures_issue (Op.containerCopyOut _ _ _) (Unexposing.sealed trivial) fun _ _ _ _ _ => trivial
  · exact (backupVolumeFromReader_sealed hopen).mapErr_onOk.thenOk
      fun _ bv _ => sealed_onOk (completeBackup_issues trivial)

theorem liveBackupLocked_sealed (hlive : req.mode = "live")
    (hscope : req.volumes = [short]) (h : ∀ short lb, ¬LiveVeto s req t sp short lb) :
    Seals s.unicode req t sp (OnOk fun _ _ => True) (s.liveBackupLocked req short).run () := by
  refine ensures_require_thenOk fun hblobs => ?_
  refine lookup_sealed.thenOk fun _ found hfound => ?_
  obtain ⟨rfl, hhost⟩ := hfound
  refine getSpec_sealed.thenOk fun _ row hrow => ?_
  obtain rfl := hrow
  cases hlb : (found.metadata.volumes.find? (·.name == short)).bind (·.liveBackup) with
  | none => exact ensures_throw_onOk
  | some lb =>
    show Ensures _ _ _ (s.liveCapture req short row.parameters lb).run ()
    refine (sealed_onOk (.mapErr (issues_perform.2 trivial))).thenOk fun _ _ _ => ?_
    refine (orAfter_sealed abandoning liveDump_sealed).thenOk fun _ _ hrender => ?_
    refine orAfter_sealed abandoning (liveCopy_sealed ?_)
    rw [← Bool.not_eq_true]
    exact fun hveto => h short lb ⟨hlive, hscope, hveto, hblobs, hhost, hlb, hrender⟩

theorem backup_sealed (h : ∀ short lb, ¬LiveVeto s req t sp short lb) :
    Seals s.unicode req t sp (fun _ _ => True) (s.backup req).run () := by
  have hlock : ∀ {m : Mutex} {x : Task Unit}, Seals s.unicode req t sp
      (OnOk fun _ _ => True) x.run () → Seals s.unicode req t sp
      (fun _ _ => True) (withLock m x).run () := by
    intro m x hx
    refine ensures_lock (Unexposing.sealed trivial) fun _ _ => hx.imp fun _ r _ => ?_
    exact ⟨Unexposing.sealed trivial, fun _ _ => trivial⟩
  unfold Service.backup
  split
  · rename_i hlive
    unfold Service.liveBackup
    split
    · rename_i short hscope
      exact hlock (liveBackupLocked_sealed (by simpa using hlive) hscope h)
    · exact ensures_throw.2 trivial
  · exact hlock snapshotBackup_sealed

def yielding (t : Template) (sp : Spec) : (op : Op) → op.Ans
  | .getTemplate _ => .ok t
  | .getSpec _ _ _ => .ok sp
  | op => op.plain

theorem yielding_tells (op : Op) : Tells req t sp op (yielding t sp op) := by
  cases op
  case getTemplate => exact fun _ found hfound => (Except.ok.inj hfound).symm
  case getSpec => exact fun _ row hrow => (Except.ok.inj hrow).symm
  case volumeInspect => exact fun v hv => by rw [← Except.ok.inj hv]
  all_goals trivial

theorem runExecStep_yields (h : argv.isOk = true) :
    (Service.runExecStep host container step argv).run.given (yielding t sp) = .ok () := by
  unfold Service.runExecStep
  split
  · cases h
  · rfl
  · rfl

theorem liveDump_yields (h : ∀ argv ∈ [lb.preExec, lb.backupExec, lb.postExec],
      (s.renderBackupArgv params argv).isOk = true) :
    (s.liveDump req params lb).run.given (yielding t sp) = .ok () := by
  have hstep : ∀ {argv : List String}, argv ∈ [lb.preExec, lb.backupExec, lb.postExec] →
      ∀ {container step : String}, (Service.runExecStep req.host container step
        (s.renderBackupArgv params argv)).run.given (yielding t sp) = .ok () :=
    fun hmem => runExecStep_yields (h _ hmem)
  have htry : ∀ {x : Task Unit}, x.run.given (yielding t sp) = .ok () →
      (Act.attempt x).run.given (yielding t sp) = .ok (.ok ()) :=
    fun hx => by rw [Act.given_attempt, hx]
  refine Act.given_bind_ok.2 ⟨(), hstep (by simp), ?_⟩
  refine Act.given_bind_ok.2 ⟨.ok (), htry (hstep (by simp)), ?_⟩
  exact Act.given_bind_ok.2 ⟨.ok (), htry (hstep (by simp)), rfl⟩

theorem orAfter_yields {A : (op : Op) → op.Ans} {a : α}
    (hx : x.run.given A = .ok a) : (orAfter compensation x).run.given A = .ok a := by
  exact Act.given_bind_ok.2 ⟨.ok a, by rw [Act.given_attempt, hx], rfl⟩

/-- In the one case, the run on which everything works opens a blob for the vetoed volume. -/
theorem LiveVeto.asked (h : LiveVeto s req t sp short lb) :
    .blobPut (volumeKey req short) ∈ (s.backup req).run.asked (yielding t sp) := by
  have hcopy : .blobPut (volumeKey req short) ∈ (s.liveCopy req short lb).run.asked (yielding t sp) := by
    refine Act.asked_right (a := []) rfl (Act.asked_left (Act.asked_mapErr ?_))
    exact Act.asked_left (Act.asked_mapErr Prog.mem_asked_perform)
  have hlocked : .blobPut (volumeKey req short) ∈ (s.liveBackupLocked req short).run.asked (yielding t sp) := by
    refine Act.asked_right (Act.given_require_ok.2 h.blobs) ?_
    refine Act.asked_right (given_lookup h.host rfl) (Act.asked_right (a := sp) rfl ?_)
    rw [h.declared]
    show _ ∈ (s.liveCapture req short sp.parameters lb).run.asked _
    refine Act.asked_right (a := ()) rfl ?_
    refine Act.asked_right (orAfter_yields (liveDump_yields h.renders)) ?_
    exact Act.asked_left (Act.asked_attempt hcopy)
  have hbackup : s.backup req = withLock (migrateLock req.template req.slug)
      (s.liveBackupLocked req short) := by
    unfold Service.backup Service.liveBackup
    rw [if_pos (by simp [h.live]), h.scope]
  rw [hbackup]
  exact withLock_asked hlocked

/-- Over every store with one template and one row for the instance, and every host, no call of a backup reads a
vetoed volume or stores a tar under its name exactly when the request is not a live one for a vetoed volume that
declares a `live_backup`. -/
theorem backup_seals_vetoed_iff (s : Service) (req : BackupRequest) (t : Template) (sp : Spec) :
    (∀ h q op short, Exec (storing req t sp) () (s.backup req).run h () q → q.next = some op →
      vetoed s.unicode t sp short = true → ¬Exposes req short op) ↔ ∀ short lb, ¬LiveVeto s req t sp short lb := by
  constructor
  · intro hsealed short lb hveto
    obtain ⟨h, q, hrun, hnext⟩ := Prog.exec_of_asked (S := storing req t sp) (s := ())
      (fun op => yielding_tells op) hveto.asked
    exact hsealed h q _ short hrun hnext hveto.veto rfl
  · intro hlive h q op short hrun hnext hveto
    cases q with
    | ret a => cases hnext
    | call first k =>
      obtain rfl := Option.some.inj hnext
      exact (backup_sealed hlive).issued hrun short hveto

end Live

/-! ## A live backup of a vetoed volume -/

/-- One volume, marked `none`, whose live backup copies the directory it is mounted at. -/
def vetoedTemplate : Template where
  metadata := ⟨"web", [], [], [], [⟨"data", "none", [], some ⟨"app", [], ["sync"], [], "/data",
    ["unpack"], [], [], "/stage"⟩⟩], none, [], none, some []⟩
  body := "kind: Pod"

def vetoedRequest : BackupRequest :=
  ⟨"b1", "engine-1", "web", "shop", ["data"], "live"⟩

def vetoedHost : Handler calls Unit := fun _ op =>
  match op with
  | .containerCopyOut _ _ _ => (.ok [7], ())
  | op => (yielding vetoedTemplate exampleRow op, ())

@[irreducible]
def vetoedRun : Except Error Unit × History × Unit :=
  (exampleService.backup vetoedRequest).run.eval vetoedHost ()

theorem vetoedRun_exec : Exec (storing vetoedRequest vetoedTemplate exampleRow) ()
    (exampleService.backup vetoedRequest).run vetoedRun.2.1 () (.ret vetoedRun.1) := by
  refine (exec_of_eval (vetoedRun.eq_def ..)).mono fun _ op r _ h => ?_
  have hr : r = (vetoedHost () op).1 := (congrArg Prod.fst h).symm
  cases op
  case containerCopyOut => trivial
  all_goals exact hr ▸ yielding_tells _

/-- Registration accepts the template, and the backup stores the content of its vetoed volume. -/
theorem live_backup_captures_vetoed :
    Render.validateVolumes exampleService.unicode (fun _ => true) vetoedTemplate.metadata none = .ok () ∧
    vetoed exampleService.unicode vetoedTemplate exampleRow "data" = true ∧
    ∃ h r, Exec (storing vetoedRequest vetoedTemplate exampleRow) ()
      (exampleService.backup vetoedRequest).run h () (.ret r) ∧ r = .ok () ∧
      .blobCommit (volumeKey vetoedRequest "data") [7] ∈ h.map (·.1) := by
  refine ⟨by decide +kernel, by decide +kernel, _, _, vetoedRun_exec, by decide +kernel, ?_⟩
  decide +kernel

end PodmanApi.Instance
