/-
# PodmanApi.Backupctl.Eligible — which instances a scheduler is shown.

`ListBackupInstances` of `internal/backupctl` projects the live instances to those with at least one declared
volume that no `backup: none` vetoes. A backup of the whole instance goes through `CheckBackupScopeDeclared`, which
also knows the volumes that the instance was applied with and that its template no longer declares. After an
edit that leaves only vetoed volumes, such an instance would be admitted and is never shown.
-/
import PodmanApi.Instance.BackupScope
import PodmanApi.Store

namespace PodmanApi.Backupctl

open GoStd Calls
open Instance (lastDeclared declaredMarkers anyExportableVolume given_lookup Op)
open Render (isBackupMarkerNone)

/-! ## The projection -/

structure VolumeMarker where
  name : String
  backup : String
  deriving DecidableEq, Repr

structure BackupInstance where
  host : String
  template : String
  slug : String
  volumes : List VolumeMarker
  deriving DecidableEq, Repr

/-- `instance.Observed`, as far as the projection reads it. -/
structure Seen where
  template : String
  slug : String
  deriving DecidableEq, Repr

/-- What a sweep finds: the live instances of each host, the stored templates and the stored rows. -/
structure Fleet where
  instances : String → Except Error (List Seen)
  templates : String → Option Template
  rows : SpecId → Option Spec

section Projection

variable (u : Unicode) (w : Fleet)

def eligibleVolumes (t : Template) : List VolumeMarker :=
  (t.metadata.volumes.filter fun v => !isBackupMarkerNone u v.backup).map fun v => ⟨v.name, v.backup⟩

/-- `backupMarkers`: a template that cannot be read has none. -/
def backupMarkers (template : String) : List VolumeMarker :=
  match found .storeNotFound (w.templates template) with
  | .ok t => eligibleVolumes u t
  | .error _ => []

/-- The markers by template that have been looked up, and what has been projected. -/
abbrev Sweep : Type := GoMap (List VolumeMarker) × List BackupInstance

def sweepInstance (host : String) (acc : Sweep) (o : Seen) : Sweep :=
  let (markers, memo) := match GoMap.get? acc.1 o.template with
    | some known => (known, acc.1)
    | none => (backupMarkers u w o.template, GoMap.set acc.1 o.template (backupMarkers u w o.template))
  if markers.isEmpty then (memo, acc.2) else (memo, acc.2 ++ [⟨host, o.template, o.slug, markers⟩])

/-- One host; one that cannot be listed is skipped. -/
def sweepHost (acc : Sweep) (host : String) : Sweep :=
  match w.instances host with
  | .error _ => acc
  | .ok obs => obs.foldl (sweepInstance u w host) acc

end Projection

def listBackupInstances (svc : Instance.Service) (w : Fleet) : List BackupInstance :=
  ((GoMap.keys svc.hosts).foldl (sweepHost svc.unicode w) ([], [])).2

/-- What a live instance is projected to, without the memo. -/
def projected (u : Unicode) (w : Fleet) (host : String) (o : Seen) : Option BackupInstance :=
  if (backupMarkers u w o.template).isEmpty then none
  else some ⟨host, o.template, o.slug, backupMarkers u w o.template⟩

/-- The live instances of a host that can be listed. -/
def Fleet.seen (w : Fleet) (host : String) : List Seen :=
  ((w.instances host).toOption).getD []

section Sweeps

variable {u : Unicode} {w : Fleet} {host : String} {acc : Sweep}

/-- The memo holds nothing but the markers of the templates. -/
def MemoOk (u : Unicode) (w : Fleet) (memo : GoMap (List VolumeMarker)) : Prop :=
  ∀ id markers, GoMap.get? memo id = some markers → markers = backupMarkers u w id

theorem sweepInstance_spec (host : String) (hmemo : MemoOk u w acc.1) (o : Seen) :
    MemoOk u w (sweepInstance u w host acc o).1 ∧
      (sweepInstance u w host acc o).2 = acc.2 ++ (projected u w host o).toList := by
  have hadd : ∀ memo : GoMap (List VolumeMarker), MemoOk u w memo →
      MemoOk u w (if (backupMarkers u w o.template).isEmpty then (memo, acc.2)
        else (memo, acc.2 ++ [⟨host, o.template, o.slug, backupMarkers u w o.template⟩])).1 ∧
      (if (backupMarkers u w o.template).isEmpty then (memo, acc.2)
        else (memo, acc.2 ++ [⟨host, o.template, o.slug, backupMarkers u w o.template⟩])).2 =
        acc.2 ++ (projected u w host o).toList := by
    intro memo hok
    unfold projected
    split
    · exact ⟨hok, by simp⟩
    · exact ⟨hok, rfl⟩
  unfold sweepInstance
  cases hget : GoMap.get? acc.1 o.template with
  | some known =>
    obtain rfl := hmemo _ _ hget
    exact hadd acc.1 hmemo
  | none =>
    refine hadd _ fun id markers hid => ?_
    rw [GoMap.get?_set] at hid
    split at hid
    · rename_i heq
      rw [← heq, ← Option.some.inj hid]
    · exact hmemo _ _ hid

theorem sweepInstances_spec (obs : List Seen) (hmemo : MemoOk u w acc.1) :
    MemoOk u w (obs.foldl (sweepInstance u w host) acc).1 ∧
      (obs.foldl (sweepInstance u w host) acc).2 = acc.2 ++ obs.filterMap (projected u w host) := by
  induction obs generalizing acc with
  | nil => exact ⟨hmemo, by simp⟩
  | cons o obs ih =>
    obtain ⟨hone, hout⟩ := sweepInstance_spec host hmemo o
    obtain ⟨hall, hrest⟩ := ih hone
    refine ⟨hall, ?_⟩
    rw [List.foldl_cons, hrest, hout, List.append_assoc]
    cases hp : projected u w host o with
    | none => rw [List.filterMap_cons_none hp]; rfl
    | some i => rw [List.filterMap_cons_some hp]; rfl

theorem sweepHost_spec (hmemo : MemoOk u w acc.1) (host : String) : MemoOk u w (sweepHost u w acc host).1 ∧
      (sweepHost u w acc host).2 = acc.2 ++ (w.seen host).filterMap (projected u w host) := by
  unfold sweepHost Fleet.seen
  cases hlist : w.instances host with
  | error e => exact ⟨hmemo, (List.append_nil _).symm⟩
  | ok obs => exact sweepInstances_spec obs hmemo

theorem sweepHosts_spec (hosts : List String) (hmemo : MemoOk u w acc.1) : (hosts.foldl (sweepHost u w) acc).2 =
      acc.2 ++ hosts.flatMap fun host => (w.seen host).filterMap (projected u w host) := by
  induction hosts generalizing acc with
  | nil => simp
  | cons host hosts ih =>
    obtain ⟨hok, hout⟩ := sweepHost_spec hmemo host
    rw [List.foldl_cons, ih hok, hout, List.flatMap_cons, List.append_assoc]

/-- **The projection** shows each live instance whose template has markers, and nothing else. -/
theorem mem_listBackupInstances {svc : Instance.Service} {i : BackupInstance} :
    i ∈ listBackupInstances svc w ↔ ∃ host ∈ GoMap.keys svc.hosts, ∃ o ∈ w.seen host,
      projected svc.unicode w host o = some i := by
  unfold listBackupInstances
  rw [sweepHosts_spec _ (by intro id markers h; cases h), List.nil_append]
  simp only [List.mem_flatMap, List.mem_filterMap]

end Sweeps

/-! ## Admission -/

def Fleet.answer (w : Fleet) : (op : Op) → op.Ans
  | .getTemplate id => found .storeNotFound (w.templates id)
  | .getSpec host tmpl slug => found .storeNotFound (w.rows ⟨host, tmpl, slug⟩)
  | op => op.plain

/-- `CheckBackupScopeDeclared` without a scope rejects the instance with `ErrInvalidBackupScope`. -/
def RejectsScope (svc : Instance.Service) (w : Fleet) (k : SpecId) : Prop :=
  ∃ e, (svc.checkBackupable k.host k.template k.slug [] true).run.given w.answer = .error e ∧
    e.is .invalidBackupScope = true

/-- A declaration that is not vetoed, and is the last one of its name. -/
def Standing (u : Unicode) (t : Template) : Prop :=
  ∃ short v, lastDeclared t.metadata.volumes short = some v ∧ isBackupMarkerNone u v.backup = false

/-- A volume that the instance was applied with, that the template no longer declares, and that is not recorded
as vetoed. -/
def LeftBehind (u : Unicode) (t : Template) (sp : Spec) : Prop :=
  ∃ short ∈ sp.appliedVolumes.getD [], (∀ v ∈ t.metadata.volumes, v.name ≠ short) ∧
    ∀ m, GoMap.get? (sp.appliedVolumeMeta.getD []) short = some m → isBackupMarkerNone u m.backup = false

/-- Where projection and admission agree. With a declaration that is not vetoed: backups are not configured, or it
counts, or a volume is left behind. Without: backups are configured, and nothing is left behind. -/
def Agrees (svc : Instance.Service) (t : Template) (sp : Spec) : Prop :=
  if ∃ v ∈ t.metadata.volumes, isBackupMarkerNone svc.unicode v.backup = false then
    svc.blobs = false ∨ Standing svc.unicode t ∨ LeftBehind svc.unicode t sp
  else svc.blobs = true ∧ ¬LeftBehind svc.unicode t sp

section Admission

variable {svc : Instance.Service} {w : Fleet} {k : SpecId} {t : Template} {sp : Spec} {u : Unicode}

theorem has_declaredMarkers_iff {vols : List Volume} {short : String} :
    GoMap.has (declaredMarkers vols) short = true ↔ ∃ v ∈ vols, v.name = short := by
  have hget : GoMap.get? (declaredMarkers vols) short = (lastDeclared vols short).map Volume.backup :=
    GoMap.get?_fill Volume.name Volume.backup vols short
  constructor
  · intro hhas
    obtain ⟨m, hm⟩ := GoMap.get?_of_has hhas
    rw [hget, Option.map_eq_some_iff] at hm
    obtain ⟨v, hv, -⟩ := hm
    refine ⟨v, List.mem_reverse.1 (List.mem_of_find?_eq_some hv), ?_⟩
    simpa using List.find?_some hv
  · rintro ⟨v, hv, rfl⟩
    obtain ⟨last, hlast⟩ := Instance.lastDeclared_of_mem hv
    by_contra hhas
    rw [GoMap.get?_of_not_has hhas, hlast] at hget
    cases hget

theorem anyExportableVolume_iff : anyExportableVolume u (declaredMarkers t.metadata.volumes) sp = true ↔
    Standing u t ∨ LeftBehind u t sp := by
  unfold anyExportableVolume
  rw [Bool.or_eq_true, List.any_eq_true, List.any_eq_true]
  refine or_congr ?_ ?_
  · constructor
    · rintro ⟨p, hp, hmarker⟩
      have hget : GoMap.get? (declaredMarkers t.metadata.volumes) p.1 = some p.2 := GoMap.get?_of_mem_fill hp
      unfold declaredMarkers at hget
      rw [GoMap.get?_fill Volume.name, Option.map_eq_some_iff] at hget
      obtain ⟨v, hv, hbackup⟩ := hget
      exact ⟨p.1, v, hv, by simpa [hbackup] using hmarker⟩
    · rintro ⟨short, v, hv, hmarker⟩
      have hget : GoMap.get? (declaredMarkers t.metadata.volumes) short = some v.backup := by
        unfold declaredMarkers
        rw [GoMap.get?_fill Volume.name]
        exact congrArg (Option.map _) hv
      exact ⟨(short, v.backup), GoMap.mem_of_get? hget, by simp [hmarker]⟩
  · refine exists_congr fun short => and_congr_right fun _ => ?_
    rw [Bool.and_eq_true, Bool.not_eq_true', ← Bool.not_eq_true, has_declaredMarkers_iff]
    refine and_congr (by simp) ?_
    cases GoMap.get? (sp.appliedVolumeMeta.getD []) short with
    | none | some => simp

theorem rejectsScope_iff (hhost : (svc.host k.host).isSome = true) (ht : w.templates k.template = some t)
    (hrow : w.rows k = some sp) (hvols : t.metadata.volumes ≠ []) :
    RejectsScope svc w k ↔ svc.blobs = true ∧ ¬(Standing svc.unicode t ∨ LeftBehind svc.unicode t sp) := by
  have hread : w.answer (.getTemplate k.template) = .ok t := by
    show found .storeNotFound (w.templates k.template) = _
    rw [ht]
    rfl
  have hspec : w.answer (.getSpec k.host k.template k.slug) = .ok sp := by
    show found .storeNotFound (w.rows k) = _
    rw [hrow]
    rfl
  have hdeclared : (declaredMarkers t.metadata.volumes).isEmpty = false := by
    obtain ⟨v, hv⟩ := List.exists_mem_of_ne_nil _ hvols
    have hhas := has_declaredMarkers_iff.2 ⟨v, hv, rfl⟩
    rw [List.isEmpty_eq_false_iff]
    intro hnil
    rw [hnil] at hhas
    cases hhas
  unfold RejectsScope Instance.Service.checkBackupable
  cases hblobs : svc.blobs with
  | false =>
    refine iff_of_false ?_ (by simp)
    rintro ⟨e, hrun, his⟩
    obtain rfl := Except.error.inj hrun
    cases his
  | true =>
    rw [Act.given_bind_of_ok (Act.given_require_ok.2 rfl), Act.given_bind_of_ok (given_lookup hhost hread),
      Act.given_bind_of_ok (a := sp) (by rw [Act.given_mapErr]; exact congrArg _ hspec)]
    simp only [true_and]
    rw [← anyExportableVolume_iff]
    unfold Instance.Service.checkUnscoped
    rw [hdeclared, Bool.false_and]
    cases anyExportableVolume svc.unicode (declaredMarkers t.metadata.volumes) sp with
    | true =>
      refine iff_of_false ?_ (by simp)
      rintro ⟨e, hrun, -⟩
      cases hrun
    | false => exact iff_of_true ⟨_, rfl, rfl⟩ (by simp)

theorem shown_iff {host : String} {o : Seen} (hhost : host ∈ GoMap.keys svc.hosts) (ho : o ∈ w.seen host)
    (ht : w.templates o.template = some t) :
    (∃ i ∈ listBackupInstances svc w, i.host = host ∧ i.template = o.template ∧ i.slug = o.slug) ↔
      ∃ v ∈ t.metadata.volumes, isBackupMarkerNone svc.unicode v.backup = false := by
  have hmarkers : backupMarkers svc.unicode w o.template = eligibleVolumes svc.unicode t := by
    unfold backupMarkers
    rw [ht]
    rfl
  have hsome : (backupMarkers svc.unicode w o.template).isEmpty = false ↔
      ∃ v ∈ t.metadata.volumes, isBackupMarkerNone svc.unicode v.backup = false := by
    rw [hmarkers, List.isEmpty_eq_false_iff, eligibleVolumes, Ne, List.map_eq_nil_iff]
    simp
  rw [← hsome]
  constructor
  · rintro ⟨i, hi, -, htemplate, -⟩
    obtain ⟨host', -, o', -, hproj⟩ := mem_listBackupInstances.1 hi
    unfold projected at hproj
    split at hproj
    · cases hproj
    · rename_i hne
      obtain rfl := Option.some.inj hproj
      rw [← htemplate]
      simpa using hne
  · intro hne
    refine ⟨_, mem_listBackupInstances.2 ⟨host, hhost, o, ho, if_neg ?_⟩, rfl, rfl, rfl⟩
    rw [hne]
    exact Bool.false_ne_true

end Admission

/-- For a live instance whose row and template are stored and whose template
declares a volume: being shown and being admitted come to the same exactly where `Agrees` says so. -/
theorem listed_iff_admitted_iff (svc : Instance.Service) (w : Fleet) (host : String) (o : Seen) (t : Template)
    (sp : Spec) (hhost : host ∈ GoMap.keys svc.hosts) (ho : o ∈ w.seen host)
    (ht : w.templates o.template = some t) (hrow : w.rows ⟨host, o.template, o.slug⟩ = some sp)
    (hvols : t.metadata.volumes ≠ []) :
    ((∃ i ∈ listBackupInstances svc w, i.host = host ∧ i.template = o.template ∧ i.slug = o.slug) ↔
      ¬RejectsScope svc w ⟨host, o.template, o.slug⟩) ↔ Agrees svc t sp := by
  have hknown : (svc.host host).isSome = true := by
    obtain ⟨p, hp, rfl⟩ := List.mem_map.1 hhost
    obtain ⟨h, hh⟩ := GoMap.get?_of_has (List.any_eq_true.2 ⟨p, hp, beq_self_eq_true p.1⟩)
    exact Option.isSome_iff_exists.2 ⟨h, hh⟩
  rw [shown_iff hhost ho ht, rejectsScope_iff hknown ht hrow hvols]
  unfold Agrees
  split
  · rename_i hsome
    rw [iff_true_left hsome, not_and_or, not_not, Bool.not_eq_true]
  · rename_i hnone
    have hlast : ¬Standing svc.unicode t := by
      rintro ⟨short, v, hv, hmarker⟩
      exact hnone ⟨v, List.mem_reverse.1 (List.mem_of_find?_eq_some hv), hmarker⟩
    rw [iff_false_left hnone]
    simp [hlast]

/-! ## A volume that is left behind -/

def markedTemplate (name marker : String) : Template :=
  { Instance.exampleTemplate with
    metadata := { Instance.exampleTemplate.metadata with volumes := [⟨name, marker, [], none⟩] } }

/-- One live instance that was applied with the volume `data`. -/
def markedFleet (name marker : String) : Fleet where
  instances host := .ok (if host = "engine-1" then [⟨"web", "shop"⟩] else [])
  templates id := if id = "web" then some (markedTemplate name marker) else none
  rows k := if k = ⟨"engine-1", "web", "shop"⟩ then
    some { Instance.exampleRow with appliedVolumes := some ["data"] } else none

/-- While the template declares it, the instance is shown and admitted. -/
theorem declared_volume_agrees : (∃ i ∈ listBackupInstances Instance.exampleService (markedFleet "data" "daily"),
      i.host = "engine-1" ∧ i.template = "web" ∧ i.slug = "shop") ↔
      ¬RejectsScope Instance.exampleService (markedFleet "data" "daily") ⟨"engine-1", "web", "shop"⟩ :=
  (listed_iff_admitted_iff Instance.exampleService (markedFleet "data" "daily") "engine-1" ⟨"web", "shop"⟩
    (markedTemplate "data" "daily") { Instance.exampleRow with appliedVolumes := some ["data"] } (by decide)
    (by decide) rfl rfl (by decide)).2 (by
      have hsome : ∃ v ∈ (markedTemplate "data" "daily").metadata.volumes,
          isBackupMarkerNone Instance.exampleService.unicode v.backup = false :=
        ⟨_, List.mem_cons_self, by decide +kernel⟩
      unfold Agrees
      rw [if_pos hsome]
      exact .inr (.inl ⟨"data", _, rfl, by decide +kernel⟩))

/-- Once the template declares a vetoed volume in its place, the instance is admitted and not shown. -/
theorem left_behind_not_shown : listBackupInstances Instance.exampleService (markedFleet "cache" "none") = [] ∧
      ¬RejectsScope Instance.exampleService (markedFleet "cache" "none") ⟨"engine-1", "web", "shop"⟩ := by
  refine ⟨by decide +kernel, ?_⟩
  rintro ⟨e, hrun, -⟩
  cases hrun

end PodmanApi.Backupctl
