/-
# PodmanApi.Instance.BackupScope — what a successful backup has captured.

Whether the run of one request does the work of another is a question about every success of that run. A scoped
run that succeeds has captured its scope and nothing else. An unscoped one has captured the volumes that exist
and are not vetoed, which need not be those that somebody asked for by name. A live run makes a live row, and
takes exactly one volume.
-/
import Mathlib.Data.Fintype.EquivFin
import PodmanApi.Instance.BackupSpec

namespace PodmanApi.Instance

open GoStd Calls
open Render (isBackupMarkerNone)

/-! ## The world of one run -/

/-- What a run finds: the template, the row of the instance, and the volumes that exist on its host. -/
structure Site where
  template : Template
  row : Spec
  present : String → Bool

/-- What a run has left: the mode of its row, and the volumes that the row names when it is complete. -/
structure Taken where
  live : Bool := false
  names : List String := []
  deriving DecidableEq, Repr

def Taken.after (w : Taken) : Event calls → Taken
  | ⟨.createBackup b, .ok _⟩ => { w with live := b.mode == "live" }
  | ⟨.completeBackup _ bvols, .ok true⟩ => { w with names := bvols.map (·.name) }
  | _ => w

namespace Site

variable (site : Site)

/-- The answers about what is there. Every call may fail, and every other answer is free. -/
def Admits : Event calls → Prop
  | ⟨.getTemplate _, r⟩ => ∀ t, r = .ok t → t = site.template
  | ⟨.getSpec _ _ _, r⟩ => ∀ row, r = .ok row → row = site.row
  | ⟨.volumeInspect _ name, r⟩ => (∀ v, r = .ok v → v.name = name ∧ site.present name = true) ∧
      ∀ e, r = .error e → e.is .podmanNotFound = true → site.present name = false
  | _ => True

def serves : Calls.Service calls Taken :=
  tracking Taken.after site.Admits

/-- The volumes of the instance that a request for the whole instance asks for: declared, not vetoed,
and there. -/
def Exports (u : Unicode) (tmpl slug short : String) : Prop :=
  (∃ d ∈ site.template.metadata.volumes, d.name = short) ∧
    vetoed u site.template site.row short = false ∧ site.present (volumeName tmpl slug short) = true

/-- The volumes that a request asks for: those it names or, without a scope, all there are. -/
def Asks (u : Unicode) (tmpl slug : String) (want : List String) (short : String) : Prop :=
  if want = [] then site.Exports u tmpl slug short else short ∈ want

end Site

/-- The run of a backup request is one that can succeed, and every success has captured what a request
for `want` in the given mode asks for. -/
def Fulfills (s : Service) (req : BackupRequest) (want : List String) (live : Bool) : Prop :=
  (∃ site t w, Exec (Site.serves site) {} (s.backup req).run t w (.ret (.ok ()))) ∧
    ∀ site t w, Exec (Site.serves site) {} (s.backup req).run t w (.ret (.ok ())) →
      w.live = live ∧ ∀ short, site.Asks s.unicode req.template req.slug want short →
        volumeName req.template req.slug short ∈ w.names

/-! ## Calls that leave nothing -/

/-- The calls that do not write the row of the backup. -/
def Unrecorded : Op → Prop
  | .createBackup _ | .completeBackup _ _ => False
  | _ => True

variable {tmpl slug host short name : String} {op : Op}

theorem Reading.unrecorded (h : Reading host tmpl slug op) : Unrecorded op := by
  cases h <;> trivial

theorem Starting.unrecorded (h : Starting host tmpl slug op) : Unrecorded op := by
  cases h with
  | waiting h => cases h <;> trivial
  | reading h => exact h.unrecorded
  | lock | podStart | unlock => trivial

theorem Stopping.unrecorded (h : Stopping host tmpl slug op) : Unrecorded op := by
  cases h <;> trivial

section Runs

variable {s : Service} {site : Site} {req : BackupRequest} {w : Taken}

theorem Unrecorded.after (h : Unrecorded op) (r : op.Ans) : w.after ⟨op, r⟩ = w := by
  cases op
  case createBackup => cases h
  case completeBackup => cases h
  all_goals rfl

variable {metas : GoMap VolMeta} {vols done : List HostVolume} {bvols : List BackupVolume} {v : HostVolume}
  {α : Type} {x : Task α}

theorem unrecorded_ensures {p : Prog calls α} (hp : p.Issues Unrecorded) :
    Ends site.serves (fun w' _ => w' = w) p w := by
  refine hp.ensures (fun w' op r w'' hop hw' hstep => ?_) (fun _ _ _ _ => trivial) rfl
  obtain ⟨-, rfl⟩ := hstep
  rw [hop.after, hw']

theorem unrecorded_onOk (hx : x.run.Issues Unrecorded) : Ends site.serves (OnOk fun w' _ => w' = w) x.run w :=
  (unrecorded_ensures hx).imp fun _ _ h _ _ => h

theorem Ensures.unrecorded {P : α → Prop} (hx : x.run.Issues Unrecorded)
    (h : Ends site.serves (OnOk fun _ a => P a) x.run w) :
    Ends site.serves (OnOk fun w' a => w' = w ∧ P a) x.run w :=
  ((unrecorded_ensures hx).and h).imp fun _ _ hr a ha => ⟨hr.1, hr.2 a ha⟩

theorem orAfter_ensures {P : Taken → α → Prop} {compensation : Task Unit} (hc : compensation.run.Issues Unrecorded)
    (hx : Ends site.serves (OnOk P) x.run w) : Ends site.serves (OnOk P) (orAfter compensation x).run w := by
  refine hx.attemptThen fun w' r hr => ?_
  cases r with
  | ok a => exact ensures_pure_onOk (onOk_ok.1 hr)
  | error e => exact (unrecorded_onOk hc).thenOk fun _ _ _ => ensures_throw_onOk

theorem abandon_unrecorded : (abandonBackup req).run.Issues Unrecorded :=
  abandonBackup_issues trivial fun _ => trivial

theorem restart_unrecorded {wasRunning : Bool} : (s.restartAfter req wasRunning).run.Issues Unrecorded :=
  restartAfter_issues fun _ h => h.unrecorded

/-! ## What admission returns -/

theorem lookup_site : Ends site.serves (OnOk fun _ t => t = site.template) (s.lookup host tmpl).run w :=
  ensures_lookup_onOk trivial fun _ t _ hr => hr.1 t rfl

theorem getSpec_site {f : Error → Error} : Ends site.serves (OnOk fun _ row => row = site.row)
      (Act.mapErr f (Act.lift (issue (.getSpec host tmpl slug)))).run w := by
  refine .mapErr_onOk (ensures_issue (Op.getSpec host tmpl slug) trivial fun r _ hr => ?_)
  exact fun row hrow => hr.1 row hrow

/-- A listing of volumes that are there, with every one of the given declarations that is. -/
def Site.Lists (site : Site) (tmpl slug : String) (decls : List Volume) (vols : List HostVolume) : Prop :=
  (∀ v ∈ vols, site.present v.name = true) ∧
    ∀ d ∈ decls, site.present (volumeName tmpl slug d.name) = true →
      ∃ v ∈ vols, v.name = volumeName tmpl slug d.name

theorem listVolume_lists {decls : List Volume} {out : List HostVolume}
    {d : Volume} (h : site.Lists tmpl slug decls out) : Ends site.serves
      (OnOk fun _ vols => site.Lists tmpl slug (decls ++ [d]) vols) (listVolume host tmpl slug out d).run w := by
  refine ensures_ask_bind trivial fun r _ hr => ?_
  obtain ⟨⟨hfound, hgone⟩, -⟩ := hr
  cases r with
  | ok v =>
    obtain ⟨hname, hpresent⟩ := hfound v rfl
    refine ensures_pure_onOk ⟨?_, ?_⟩
    · rw [← hname] at hpresent
      exact List.forall_mem_append.2 ⟨h.1, by simpa using hpresent⟩
    · refine List.forall_mem_append.2 ⟨fun d' hd' hp => ?_, fun d' hd' _ => ?_⟩
      · obtain ⟨v', hv', hv'name⟩ := h.2 d' hd' hp
        exact ⟨v', List.mem_append_left _ hv', hv'name⟩
      · obtain rfl := List.mem_singleton.1 hd'
        exact ⟨v, by simp, hname⟩
  | error e =>
    dsimp only
    split
    · rename_i hnotFound
      refine ensures_pure_onOk ⟨h.1, List.forall_mem_append.2 ⟨h.2, fun d' hd' hp => ?_⟩⟩
      obtain rfl := List.mem_singleton.1 hd'
      rw [hgone e rfl hnotFound] at hp
      cases hp
    · exact ensures_throw_onOk

theorem instanceVolumes_site {f : Error → Error} : Ends site.serves
      (OnOk fun _ vols => site.Lists tmpl slug site.template.metadata.volumes vols)
      (Act.mapErr f (s.instanceVolumes host tmpl slug)).run w := by
  refine .mapErr_onOk ?_
  refine lookup_site.thenOk fun _ t ht => ?_
  subst ht
  refine ensures_foldlM (fun done vols _ => site.Lists tmpl slug done vols) _
    (fun done d rest _ vols _ h => (listVolume_lists h).imp fun _ r hr => ⟨hr, fun e _ => onOk_error e⟩)
    (fun vols _ h => onOk_ok.2 h) ⟨by simp, by simp⟩

/-- What admission hands to the export loop: volumes that are there and, for a request without a scope, all that
such a request asks for, without a veto. -/
structure Admitted (s : Service) (site : Site) (req : BackupRequest) (vols : List HostVolume)
    (metas : GoMap VolMeta) : Prop where
  present : ∀ v ∈ vols, site.present v.name = true
  exports : req.volumes = [] → ∀ short, site.Exports s.unicode req.template req.slug short →
    ∃ v ∈ vols, v.name = volumeName req.template req.slug short ∧
      isBackupMarkerNone s.unicode ((GoMap.get? metas v.name).getD ⟨"", []⟩).marker = false

theorem lastDeclared_of_mem {vols : List Volume} {d : Volume} (hd : d ∈ vols) :
    ∃ last, lastDeclared vols d.name = some last :=
  Option.isSome_iff_exists.1
    (List.find?_isSome.2 ⟨d, List.mem_reverse.2 hd, beq_self_eq_true _⟩)

theorem not_exports_of_undeclared {u : Unicode}
    (h : (declaredMarkers site.template.metadata.volumes).isEmpty = true) : ¬site.Exports u tmpl slug short := by
  rintro ⟨⟨d, hd, rfl⟩, -⟩
  obtain ⟨last, hlast⟩ := lastDeclared_of_mem hd
  rw [List.isEmpty_iff] at h
  have hnone : lastDeclared site.template.metadata.volumes d.name = none :=
    has_declaredMarkers (by rw [h]; exact List.not_mem_nil)
  rw [hlast] at hnone
  cases hnone

theorem Declaring.unvetoed (h : Declaring req site.template metas)
    (hshort : site.Exports s.unicode req.template req.slug short) : isBackupMarkerNone s.unicode
      ((GoMap.get? metas (volumeName req.template req.slug short)).getD ⟨"", []⟩).marker = false := by
  obtain ⟨⟨d, hd, rfl⟩, hveto, -⟩ := hshort
  obtain ⟨last, hlast⟩ := lastDeclared_of_mem hd
  unfold vetoed effectiveMarker at hveto
  simp only [hlast, Option.any_some] at hveto
  rw [h d.name last hlast]
  exact hveto

theorem Declaring.admitted {more : List HostVolume} (h : Declaring req site.template metas)
    (hvols : site.Lists req.template req.slug site.template.metadata.volumes vols)
    (hmore : ∀ v ∈ more, site.present v.name = true) : Admitted s site req (vols ++ more) metas := by
  refine ⟨List.forall_mem_append.2 ⟨hvols.1, hmore⟩, fun _ short hshort => ?_⟩
  have hmarker := h.unvetoed hshort
  obtain ⟨⟨d, hd, rfl⟩, -, hpresent⟩ := hshort
  obtain ⟨v, hv, hname⟩ := hvols.2 d hd hpresent
  exact ⟨v, List.mem_append_left _ hv, hname, by rw [hname]; exact hmarker⟩

theorem admitted_nil (h : req.volumes = [] → ∀ short, ¬site.Exports s.unicode req.template req.slug short) :
    Admitted s site req [] metas :=
  ⟨by simp, fun hscope short hshort => absurd hshort (h hscope short)⟩

theorem classifyApplied_present {appliedMeta : GoMap AppliedVolumeMarker}
    {present current : List String} {acc : AppliedLoss}
    (h : ∀ v ∈ acc.recovered, site.present v.name = true) : Ends site.serves
      (OnOk fun _ acc => ∀ v ∈ acc.recovered, site.present v.name = true)
      (classifyApplied host tmpl slug appliedMeta present current acc short).run w := by
  unfold classifyApplied
  dsimp only
  split
  · exact ensures_pure_onOk h
  split
  · exact ensures_pure_onOk h
  refine ensures_ask_bind trivial fun r _ hr => ?_
  cases r with
  | ok v =>
    obtain ⟨hname, hpresent⟩ := hr.1.1 v rfl
    rw [← hname] at hpresent
    exact ensures_pure_onOk (List.forall_mem_append.2 ⟨h, by simpa using hpresent⟩)
  | error e => exact ensures_pure_or_throw_onOk fun _ => h

theorem classifyVolumes_admitted : Ends site.serves (OnOk fun _ c => Admitted s site req c.vols c.metas)
    (s.classifyVolumes req.host req.template req.slug (declaredMarkers site.template.metadata.volumes)
      (declaredMeta req.template req.slug site.template.metadata.volumes) site.row).run w := by
  refine instanceVolumes_site.thenOk fun _ vols hvols => ?_
  cases happlied : site.row.appliedVolumes with
  | none =>
    refine ensures_pure_onOk ?_
    have hnone := declaring_declaredMeta.admitted (s := s) hvols (List.forall_mem_nil _)
    rwa [List.append_nil] at hnone
  | some applied =>
    refine .thenOk (ensures_foldlM_onOk
      (fun _ (acc : AppliedLoss) => ∀ v ∈ acc.recovered, site.present v.name = true) applied
      (fun short _ _ acc hacc => classifyApplied_present hacc) (List.forall_mem_nil _)) fun _ loss hloss => ?_
    exact ensures_pure_onOk ((declaring_declaredMeta.merge _).admitted hvols hloss)

theorem checkMaterialized_admitted : Ends site.serves (OnOk fun _ out => Admitted s site req out.1 out.2)
    (s.checkMaterialized req.host req.template req.slug (declaredMarkers site.template.metadata.volumes)
      (declaredMeta req.template req.slug site.template.metadata.volumes) site.row).run w := by
  refine classifyVolumes_admitted.thenOk fun _ c hc => ?_
  refine (unrecorded_onOk (refuseTotalLoss_issues trivial)).thenOk fun _ _ _ => ?_
  split
  · rename_i hempty
    refine ensures_require_thenOk fun _ => ?_
    exact ensures_pure_onOk (admitted_nil fun _ short => not_exports_of_undeclared hempty)
  · exact ensures_require_thenOk fun _ => ensures_pure_onOk hc

/-- **Admission** returns what the export loop needs. -/
theorem checkBackupable_admitted : Ends site.serves (OnOk fun _ out => Admitted s site req out.1 out.2)
    (s.checkBackupable req.host req.template req.slug req.volumes false).run w := by
  refine ensures_require_thenOk fun _ => ?_
  refine lookup_site.thenOk fun _ t ht => ?_
  subst ht
  refine getSpec_site.thenOk fun _ row hrow => ?_
  subst hrow
  dsimp only
  split
  · unfold Service.checkUnscoped
    split
    · rename_i hempty
      rw [Bool.and_eq_true] at hempty
      exact ensures_pure_onOk (admitted_nil fun _ short => not_exports_of_undeclared hempty.1)
    · refine ensures_require_thenOk fun _ => ?_
      exact checkMaterialized_admitted
  · rename_i hscope
    refine (unrecorded_onOk (issues_forM req.volumes fun name _ => checkScopeName_issues)).thenOk
      fun _ _ _ => ?_
    refine instanceVolumes_site.thenOk fun _ vols hvols => ?_
    refine ensures_require_thenOk fun _ => ?_
    exact ensures_pure_onOk ⟨hvols.1, fun hnil => absurd (List.isEmpty_iff.2 hnil) hscope⟩

/-! ## What a success has captured -/

/-- What a successful run of a request has captured. -/
structure Grabs (s : Service) (site : Site) (req : BackupRequest) (w : Taken) : Prop where
  live : w.live = (req.mode == "live")
  present : req.volumes = [] → ∀ name ∈ w.names, site.present name = true
  scope : req.volumes ≠ [] → ∀ name ∈ w.names, ∃ short ∈ req.volumes,
    name = volumeName req.template req.slug short
  asked : ∀ short ∈ req.volumes, volumeName req.template req.slug short ∈ w.names
  exports : req.volumes = [] → ∀ short, site.Exports s.unicode req.template req.slug short →
    volumeName req.template req.slug short ∈ w.names

theorem backupVolumeFromReader_name {content : Bytes} {patterns : List String} :
    Ends site.serves (OnOk fun w' (bv : BackupVolume) => w' = w ∧ bv.name = name)
      (s.backupVolumeFromReader req name content patterns).run w := by
  refine Ensures.unrecorded (backupVolumeFromReader_issues trivial (fun _ => trivial) trivial trivial
    fun _ => trivial) ?_
  refine ensures_skip_onOk fun _ _ => ensures_skip_onOk fun out _ => ?_
  refine ensures_skip_onOk fun _ _ => ensures_skip_onOk fun raw _ => ?_
  exact ensures_skip_onOk fun _ _ => ensures_pure_onOk rfl

/-- What the export loop has done with the volumes it has seen. -/
structure Exported (s : Service) (req : BackupRequest) (metas : GoMap VolMeta) (vols done : List HostVolume)
    (bvols : List BackupVolume) : Prop where
  listed : ∀ b ∈ bvols, ∃ v ∈ vols, b.name = v.name
  scope : req.volumes ≠ [] → ∀ b ∈ bvols, ∃ short ∈ req.volumes,
    b.name = volumeName req.template req.slug short
  kept : req.volumes = [] → ∀ v ∈ done,
    isBackupMarkerNone s.unicode ((GoMap.get? metas v.name).getD ⟨"", []⟩).marker = false →
      ∃ b ∈ bvols, b.name = v.name

theorem Exported.skip (h : Exported s req metas vols done bvols) (hv : req.volumes = [] →
      isBackupMarkerNone s.unicode ((GoMap.get? metas v.name).getD ⟨"", []⟩).marker = true) :
    Exported s req metas vols (done ++ [v]) bvols := by
  refine ⟨h.listed, h.scope, fun hscope => ?_⟩
  refine List.forall_mem_append.2 ⟨h.kept hscope, fun v' hv' hmarker => ?_⟩
  obtain rfl := List.mem_singleton.1 hv'
  rw [hv hscope] at hmarker
  cases hmarker

theorem Exported.add (h : Exported s req metas vols done bvols) (hv : v ∈ vols) {b : BackupVolume}
    (hb : b.name = v.name)
    (hscope : req.volumes ≠ [] → ∃ short ∈ req.volumes, v.name = volumeName req.template req.slug short) :
    Exported s req metas vols (done ++ [v]) (bvols ++ [b]) := by
  refine ⟨?_, fun hne => ?_, fun hnil => ?_⟩
  · exact List.forall_mem_append.2 ⟨h.listed, by simpa using ⟨v, hv, hb⟩⟩
  · refine List.forall_mem_append.2 ⟨h.scope hne, fun b' hb' => ?_⟩
    rw [List.mem_singleton.1 hb', hb]
    exact hscope hne
  · refine List.forall_mem_append.2 ⟨fun v' hv' hmarker => ?_, fun v' hv' _ => ?_⟩
    · obtain ⟨b', hb', hname⟩ := h.kept hnil v' hv' hmarker
      exact ⟨b', List.mem_append_left _ hb', hname⟩
    · rw [List.mem_singleton.1 hv']
      exact ⟨b, by simp, hb⟩

theorem exportVolume_exported (h : Exported s req metas vols done bvols) (hv : v ∈ vols) : Ends site.serves
      (OnOk fun w' bvols => w' = w ∧ Exported s req metas vols (done ++ [v]) bvols)
      (s.exportVolume req metas bvols v).run w := by
  unfold Service.exportVolume
  dsimp only
  split
  · rename_i hmarker
    exact ensures_pure_onOk ⟨rfl, h.skip fun _ => hmarker⟩
  split
  · rename_i hout
    refine ensures_pure_onOk ⟨rfl, h.skip fun hnil => ?_⟩
    rw [hnil] at hout
    cases hout
  rename_i hin
  have hscope : req.volumes ≠ [] → ∃ short ∈ req.volumes, v.name = volumeName req.template req.slug short := by
    intro hne
    by_contra hnone
    apply hin
    simp only [Bool.and_eq_true, Bool.not_eq_true', List.isEmpty_eq_false_iff, List.contains_eq_mem,
      decide_eq_false_iff_not, List.mem_map, not_exists, not_and]
    refine ⟨by simpa using hne, fun short hshort hname => ?_⟩
    exact hnone ⟨short, hshort, hname.symm⟩
  have hvolume : Ends site.serves (OnOk fun w' (bv : BackupVolume) => w' = w ∧ bv.name = v.name)
      (s.backupVolume req v.name ((GoMap.get? metas v.name).getD ⟨"", []⟩).exclude).run w := by
    refine (unrecorded_onOk (.mapErr (issues_perform.2 trivial))).thenOk fun w' _ hw' => ?_
    subst hw'
    exact backupVolumeFromReader_name
  refine hvolume.mapErr_onOk.thenOk fun w' bv hbv => ?_
  obtain ⟨rfl, hname⟩ := hbv
  exact ensures_pure_onOk ⟨rfl, h.add hv hname hscope⟩

theorem completeBackup_names : Ends site.serves
    (OnOk fun w' _ => w' = { w with names := bvols.map (·.name) }) (completeBackup req bvols).run w := by
  refine .thenOk (P := fun w' done => done = true → w' = { w with names := bvols.map (·.name) })
    (.mapErr_onOk (ensures_issue (Op.completeBackup req.backupID bvols) trivial
      fun r w' hr done hdone hd => ?_)) fun w' done hdone => ensures_require_onOk hdone
  obtain ⟨-, rfl⟩ := hr
  rw [hdone, hd]
  rfl

/-- **The exports**: the row names what the request asks for. -/
theorem captureVolumes_grabs (hadm : Admitted s site req vols metas) (hmode : (req.mode == "live") = false)
    (hw : w.live = false) : Ends site.serves
      (OnOk fun w' _ => Grabs s site req w') (s.captureVolumes req vols metas).run w := by
  refine .thenOk (P := fun w' bvols => w' = w ∧ Exported s req metas vols vols bvols)
    (ensures_foldlM (fun done bvols w' => w' = w ∧ Exported s req metas vols done bvols) vols
      (fun done v rest hsplit bvols w' h => ?_) (fun bvols w' h => onOk_ok.2 h)
      ⟨rfl, by simp, fun _ => by simp, fun _ => by simp⟩) fun w' bvols hbvols => ?_
  · obtain ⟨rfl, hdone⟩ := h
    refine (exportVolume_exported hdone (by simp [hsplit])).imp fun _ r hr => ?_
    exact ⟨hr, fun e _ => onOk_error e⟩
  obtain ⟨rfl, hexp⟩ := hbvols
  refine .thenOk (P := fun w'' _ => w'' = w' ∧ ∀ short ∈ req.volumes,
    volumeName req.template req.slug short ∈ bvols.map (·.name))
    (ensures_require_onOk fun hmissing => ⟨rfl, fun short hshort => ?_⟩) fun w'' _ h => ?_
  · have hnone := List.filter_eq_nil_iff.1 (List.isEmpty_iff.1 hmissing) short hshort
    simpa using hnone
  obtain ⟨rfl, hasked⟩ := h
  refine completeBackup_names.imp fun _ _ hnames a ha => ?_
  rw [hnames a ha]
  refine ⟨by simp [hw, hmode], fun hnil => ?_, fun hne => ?_, hasked, fun hnil short hshort => ?_⟩
  · refine List.forall_mem_map.2 fun b hb => ?_
    obtain ⟨v, hv, hname⟩ := hexp.listed b hb
    rw [hname]
    exact hadm.present v hv
  · exact List.forall_mem_map.2 (hexp.scope hne)
  · obtain ⟨v, hv, hname, hmarker⟩ := hadm.exports hnil short hshort
    obtain ⟨b, hb, hbname⟩ := hexp.kept hnil v hv hmarker
    exact List.mem_map.2 ⟨b, hb, hbname.trans hname⟩

theorem snapshotBackup_grabs (hmode : (req.mode == "live") = false) :
    Ends site.serves (OnOk fun w' _ => Grabs s site req w') (s.snapshotBackup req).run w := by
  refine checkBackupable_admitted.thenOk fun _ out hadm => ?_
  refine (unrecorded_onOk (get_issues.mono fun op h => h.unrecorded)).thenOk fun _ obs _ => ?_
  refine .thenOk (P := fun w' _ => w'.live = false) (.mapErr_onOk
    (ensures_issue (Op.createBackup _) trivial fun r w' hr a ha => ?_)) fun _ _ hlive => ?_
  · obtain ⟨-, rfl⟩ := hr
    rw [ha]
    rfl
  refine (orAfter_ensures abandon_unrecorded
    (unrecorded_onOk (runPreBackup_issues trivial trivial fun _ _ => trivial))).thenOk fun _ _ h => ?_
  subst h
  refine (orAfter_ensures abandon_unrecorded
    (unrecorded_onOk (stop_issues.mono fun op h => h.unrecorded).mapErr)).thenOk fun _ _ h => ?_
  subst h
  refine (orAfter_ensures (restart_unrecorded.andThen fun _ => abandon_unrecorded)
    (captureVolumes_grabs hadm hmode hlive)).thenOk fun w' _ hgrabs => ?_
  refine (unrecorded_onOk restart_unrecorded).imp fun _ _ h a ha => ?_
  rw [h a ha]
  exact hgrabs

theorem liveBackupLocked_grabs (hmode : (req.mode == "live") = true)
    (hscope : req.volumes = [short]) : Ends site.serves
      (OnOk fun w' _ => Grabs s site req w') (s.liveBackupLocked req short).run w := by
  refine ensures_skip_onOk fun _ _ => ensures_skip_onOk fun t _ => ensures_skip_onOk fun row _ => ?_
  split
  · exact ensures_throw_onOk
  refine .thenOk (P := fun w' _ => w'.live = true) (.mapErr_onOk
    (ensures_issue (Op.createBackup _) trivial fun r w' hr a ha => ?_)) fun _ _ hlive => ?_
  · obtain ⟨-, rfl⟩ := hr
    rw [ha]
    rfl
  refine (orAfter_ensures abandon_unrecorded (unrecorded_onOk (liveDump_issues fun _ _ => trivial))).thenOk fun _ _ h => ?_
  subst h
  refine orAfter_ensures abandon_unrecorded ?_
  refine (unrecorded_onOk (.mapErr (issues_perform.2 trivial))).thenOk fun _ content h => ?_
  subst h
  refine backupVolumeFromReader_name.mapErr_onOk.thenOk fun w' bv hbv => ?_
  obtain ⟨rfl, hname⟩ := hbv
  refine completeBackup_names.imp fun _ _ hnames a ha => ?_
  rw [hnames a ha]
  constructor
  · simp [hlive, hmode]
  · simp [hscope]
  · simp [hscope, hname]
  · simp [hscope, hname]
  · simp [hscope]

theorem ensures_lock_site {m : Mutex} {p : Prog calls (Except Error Unit)} {P : Taken → Prop}
    (h : Ends site.serves (OnOk fun w' _ => P w') p w) :
    Ends site.serves (OnOk fun w' _ => P w') (locked m p) w := by
  refine ensures_lock trivial fun y hy => ?_
  obtain ⟨-, rfl⟩ := hy
  refine h.imp fun z r hz => ⟨trivial, fun u hu => ?_⟩
  obtain ⟨-, rfl⟩ := hu
  exact hz

/-- **Every success** has captured what its request says. -/
theorem backup_grabs : Ends site.serves (OnOk fun w' _ => Grabs s site req w') (s.backup req).run w := by
  unfold Service.backup
  split
  · rename_i hlive
    unfold Service.liveBackup
    split
    · rename_i short hscope
      exact ensures_lock_site (liveBackupLocked_grabs hlive hscope)
    · exact ensures_throw_onOk
  · rename_i hsnapshot
    exact ensures_lock_site (snapshotBackup_grabs (by simpa using hsnapshot))

theorem live_scope (hlive : (req.mode == "live") = true) : Ends site.serves
    (OnOk fun _ _ => req.volumes.length = 1) (s.backup req).run w := by
  unfold Service.backup
  rw [if_pos hlive]
  unfold Service.liveBackup
  split
  · rename_i short hscope
    rw [hscope]
    exact (ensures_any _).imp fun _ _ _ _ _ => rfl
  · exact ensures_throw_onOk

end Runs

/-! ## Runs that succeed -/

def Codec.Reads (c : Codec) (content : Bytes) : Prop :=
  ∃ m raw, c.buildManifest content = .ok m ∧ c.marshal m = .ok raw

def plainVolume (name : String) : Volume :=
  ⟨name, "", [], some ⟨"app", [], [], [], "/data", [], [], [], "/stage"⟩⟩

def plainSite (tmpl slug : String) (names : List String) : Site where
  template := ⟨⟨tmpl, [], [], [], names.map plainVolume, none, [], none, some []⟩, "kind: Pod"⟩
  row := { exampleRow with appliedVolumes := none }
  present full := decide (full ∈ names.map (volumeName tmpl slug))

/-- The answers of that site when every call works. -/
def Site.yields (site : Site) (content : Bytes) : (op : Op) → op.Ans
  | .getTemplate _ => .ok site.template
  | .getSpec _ _ _ => .ok site.row
  | .volumeInspect _ name =>
    if site.present name then .ok ⟨name, 0⟩ else .error (.sentinel .podmanNotFound)
  | .volumeExport _ _ | .containerCopyOut _ _ _ => .ok content
  | op => op.plain

theorem Site.admits_yields (site : Site) (content : Bytes) (op : Op) :
    site.Admits ⟨op, site.yields content op⟩ := by
  cases op
  case getTemplate => exact fun _ h => (Except.ok.inj h).symm
  case getSpec => exact fun _ h => (Except.ok.inj h).symm
  case volumeInspect host name =>
    show (∀ v, (if site.present name = true then _ else _) = _ → _) ∧
      ∀ e, (if site.present name = true then _ else _) = _ → _
    cases hpresent : site.present name with
    | true => exact ⟨fun v hv => ⟨by rw [← Except.ok.inj hv], rfl⟩, nofun⟩
    | false => exact ⟨nofun, fun _ _ _ => rfl⟩
  all_goals trivial

section Succeeds

variable {s : Service} {site : Site} {req : BackupRequest} {names : List String} {content : Bytes}

theorem find?_plainVolume {vols : List Volume}
    (hvols : ∀ v ∈ vols, v ∈ names.map plainVolume) (h : plainVolume short ∈ vols) :
    vols.find? (·.name == short) = some (plainVolume short) := by
  have hsome : (vols.find? (·.name == short)).isSome = true :=
    List.find?_isSome.2 ⟨plainVolume short, h, beq_self_eq_true _⟩
  obtain ⟨v, hv⟩ := Option.isSome_iff_exists.1 hsome
  obtain ⟨name, -, rfl⟩ := List.mem_map.1 (hvols v (List.mem_of_find?_eq_some hv))
  have hname : (plainVolume name).name == short :=
    List.find?_some (p := fun v : Volume => v.name == short) hv
  obtain rfl : name = short := beq_iff_eq.1 hname
  exact hv

theorem lastDeclared_plainVolume (h : short ∈ names) :
    lastDeclared (names.map plainVolume) short = some (plainVolume short) :=
  find?_plainVolume (fun _ hv => List.mem_reverse.1 hv) (List.mem_reverse.2 (List.mem_map_of_mem h))

def plainListing (tmpl slug : String) (names : List String) : List HostVolume :=
  names.map fun name => ⟨volumeName tmpl slug name, 0⟩

theorem inspect_yields (h : name ∈ names) :
    (plainSite tmpl slug names).yields content (.volumeInspect host (volumeName tmpl slug name)) =
      .ok ⟨volumeName tmpl slug name, 0⟩ :=
  if_pos (decide_eq_true (List.mem_map_of_mem h))

theorem foldl_listing (out : List HostVolume) :
    (names.map plainVolume).foldl (fun out v => out ++ [⟨volumeName tmpl slug v.name, 0⟩]) out =
      out ++ plainListing tmpl slug names := by
  induction names generalizing out with
  | nil => simp [plainListing]
  | cons name names ih =>
    rw [List.map_cons, List.foldl_cons, ih, List.append_assoc]
    rfl

theorem instanceVolumes_yields (hhost : (s.host host).isSome = true) :
    (s.instanceVolumes host tmpl slug).run.given ((plainSite tmpl slug names).yields content) =
      .ok (plainListing tmpl slug names) := by
  refine Act.given_bind_ok.2 ⟨_, given_lookup hhost rfl, ?_⟩
  rw [Act.given_foldlM_ok (f := fun out v => out ++ [⟨volumeName tmpl slug v.name, 0⟩]), plainSite]
  · rw [foldl_listing, List.nil_append]
  · intro v hv out
    obtain ⟨name, hname, rfl⟩ := List.mem_map.1 hv
    exact Act.given_bind_ok.2 ⟨_, (Act.given_ask _).trans (congrArg _ (inspect_yields hname)), rfl⟩

theorem checkBackupable_yields (hblobs : s.blobs = true) (hhost : (s.host req.host).isSome = true)
    (hscope : ∀ short ∈ req.volumes, short ∈ names) (hnil : req.volumes = [] → names = []) :
    (s.checkBackupable req.host req.template req.slug req.volumes false).run.given
        ((plainSite req.template req.slug names).yields content) = .ok (plainListing req.template req.slug names,
        declaredMeta req.template req.slug (names.map plainVolume)) := by
  refine Act.given_bind_ok.2 ⟨(), Act.given_require_ok.2 hblobs, ?_⟩
  refine Act.given_bind_ok.2 ⟨_, given_lookup hhost rfl, ?_⟩
  refine Act.given_bind_ok.2 ⟨(plainSite req.template req.slug names).row, rfl, ?_⟩
  split
  · rename_i hempty
    rw [hnil (List.isEmpty_iff.1 hempty)]
    rfl
  · refine Act.given_bind_ok.2 ⟨⟨⟩, (Act.given_forM_ok _).2 fun short hshort => ?_, ?_⟩
    · have hmarker : GoMap.get? (declaredMarkers (plainSite req.template req.slug
          names).template.metadata.volumes) short = some "" := by
        unfold declaredMarkers
        rw [GoMap.get?_fill Volume.name]
        exact congrArg (Option.map (·.backup)) (lastDeclared_plainVolume (hscope short hshort))
      unfold checkScopeName
      rw [hmarker]
      rfl
    · refine Act.given_bind_ok.2 ⟨plainListing req.template req.slug names, ?_, ?_⟩
      · rw [Act.given_mapErr, instanceVolumes_yields hhost]
        rfl
      · refine Act.given_bind_ok.2 ⟨(), Act.given_require_ok.2 ?_, rfl⟩
        rw [List.isEmpty_iff, List.filter_eq_nil_iff]
        intro short hshort
        have hmem : volumeName req.template req.slug short ∈
            (plainListing req.template req.slug names).map (·.name) :=
          List.mem_map.2 ⟨⟨volumeName req.template req.slug short, 0⟩,
            List.mem_map_of_mem (hscope short hshort), rfl⟩
        simpa using hmem

def plainEntry (s : Service) (content raw : Bytes) (name : String) : BackupVolume :=
  ⟨name, content.length, [], s.codec.sha256 raw, none⟩

theorem backupVolumeFromReader_yields {m : Manifest} {raw : Bytes}
    (hm : s.codec.buildManifest content = .ok m) (hraw : s.codec.marshal m = .ok raw) :
    (s.backupVolumeFromReader req name content []).run.given (site.yields content) =
      .ok (plainEntry s content raw name) := by
  have hread : s.readTar content [] = .ok (content, m, none) := by
    show (s.codec.buildManifest content).map _ = _
    rw [hm]
    rfl
  refine Act.given_bind_ok.2 ⟨(), rfl, Act.given_bind_ok.2 ⟨(content, m, none), ?_, ?_⟩⟩
  · unfold Service.copyTar
    rw [hread]
    rfl
  refine Act.given_bind_ok.2 ⟨(), rfl, Act.given_bind_ok.2 ⟨raw, ?_, ?_⟩⟩
  · rw [hraw]
    rfl
  · exact Act.given_bind_ok.2 ⟨(), rfl, rfl⟩

theorem foldl_keep {p : HostVolume → Bool} {f : HostVolume → BackupVolume} (vols : List HostVolume)
    (out : List BackupVolume) : vols.foldl (fun out v => if p v then out else out ++ [f v]) out =
      out ++ (vols.filter fun v => !p v).map f := by
  induction vols generalizing out with
  | nil => simp
  | cons v vols ih =>
    rw [List.foldl_cons, ih]
    cases hv : p v <;> simp [hv]

theorem exportVolume_yields {m : Manifest} {raw : Bytes} {out : List BackupVolume}
    (hm : s.codec.buildManifest content = .ok m) (hraw : s.codec.marshal m = .ok raw) (hname : name ∈ names) :
    (s.exportVolume req (declaredMeta req.template req.slug (names.map plainVolume)) out
        ⟨volumeName req.template req.slug name, 0⟩).run.given (site.yields content) =
      .ok (if !(req.volumes.map (volumeName req.template req.slug)).isEmpty &&
        !(req.volumes.map (volumeName req.template req.slug)).contains
          (volumeName req.template req.slug name) then out
        else out ++ [plainEntry s content raw (volumeName req.template req.slug name)]) := by
  have hmeta : GoMap.get? (declaredMeta req.template req.slug (names.map plainVolume))
      (volumeName req.template req.slug name) = some ⟨"", []⟩ := by
    rw [get?_declaredMeta]
    exact congrArg (Option.map _) (lastDeclared_plainVolume hname)
  unfold Service.exportVolume
  rw [hmeta]
  rw [if_neg (by exact Bool.false_ne_true)]
  split
  · rfl
  · refine Act.given_bind_ok.2 ⟨_, ?_, rfl⟩
    unfold Service.backupVolume
    rw [Act.given_mapErr, Act.given_bind_ok.2 ⟨content, rfl, backupVolumeFromReader_yields hm hraw⟩]
    rfl

theorem captureVolumes_yields (hcodec : s.codec.Reads content) (hscope : ∀ short ∈ req.volumes, short ∈ names) :
    (s.captureVolumes req (plainListing req.template req.slug names)
      (declaredMeta req.template req.slug (names.map plainVolume))).run.given (site.yields content) = .ok () := by
  obtain ⟨m, raw, hm, hraw⟩ := hcodec
  refine Act.given_bind_ok.2 ⟨_, Act.given_foldlM_ok (f := fun out v =>
    if !(req.volumes.map (volumeName req.template req.slug)).isEmpty &&
      !(req.volumes.map (volumeName req.template req.slug)).contains v.name then out
    else out ++ [plainEntry s content raw v.name]) _ ?_, ?_⟩
  · intro v hv out
    obtain ⟨name, hname, rfl⟩ := List.mem_map.1 hv
    exact exportVolume_yields hm hraw hname
  refine Act.given_bind_ok.2 ⟨(), Act.given_require_ok.2 ?_, rfl⟩
  rw [foldl_keep, List.isEmpty_iff, List.filter_eq_nil_iff]
  intro short hshort
  have hmem : volumeName req.template req.slug short ∈
      req.volumes.map (volumeName req.template req.slug) := List.mem_map_of_mem hshort
  rw [Bool.not_eq_true, Bool.not_eq_false', List.contains_iff_mem, List.nil_append, List.map_map]
  refine List.mem_map.2 ⟨⟨volumeName req.template req.slug short, 0⟩, List.mem_filter.2 ⟨?_, ?_⟩, rfl⟩
  · exact List.mem_map_of_mem (hscope short hshort)
  · rw [List.contains_iff_mem.2 hmem]
    simp

theorem snapshotBackup_yields (hblobs : s.blobs = true) (hhost : (s.host req.host).isSome = true)
    (hcodec : s.codec.Reads content) (hscope : ∀ short ∈ req.volumes, short ∈ names)
    (hnil : req.volumes = [] → names = []) :
    (s.snapshotBackup req).run.given ((plainSite req.template req.slug names).yields content) = .ok () := by
  have hget : ∃ obs, (s.get req.host req.template req.slug).run.given
      ((plainSite req.template req.slug names).yields content) = .ok obs := by
    refine ⟨⟨"Running", [], (names.map plainVolume).foldl
      (fun out v => out ++ [⟨volumeName req.template req.slug v.name, 0⟩]) []⟩, ?_⟩
    refine Act.given_bind_ok.2 ⟨_, given_lookup hhost rfl, Act.given_bind_ok.2 ⟨_, rfl, ?_⟩⟩
    refine Act.given_bind_ok.2 ⟨_, Act.given_foldlM_ok
      (f := fun out v => out ++ [⟨volumeName req.template req.slug v.name, 0⟩]) _ ?_, rfl⟩
    intro v hv out
    obtain ⟨name, hname, rfl⟩ := List.mem_map.1 hv
    exact Act.given_bind_ok.2 ⟨_, (Act.given_ask _).trans (congrArg _ (inspect_yields hname)), rfl⟩
  have hrestart : ∀ running, (s.restartAfter req running).run.given
      ((plainSite req.template req.slug names).yields content) = .ok () := by
    intro running
    unfold Service.restartAfter
    split
    · exact Act.given_bind_ok.2 ⟨_, Act.given_attempt _, rfl⟩
    · rfl
  obtain ⟨obs, hobs⟩ := hget
  refine Act.given_bind_ok.2 ⟨_, checkBackupable_yields hblobs hhost hscope hnil, ?_⟩
  refine Act.given_bind_ok.2 ⟨obs, hobs, Act.given_bind_ok.2 ⟨(), rfl, ?_⟩⟩
  refine Act.given_bind_ok.2 ⟨(), orAfter_yields rfl, ?_⟩
  refine Act.given_bind_ok.2 ⟨(), orAfter_yields ?_, ?_⟩
  · have hstop : (s.stop req.host req.template req.slug).run.given
        ((plainSite req.template req.slug names).yields content) = .ok () := by
      refine Act.given_bind_ok.2 ⟨_, given_lookup hhost rfl, ?_⟩
      rfl
    rw [Act.given_mapErr, hstop]
    rfl
  · exact Act.given_bind_ok.2 ⟨(), orAfter_yields (captureVolumes_yields hcodec hscope), hrestart _⟩

theorem liveBackupLocked_yields (hblobs : s.blobs = true)
    (hhost : (s.host req.host).isSome = true) (hcodec : s.codec.Reads content) (hshort : short ∈ names) :
    (s.liveBackupLocked req short).run.given ((plainSite req.template req.slug names).yields content) = .ok () := by
  obtain ⟨m, raw, hm, hraw⟩ := hcodec
  have hfind : (names.map plainVolume).find? (·.name == short) = some (plainVolume short) :=
    find?_plainVolume (fun _ hv => hv) (List.mem_map_of_mem hshort)
  refine Act.given_bind_ok.2 ⟨(), Act.given_require_ok.2 hblobs, ?_⟩
  refine Act.given_bind_ok.2 ⟨_, given_lookup hhost rfl, ?_⟩
  refine Act.given_bind_ok.2 ⟨(plainSite req.template req.slug names).row, rfl, ?_⟩
  rw [show (plainSite req.template req.slug names).template.metadata.volumes = names.map plainVolume
    from rfl, hfind]
  show (s.liveCapture req short _ _).run.given _ = _
  refine Act.given_bind_ok.2 ⟨(), rfl, Act.given_bind_ok.2 ⟨(), orAfter_yields rfl, orAfter_yields ?_⟩⟩
  refine Act.given_bind_ok.2 ⟨content, rfl, Act.given_bind_ok.2
    ⟨plainEntry s content raw (volumeName req.template req.slug short), ?_, rfl⟩⟩
  rw [Act.given_mapErr, backupVolumeFromReader_yields hm hraw]
  rfl

/-- The requests that can succeed: a live one names one volume. -/
def BackupRequest.Sound (req : BackupRequest) : Prop :=
  (req.mode == "live") = true → req.volumes.length = 1

/-- **A success** on a plain site that has the volumes of the scope. -/
theorem backup_succeeds (hblobs : s.blobs = true) (hhost : (s.host req.host).isSome = true)
    (hcodec : ∃ content, s.codec.Reads content) (hsound : req.Sound)
    (hscope : ∀ short ∈ req.volumes, short ∈ names) (hnil : req.volumes = [] → names = []) :
    ∃ t w, Exec (plainSite req.template req.slug names).serves {} (s.backup req).run t w (.ret (.ok ())) := by
  obtain ⟨content, hcodec⟩ := hcodec
  have hgiven : (s.backup req).run.given ((plainSite req.template req.slug names).yields content) = .ok () := by
    unfold Service.backup
    split
    · rename_i hlive
      obtain ⟨short, hshort⟩ := List.length_eq_one_iff.1 (hsound hlive)
      unfold Service.liveBackup
      rw [hshort]
      rw [given_withLock]
      exact liveBackupLocked_yields hblobs hhost hcodec (hscope short (by simp [hshort]))
    · rw [given_withLock]
      exact snapshotBackup_yields hblobs hhost hcodec hscope hnil
  rw [← hgiven]
  exact Prog.exec_given (fun op => (plainSite req.template req.slug names).admits_yields content op) _ _

end Succeeds

/-! ## One run for another's request -/

/-- What the arguments of a job say it will do for a request: its mode is the one asked for, a live job names one
volume, and its scope is none for a request without one and else holds every name. -/
structure Promises (req : BackupRequest) (want : List String) (live : Bool) : Prop where
  mode : (req.mode == "live") = live
  sound : req.Sound
  whole : want = [] → req.volumes = []
  named : want ≠ [] → req.volumes ≠ [] ∧ ∀ short ∈ want, short ∈ req.volumes

section Fulfills

variable {s : Service} {req : BackupRequest} {want : List String} {live : Bool}

theorem Promises.fulfills (h : Promises req want live) (hblobs : s.blobs = true)
    (hhost : (s.host req.host).isSome = true) (hcodec : ∃ content, s.codec.Reads content) :
    Fulfills s req want live := by
  refine ⟨⟨plainSite req.template req.slug req.volumes, ?_⟩, fun site t w hrun => ?_⟩
  · exact backup_succeeds hblobs hhost hcodec h.sound (fun _ hshort => hshort) id
  have hgrabs : Grabs s site req w := backup_grabs.post hrun () rfl
  refine ⟨hgrabs.live.trans h.mode, fun short hasks => ?_⟩
  unfold Site.Asks at hasks
  split at hasks
  · rename_i hwant
    exact hgrabs.exports (h.whole hwant) short hasks
  · rename_i hwant
    exact hgrabs.asked short ((h.named hwant).2 short hasks)

theorem plainSite_exports {u : Unicode} {names : List String}
    (h : short ∈ names) : (plainSite tmpl slug names).Exports u tmpl slug short := by
  refine ⟨⟨plainVolume short, List.mem_map_of_mem h, rfl⟩, ?_, decide_eq_true (List.mem_map_of_mem h)⟩
  have hlast : lastDeclared (plainSite tmpl slug names).template.metadata.volumes short =
      some (plainVolume short) := lastDeclared_plainVolume h
  unfold vetoed effectiveMarker
  rw [hlast]
  rfl

theorem Fulfills.promises (h : Fulfills s req want live) (hblobs : s.blobs = true)
    (hhost : (s.host req.host).isSome = true) (hcodec : ∃ content, s.codec.Reads content) :
    Promises req want live := by
  obtain ⟨⟨site, t, w, hrun⟩, hall⟩ := h
  have hgrabs : Grabs s site req w := backup_grabs.post hrun () rfl
  have hmode : (req.mode == "live") = live := hgrabs.live.symm.trans (hall site t w hrun).1
  have hsound : req.Sound := fun hlive => (live_scope hlive).post hrun () rfl
  -- each remaining promise is read off a success on a plain site with suitable volumes
  have hplain : ∀ names : List String, (∀ short ∈ req.volumes, short ∈ names) →
      (req.volumes = [] → names = []) → ∃ w, Grabs s (plainSite req.template req.slug names) req w ∧
        ∀ short, (plainSite req.template req.slug names).Asks s.unicode req.template req.slug want short →
          volumeName req.template req.slug short ∈ w.names := by
    intro names hscope hnil
    obtain ⟨t, w, hrun⟩ := backup_succeeds hblobs hhost hcodec hsound hscope hnil
    exact ⟨w, backup_grabs.post hrun () rfl, (hall _ t w hrun).2⟩
  refine ⟨hmode, hsound, fun hwant => ?_, fun hwant => ?_⟩
  · -- a scope leaves out a volume that is there
    by_contra hne
    obtain ⟨other, hother⟩ := Infinite.exists_notMem_finset req.volumes.toFinset
    rw [List.mem_toFinset] at hother
    obtain ⟨w, hw, hasked⟩ := hplain (other :: req.volumes) (fun _ h => List.mem_cons_of_mem _ h)
      fun hnil => absurd hnil hne
    have hin := hasked other (by
      unfold Site.Asks
      rw [if_pos hwant]
      exact plainSite_exports List.mem_cons_self)
    obtain ⟨short, hshort, hname⟩ := hw.scope hne _ hin
    rw [volumeName_inj.1 hname] at hother
    exact hother hshort
  · have hasks : ∀ short ∈ want, ∀ site : Site, site.Asks s.unicode req.template req.slug want short := by
      intro short hshort site
      unfold Site.Asks
      rw [if_neg hwant]
      exact hshort
    -- without a scope, a volume that is not there is not captured
    have hne : req.volumes ≠ [] := by
      intro hnil
      obtain ⟨short, hshort⟩ := List.exists_mem_of_ne_nil want hwant
      obtain ⟨w, hw, hasked⟩ := hplain [] (by simp [hnil]) fun _ => rfl
      have hpresent := hw.present hnil _ (hasked short (hasks short hshort _))
      cases hpresent
    refine ⟨hne, fun short hshort => ?_⟩
    obtain ⟨w, hw, hasked⟩ := hplain req.volumes (fun _ h => h) id
    obtain ⟨short', hshort', hname⟩ := hw.scope hne _ (hasked short (hasks short hshort _))
    rw [volumeName_inj.1 hname]
    exact hshort'

end Fulfills

end PodmanApi.Instance
