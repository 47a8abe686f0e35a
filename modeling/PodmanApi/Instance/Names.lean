/-
# PodmanApi.Instance.Names — which names two instances can share.

The pod, the volumes and the secrets of an instance are found by name only: its parts joined by dashes, which
the parts may contain themselves. So a joined name does not determine its parts.
-/
import PodmanApi.Instance.Backup

namespace PodmanApi.Instance

open GoStd Calls

/-! ## Joined names -/

/-- The piece `m` is read as the start of `b` on one side and as the end of `c` on the other. -/
def Shifts (a b c d : String) : Prop :=
  ∃ m, c = a ++ "-" ++ m ∧ b = m ++ "-" ++ d

/-- A piece moves between the two parts, in one direction or in the other. -/
def Moves (a b c d : String) : Prop :=
  Shifts a b c d ∨ Shifts c d a b

theorem dashed_eq_iff {a b c d : List Char} : a ++ '-' :: b = c ++ '-' :: d ↔
      (a = c ∧ b = d) ∨ (∃ m, c = a ++ '-' :: m ∧ b = m ++ '-' :: d) ∨
        ∃ m, a = c ++ '-' :: m ∧ d = m ++ '-' :: b := by
  rw [List.append_eq_append_iff]
  constructor
  · rintro (⟨piece, hc, hb⟩ | ⟨piece, ha, hd⟩)
    · cases piece with
      | nil => exact .inl ⟨by simpa using hc.symm, by simpa using hb⟩
      | cons x m =>
        obtain ⟨rfl, hrest⟩ := List.cons.inj hb
        exact .inr (.inl ⟨m, hc, hrest⟩)
    · cases piece with
      | nil => exact .inl ⟨by simpa using ha, by simpa using hd.symm⟩
      | cons x m =>
        obtain ⟨rfl, hrest⟩ := List.cons.inj hd
        exact .inr (.inr ⟨m, ha, hrest⟩)
  · rintro (⟨rfl, rfl⟩ | ⟨m, hc, hb⟩ | ⟨m, ha, hd⟩)
    · exact .inl ⟨[], by simp, by simp⟩
    · exact .inl ⟨'-' :: m, hc, by rw [hb]; rfl⟩
    · exact .inr ⟨'-' :: m, ha, by rw [hd]; rfl⟩

theorem toList_joined (a b : String) : (a ++ "-" ++ b).toList = a.toList ++ '-' :: b.toList := by
  simp

variable {a b c d : String}

theorem shifts_iff : Shifts a b c d ↔ ∃ m, c.toList = a.toList ++ '-' :: m ∧ b.toList = m ++ '-' :: d.toList := by
  constructor
  · rintro ⟨m, rfl, rfl⟩
    exact ⟨m.toList, toList_joined a m, toList_joined m d⟩
  · rintro ⟨m, hc, hb⟩
    refine ⟨String.ofList m, String.toList_inj.1 ?_, String.toList_inj.1 ?_⟩
    · rw [toList_joined, String.toList_ofList, hc]
    · rw [toList_joined, String.toList_ofList, hb]

/-- Two joined names are equal just when their parts are or a piece moves between them. -/
theorem podName_eq_iff : podName a b = podName c d ↔ (a = c ∧ b = d) ∨ Moves a b c d := by
  unfold podName Moves
  rw [← String.toList_inj, toList_joined, toList_joined, dashed_eq_iff, shifts_iff, shifts_iff,
    String.toList_inj, String.toList_inj]

/-! ## Instances and what belongs to them -/

/-- An instance on a host: accepted names, and the short names its volumes and secrets can have, by its
template, its row or its backups. -/
structure Resident where
  template : String
  slug : String
  volumes : List String
  secrets : List String
  template_valid : validName template = true
  slug_valid : validName slug = true

inductive Resource where
  | pod (name : String)
  | volume (name : String)
  | secret (name : String)
  deriving DecidableEq, Repr

namespace Resident

variable (i : Resident)

def pod : String := podName i.template i.slug

/-- What belongs to an instance. Podman keeps a secret also as a volume of the same name. -/
def Owns : Resource → Prop
  | .pod name => name = i.pod
  | .volume name => ∃ short ∈ i.volumes ++ i.secrets, name = podName i.pod short
  | .secret name => ∃ short ∈ i.secrets, name = podName i.pod short

end Resident

/-- What a call creates, replaces, stops, removes or exports, and on which host. A manifest is played for the pod
of the addressed instance. -/
def acted (pod : String) : Op → Option (String × Resource)
  | .playKube host _ _ _ => some (host, .pod pod)
  | .podStop host name | .podRemove host name _ => some (host, .pod name)
  | .volumeCreate host name | .volumeRemove host name _ | .volumeExport host name
  | .volumeImport host name _ => some (host, .volume name)
  | .secretCreate host name _ | .secretRemove host name => some (host, .secret name)
  | _ => none

/-- The answers to an operation on the instance: template, row, backups and injector name the instance's own
volumes and secrets, and an inspect answers about the volume it was asked for. Every call may fail, and every
other answer is free. -/
def Answers (host : String) (i : Resident) : (op : Op) → op.Ans → Prop
  | .getTemplate id, r => id = i.template → ∀ t, r = .ok t →
    (∀ v ∈ t.metadata.volumes, v.name ∈ i.volumes) ∧ ∀ n ∈ t.metadata.perInstance, n ∈ i.secrets
  | .getSpec h t s, r => (⟨h, t, s⟩ : SpecId) = ⟨host, i.template, i.slug⟩ → ∀ row, r = .ok row →
    (∀ v ∈ row.appliedVolumes.getD [], v ∈ i.volumes) ∧ ∀ x ∈ row.injectorSecrets, x.name ∈ i.secrets
  | .getBackup _, r => ∀ b, r = .ok b → b.target = ⟨host, i.template, i.slug⟩ ∧
    ∀ bv ∈ b.volumes, ∃ v ∈ i.volumes, bv.name = volumeName i.template i.slug v
  | .injectSidecars _ _ _ _ _ _, r => ∀ out, r = .ok out → ∀ x ∈ out.secrets, x.name ∈ i.secrets
  | .volumeInspect _ n, r => ∀ v, r = .ok v → v.name = n
  | _, _ => True

def resident (host : String) (i : Resident) : Calls.Service calls Unit :=
  fun _ op r _ => Answers host i op r

inductive Request where
  | apply (req : ApplyRequest) (opts : ApplyOptions)
  | delete (opts : DeleteOptions)
  | stop
  | backup (req : BackupRequest)
  | restore (id : String)

def Request.program (s : Service) (host : String) (i : Resident) : Request → Prog calls PUnit
  | .apply req opts => do
    let _ ← s.apply host { req with template := i.template, slug := i.slug } opts
    pure ⟨⟩
  | .delete opts => do
    let _ ← (s.delete host i.template i.slug opts).run
    pure ⟨⟩
  | .stop => do
    let _ ← (s.stop host i.template i.slug).run
    pure ⟨⟩
  | .backup req => do
    let _ ← (s.backup { req with host := host, template := i.template, slug := i.slug }).run
    pure ⟨⟩
  | .restore id => do
    let _ ← (s.restore id).run
    pure ⟨⟩

/-! ## Operations stay with their instance -/

/-- The obligation on every call: what it acts on belongs to the instance. -/
def Within (host : String) (i : Resident) (_ : Unit) (op : Op) : Prop :=
  ∀ res, acted i.pod op = some (host, res) → i.Owns res

/-- An operation that stays with its instance. -/
abbrev Stays {α : Type} (host : String) (i : Resident) (Q : Unit → α → Prop) (p : Prog calls α) : Unit → Prop :=
  Ensures (resident host i) (Within host i) Q p

def Inert (op : Op) : Prop :=
  ∀ pod, acted pod op = none

variable {op : Op} {res : Resource}

section Confined

variable {s : Service} {host : String} {i : Resident}

variable {vols : List HostVolume} {metas : GoMap VolMeta} {params : GoMap Value}
  {h tmpl slug name id : String} {m : Mutex} {sp : Spec}

theorem within_of (hop : acted i.pod op = some (h, res)) (hres : i.Owns res) : Within host i () op := by
  intro res' hop'
  rw [hop] at hop'
  obtain ⟨-, rfl⟩ := Prod.mk.inj (Option.some.inj hop')
  exact hres

theorem within_pod (hop : acted i.pod op = some (h, .pod i.pod)) : Within host i () op :=
  within_of hop rfl

theorem Inert.within (h : Inert op) : Within host i () op := by
  intro res hres
  rw [h] at hres
  cases hres

variable {req : BackupRequest} {opts : ApplyOptions} {α : Type} {x : Task α} {short : String} {b : Backup}

theorem inert_onOk (hx : x.run.Issues Inert) : Stays host i (OnOk fun _ _ => True) x.run () :=
  hx.ensures_onOk fun _ _ h => h.within

/-- The template of the instance names its own volumes and secrets only. -/
def Declares (i : Resident) (t : Template) : Prop :=
  (∀ v ∈ t.metadata.volumes, v.name ∈ i.volumes) ∧ ∀ n ∈ t.metadata.perInstance, n ∈ i.secrets

theorem lookup_declares : Stays host i (OnOk fun _ t => Declares i t) (s.lookup host i.template).run () :=
  ensures_lookup_onOk (Inert.within fun _ => by rfl) fun _ t _ hr => hr rfl t rfl

/-! ### Secrets -/

theorem replaceSecret_within {c : Codec} {word key value : String} (h : short ∈ i.secrets) :
    (replaceSecret c host word (instanceSecretName i.template i.slug short) key value).run.Issues
      fun op => Within host i () op := by
  refine (dropSecret_issues word (Inert.within fun _ => rfl) ?_).andThen fun _ =>
    .mapErr (issues_perform.2 ?_)
  · exact within_of rfl ⟨short, h, rfl⟩
  · exact within_of rfl ⟨short, h, rfl⟩

theorem validate_secrets {m : Meta} {secrets : GoMap String} {allow : Bool}
    (h : Render.validate m params secrets allow = .ok ()) : ∀ p ∈ secrets, p.1 ∈ m.perInstance := by
  intro p hp
  unfold Render.validate at h
  split at h
  · rename_i hproblems
    have hunknown := (List.append_eq_nil_iff.1 hproblems).2
    rw [List.map_eq_nil_iff, List.filter_eq_nil_iff] at hunknown
    have hk := hunknown p.1 (List.mem_map_of_mem hp)
    simpa using hk
  · cases h

theorem Checking.inert (h : Checking op) : Inert op := by
  cases h <;> exact fun _ => rfl

theorem Persisting.inert (h : Persisting sp op) : Inert op := by
  cases h <;> exact fun _ => rfl

/-! ### Apply -/

/-- What an apply carries from its checks to its commit names the instance's secrets only. -/
def Carries (i : Resident) (req : ApplyRequest) (prep : Prepared) : Prop :=
  (∀ p ∈ req.secrets, p.1 ∈ i.secrets) ∧ ∀ x ∈ prep.injectorSecrets, x.name ∈ i.secrets

theorem checkRequest_within {req : ApplyRequest} (htmpl : req.template = i.template) : Stays host i
      (OnOk fun _ _ => ∀ p ∈ req.secrets, p.1 ∈ i.secrets) (s.checkRequest host req opts).run () := by
  have hchecks : ∀ {x : Task Unit}, x.run.Issues Checking → Stays host i
      (OnOk fun _ _ => True) x.run () := fun hx => inert_onOk (hx.mono fun op h => h.inert)
  unfold Service.checkRequest
  rw [htmpl]
  refine lookup_declares.thenOk fun _ t ht => ?_
  refine .thenOk (P := fun _ _ => ∀ p ∈ req.secrets, p.1 ∈ i.secrets) ?_ fun _ _ hsec => ?_
  · refine .mapErr_onOk (ensures_ret.2 fun a ha p hp => ?_)
    exact ht.2 _ (validate_secrets ha p hp)
  refine ensures_require_thenOk fun _ => ?_
  refine (hchecks issues_lift_pure.mapErr).thenOk fun _ _ _ => ?_
  refine (hchecks (validateIngress_issues t)).thenOk fun _ _ _ => ?_
  exact (hchecks (validateNetworkAliases_issues t)).thenOk fun _ _ _ => ensures_pure_onOk hsec

theorem inject_within {req : ApplyRequest} {t : Template} {yaml : String} : Stays host i
      (OnOk fun _ out => ∀ x ∈ out.secrets, x.name ∈ i.secrets) (s.inject host req opts t params yaml).run () := by
  unfold Service.inject
  split
  · refine .mapErr_onOk (ensures_issue (Op.injectSidecars yaml t.metadata params host req.slug
      opts.restoreIntent) (Inert.within fun _ => rfl) fun r _ hr => ?_)
    exact fun out hout => hr out hout
  · exact ensures_pure_onOk (by intro x hx; cases hx)

theorem applyChecks_within {req : ApplyRequest} (htmpl : req.template = i.template) : Stays host i
      (OnOk fun _ prep => Carries i req prep) (s.applyChecks host req opts).run () := by
  refine (checkRequest_within htmpl).thenOk fun _ out hsec => ?_
  obtain ⟨t, params⟩ := out
  refine (inert_onOk ((checkHost_issues t).mono fun op h => h.inert)).thenOk fun _ _ _ => ?_
  refine (inert_onOk issues_lift_pure.mapErr).thenOk fun _ yaml _ => ?_
  refine inject_within.thenOk fun _ inj hinj => ?_
  refine (inert_onOk ((checkSidecarPorts_issues params).mono fun op h => h.inert)).thenOk
    fun _ _ _ => ?_
  refine ensures_require_thenOk fun _ => ?_
  refine (inert_onOk ((pullImages_issues inj.yaml).mono fun op h => h.inert)).thenOk fun _ _ _ => ?_
  exact ensures_pure_onOk ⟨hsec, hinj⟩

theorem applyCommit_within {req : ApplyRequest} {prep : Prepared}
    (htmpl : req.template = i.template) (hslug : req.slug = i.slug) (hprep : Carries i req prep) :
    (s.applyCommit host req opts prep).run.Issues fun op => Within host i () op := by
  refine (issues_forM _ fun sec hsec => ?_).andThen fun _ => ?_
  · rw [htmpl, hslug]
    exact replaceSecret_within (hprep.2 sec hsec)
  refine (ensureNetworks_issues _ fun _ => Inert.within fun _ => rfl).andThen fun networks => ?_
  refine .andThen (.mapErr (issues_perform.2 ?_)) fun _ => ?_
  · exact within_pod rfl
  refine .andThen ?_ fun _ => refreshIngress_issues (Inert.within fun _ => rfl)
  exact (persistSpec_issues _).mono fun op h => h.inert.within

theorem within_onOk (hx : x.run.Issues fun op => Within host i () op) :
    Stays host i (OnOk fun _ _ => True) x.run () :=
  hx.ensures_onOk fun _ _ h => h

theorem locked_within {p : Prog calls α}
    (hp : Stays host i (fun _ _ => True) p ()) : Stays host i (fun _ _ => True) (locked m p) () :=
  ensures_lock (Inert.within fun _ => rfl) fun _ _ => hp.imp fun _ _ _ =>
    ⟨Inert.within fun _ => rfl, fun _ _ => trivial⟩

theorem withLock_within (hx : Stays host i (OnOk fun _ _ => True) x.run ()) :
    Stays host i (OnOk fun _ _ => True) (withLock m x).run () :=
  Ensures.imp (locked_within (hx.imp fun _ _ _ => trivial)) fun _ _ _ _ _ => trivial

theorem apply_within {req : ApplyRequest} (htmpl : req.template = i.template) (hslug : req.slug = i.slug) :
    Stays host i (fun _ _ => True) (s.apply host req opts) () := by
  have hbody : Stays host i (fun _ _ => True)
      (s.applyLocked host req opts) () := by
    have hpush : Stays host i (OnOk fun _ prep => Carries i req prep)
        (s.applyPush host req opts).run () := by
      refine (applyChecks_within htmpl).thenOk fun _ prep hprep => ?_
      refine (within_onOk (issues_forM _ fun p hp => ?_)).thenOk
        fun _ _ _ => ensures_pure_onOk hprep
      rw [htmpl, hslug]
      exact replaceSecret_within (hprep.1 p hp)
    refine hpush.bind fun _ r hr => ?_
    cases r with
    | error e => exact ensures_ret.2 trivial
    | ok prep =>
      have hcommit : Stays host i (OnOk fun _ _ => True)
          (s.applyCommit host req opts prep).run () :=
        within_onOk (applyCommit_within htmpl hslug (onOk_ok.1 hr))
      exact hcommit.map fun _ _ _ => trivial
  unfold Service.apply
  split
  · exact locked_within hbody
  · exact locked_within (locked_within hbody)

/-! ### Stop and delete -/

theorem stop_within : Stays host i (OnOk fun _ _ => True) (s.stop host i.template i.slug).run () := by
  refine within_onOk (lifecycle_issues ?_ ?_ (issues_perform.2 ?_) ?_)
  · exact Inert.within fun _ => rfl
  · exact Inert.within fun _ => rfl
  · exact within_pod rfl
  · exact Inert.within fun _ => rfl

theorem Reading.inert (h : Reading host tmpl slug op) : Inert op := by
  cases h <;> exact fun _ => rfl

theorem Waiting.inert (h : Waiting host name op) : Inert op := by
  cases h <;> exact fun _ => rfl

theorem Starting.inert (h : Starting host tmpl slug op) : Inert op := by
  cases h with
  | waiting h => exact h.inert
  | reading h => exact h.inert
  | lock | podStart | unlock => exact fun _ => rfl

theorem delete_within {opts : DeleteOptions} : Stays host i
    (OnOk fun _ _ => True) (s.delete host i.template i.slug opts).run () := by
  have hinert : ∀ {op : Op}, Inert op → Within host i () op := fun h => h.within
  refine delete_draws (N := (· ∈ i.secrets)) (V := (· ∈ i.volumes)) (U := fun op => Within host i () op)
    (hinert fun _ => rfl) (hinert fun _ => rfl) (within_pod rfl) (hinert fun _ => rfl) (hinert fun _ => rfl)
    (hinert fun _ => rfl) (hinert fun _ => rfl) (fun _ t _ hr => hr rfl t rfl)
    (fun _ row _ hr => (hr rfl row rfl).2) (fun _ n hn => ⟨?_, ?_⟩) fun _ v hv => ?_
  · exact within_of rfl ⟨n, hn, rfl⟩
  · exact within_of rfl ⟨n, List.mem_append_right _ hn, rfl⟩
  · exact within_of rfl ⟨v, List.mem_append_left _ hv, rfl⟩

/-! ### Backup -/

def Listed (i : Resident) (vols : List HostVolume) : Prop :=
  ∀ v ∈ vols, ∃ short ∈ i.volumes, v.name = volumeName i.template i.slug short

theorem Listed.add {v : HostVolume} (h : Listed i vols)
    (hshort : short ∈ i.volumes) (hv : v.name = volumeName i.template i.slug short) : Listed i (vols ++ [v]) := by
  intro w hw
  obtain hw | hw := List.mem_append.1 hw
  · exact h w hw
  · rw [List.mem_singleton.1 hw]
    exact ⟨short, hshort, hv⟩

theorem instanceVolumes_within {f : Error → Error} : Stays host i (OnOk fun _ vols => Listed i vols)
    (Act.mapErr f (s.instanceVolumes host i.template i.slug)).run () := by
  refine .mapErr_onOk ?_
  refine lookup_declares.thenOk fun _ t ht => ?_
  refine ensures_foldlM_onOk (fun _ (vols : List HostVolume) => Listed i vols) _
    (fun d hd _ out hout => ?_) (by intro v hv; cases hv)
  refine ensures_ask_bind (Inert.within fun _ => by rfl) fun r _ hr => ?_
  cases r with
  | ok v => exact ensures_pure_onOk (hout.add (ht.1 d hd) (hr v rfl))
  | error e => exact ensures_pure_or_throw_onOk fun _ => hout

theorem classifyApplied_within {metas : GoMap AppliedVolumeMarker} {present current : List String}
    {acc : AppliedLoss} (hacc : Listed i acc.recovered) (hshort : short ∈ i.volumes) :
    Stays host i (OnOk fun _ acc => Listed i acc.recovered)
      (classifyApplied host i.template i.slug metas present current acc short).run () := by
  unfold classifyApplied
  dsimp only
  split
  · exact ensures_pure_onOk hacc
  split
  · exact ensures_pure_onOk hacc
  refine ensures_ask_bind (Inert.within fun _ => by rfl) fun r _ hr => ?_
  cases r with
  | ok v => exact ensures_pure_onOk (hacc.add hshort (hr v rfl))
  | error e => exact ensures_pure_or_throw_onOk fun _ => hacc

theorem classifyVolumes_within {declared : GoMap String}
    (hsp : ∀ v ∈ sp.appliedVolumes.getD [], v ∈ i.volumes) : Stays host i (OnOk fun _ c => Listed i c.vols)
      (s.classifyVolumes host i.template i.slug declared metas sp).run () := by
  refine instanceVolumes_within.thenOk fun _ vols hvols => ?_
  cases happlied : sp.appliedVolumes with
  | none => exact ensures_pure_onOk hvols
  | some applied =>
    rw [happlied] at hsp
    refine .thenOk (ensures_foldlM_onOk (fun _ acc => Listed i acc.recovered) applied
      (fun short hshort _ acc hacc => classifyApplied_within hacc (hsp short hshort)) ?_)
      fun _ loss hloss => ?_
    · intro v hv
      cases hv
    · exact ensures_pure_onOk (List.forall_mem_append.2 ⟨hvols, hloss⟩)

theorem checkBackupable_within {volumes : List String} : Stays host i (OnOk fun _ out => Listed i out.1)
    (s.checkBackupable host i.template i.slug volumes false).run () := by
  have hnil : Listed i [] := by
    intro v hv
    cases hv
  refine ensures_require_thenOk fun _ => ?_
  refine lookup_declares.thenOk fun _ t _ => ?_
  refine .thenOk (P := fun _ (row : Spec) => ∀ v ∈ row.appliedVolumes.getD [], v ∈ i.volumes)
    (.mapErr_onOk ?_) fun _ row hrow => ?_
  · exact ensures_issue (Op.getSpec host i.template i.slug) (Inert.within fun _ => rfl)
      fun r _ hr row hrow => (hr rfl row hrow).1
  dsimp only
  split
  · unfold Service.checkUnscoped
    split
    · exact ensures_pure_onOk hnil
    refine ensures_require_thenOk fun _ => ?_
    show Ensures _ _ _ (s.checkMaterialized host i.template i.slug _ _ row).run ()
    refine (classifyVolumes_within hrow).thenOk fun _ c hc => ?_
    refine (inert_onOk (refuseTotalLoss_issues fun _ => rfl)).thenOk fun _ _ _ => ?_
    split
    · exact ensures_require_thenOk fun _ => ensures_pure_onOk hnil
    · exact ensures_require_thenOk fun _ => ensures_pure_onOk hc
  · refine (inert_onOk (issues_forM volumes fun _ _ => checkScopeName_issues)).thenOk
      fun _ _ _ => ?_
    refine instanceVolumes_within.thenOk fun _ vols hvols => ?_
    exact ensures_require_thenOk fun _ => ensures_pure_onOk hvols

theorem backupVolumeFromReader_inert {content : Bytes} {patterns : List String} :
    (s.backupVolumeFromReader req name content patterns).run.Issues Inert :=
  backupVolumeFromReader_issues (fun _ => rfl) (fun _ _ => rfl) (fun _ => rfl) (fun _ => rfl)
    fun _ _ => rfl

theorem abandonBackup_inert : (abandonBackup req).run.Issues Inert :=
  abandonBackup_issues (fun _ => rfl) fun _ _ => rfl

theorem orAfter_within {compensation : Task Unit} (hc : compensation.run.Issues Inert)
    (hx : Stays host i (OnOk fun _ _ => True) x.run ()) : Stays host i (OnOk fun _ _ => True)
      (orAfter compensation x).run () := by
  refine hx.attemptThen fun _ r hr => ?_
  cases r with
  | ok a => exact ensures_pure_onOk trivial
  | error e => exact (inert_onOk hc).thenOk fun _ _ _ => ensures_throw_onOk

theorem captureVolumes_within (hhost : req.host = host) (hvols : Listed i vols) : Stays host i
      (OnOk fun _ _ => True) (s.captureVolumes req vols metas).run () := by
  refine .thenOk (ensures_foldlM_onOk (fun _ _ => True) vols (fun v hv _ bvols _ => ?_) trivial)
    fun _ bvols _ => ?_
  · unfold Service.exportVolume
    dsimp only
    split
    · exact ensures_pure_onOk trivial
    split
    · exact ensures_pure_onOk trivial
    refine (within_onOk (.mapErr ?_)).thenOk fun _ _ _ => ensures_pure_onOk trivial
    obtain ⟨short, hshort, hname⟩ := hvols v hv
    refine .andThen (.mapErr (issues_perform.2 ?_)) fun _ =>
      backupVolumeFromReader_inert.mono fun op h => h.within
    rw [hname]
    exact within_of rfl ⟨short, List.mem_append_left _ hshort, rfl⟩
  · exact ensures_require_thenOk fun _ =>
      inert_onOk (completeBackup_issues fun _ => rfl)

theorem liveBackupLocked_inert : (s.liveBackupLocked req short).run.Issues Inert := by
  refine issues_require.andThen fun _ => (issues_lookup fun _ => rfl).andThen fun t => ?_
  refine .andThen (.mapErr (issues_perform.2 fun _ => rfl)) fun row => ?_
  split
  · exact issues_throw
  refine .andThen (.mapErr (issues_perform.2 fun _ => rfl)) fun _ => ?_
  refine (orAfter_issues (liveDump_issues fun _ _ _ => rfl) abandonBackup_inert).andThen fun _ => ?_
  refine orAfter_issues ?_ abandonBackup_inert
  refine .andThen (.mapErr (issues_perform.2 fun _ => rfl)) fun content => ?_
  exact backupVolumeFromReader_inert.mapErr.andThen fun _ => completeBackup_issues fun _ => rfl

theorem backup_within (hhost : req.host = host) (htmpl : req.template = i.template) (hslug : req.slug = i.slug) :
    Stays host i (OnOk fun _ _ => True) (s.backup req).run () := by
  unfold Service.backup
  split
  · unfold Service.liveBackup
    split
    · exact inert_onOk (issues_withLock (fun _ => rfl) (fun _ => rfl) liveBackupLocked_inert)
    · exact ensures_throw_onOk
  refine withLock_within ?_
  have hrestart : ∀ {wasRunning : Bool}, (s.restartAfter req wasRunning).run.Issues Inert :=
    restartAfter_issues fun _ h => h.inert
  unfold Service.snapshotBackup
  rw [hhost, htmpl, hslug]
  refine checkBackupable_within.thenOk fun _ out hvols => ?_
  refine (inert_onOk (get_issues.mono fun op h => h.inert)).thenOk fun _ obs _ => ?_
  refine (inert_onOk (.mapErr (issues_perform.2 fun _ => rfl))).thenOk
    fun _ _ _ => ?_
  unfold Service.snapshotVolumes
  rw [hhost, htmpl, hslug]
  refine (orAfter_within abandonBackup_inert (inert_onOk
    (runPreBackup_issues (fun _ => rfl) (fun _ => rfl) fun _ _ _ => rfl))).thenOk fun _ _ _ => ?_
  refine (orAfter_within abandonBackup_inert stop_within.mapErr_onOk).thenOk fun _ _ _ => ?_
  exact (orAfter_within (hrestart.andThen fun _ => abandonBackup_inert)
    (captureVolumes_within hhost hvols)).thenOk fun _ _ _ => inert_onOk hrestart

/-! ### Restore -/

def Captured (host : String) (i : Resident) (b : Backup) : Prop :=
  b.target = ⟨host, i.template, i.slug⟩ ∧
    ∀ bv ∈ b.volumes, ∃ v ∈ i.volumes, bv.name = volumeName i.template i.slug v

theorem checkRestorable_within : Stays host i
    (OnOk fun _ b => Captured host i b) (s.checkRestorable id).run () := by
  refine ensures_require_thenOk fun _ => ?_
  refine .thenOk (P := fun _ b => Captured host i b) (.mapErr_onOk ?_) fun _ b hb => ?_
  · exact ensures_issue (Op.getBackup id) (Inert.within fun _ => rfl) fun r _ hr b hb => hr b hb
  refine ensures_require_thenOk fun _ => ?_
  refine ensures_require_thenOk fun _ => ?_
  refine ensures_require_thenOk fun _ => ?_
  refine (inert_onOk (.mapErr (issues_perform.2 fun _ => rfl))).thenOk
    fun _ _ _ => ?_
  exact (inert_onOk (preflightBlobs_issues fun _ _ => rfl)).thenOk fun _ _ _ => ensures_pure_onOk hb

theorem restoreVolume_within {bv : BackupVolume} (hb : Captured host i b)
    (hbv : bv ∈ b.volumes) : (s.restoreVolume b bv).run.Issues fun op => Within host i () op := by
  obtain ⟨short, hshort, hname⟩ := hb.2 bv hbv
  have hvolume : ∀ op : Op, acted i.pod op = some (b.host, .volume bv.name) → Within host i () op := by
    intro op hop
    rw [hname] at hop
    exact within_of hop ⟨short, List.mem_append_left _ hshort, rfl⟩
  refine restoreVolume_issues.mono fun op h => ?_
  cases h with
  | tar | sidecar => exact Inert.within fun _ => rfl
  | volumeRemove | volumeCreate | volumeImport | volumeExport => exact hvolume _ rfl

theorem snapshotRestore_within (hb : Captured host i b) : Stays host i (OnOk fun _ _ => True)
      (s.snapshotRestore b).run () := by
  have htarget := hb.1
  simp only [Backup.target, SpecId.mk.injEq] at htarget
  obtain ⟨hhost, htmpl, hslug⟩ := htarget
  have hteardown : Stays host i (OnOk fun _ _ => True)
      (s.teardown b).run () := by
    unfold Service.teardown
    rw [hhost, htmpl, hslug]
    refine delete_within.attemptThen fun _ r _ => ?_
    cases r with
    | ok _ => exact ensures_pure_onOk trivial
    | error e => exact ensures_pure_or_throw_onOk fun _ => trivial
  have hpost : ∀ spec, Stays host i (fun _ _ => True)
      (s.restorePostTeardown b spec) () := by
    intro spec
    refine (within_onOk (issues_forM _ fun bv hbv =>
      (restoreVolume_within hb hbv).mapErr)).bind fun _ r _ => ?_
    cases r with
    | error e => exact ensures_ret.2 trivial
    | ok _ =>
      rw [hhost]
      refine (apply_within htmpl hslug).bind fun _ out _ => ?_
      split
      · exact ensures_ret.2 trivial
      · refine .bind (inert_onOk (.mapErr (waitRunning_issues.mono fun op h => h.inert))) fun _ _ _ => ?_
        exact ensures_ret.2 trivial
  refine (inert_onOk (issues_perform.2 fun _ => rfl)).thenOk fun _ spec _ => ?_
  refine hteardown.thenOk fun _ _ _ => ?_
  refine (hpost spec).embedThen fun _ out _ => ?_
  split
  · exact ensures_pure_onOk trivial
  · exact ensures_ask_bind (Inert.within fun _ => by rfl) fun _ _ _ => ensures_throw_onOk

theorem LiveRestoring.inert (h : LiveRestoring b op) : Inert op := by
  cases h with
  | reading h => exact h.inert
  | blobGet | containerExec | containerCopyIn => exact fun _ => rfl

theorem restore_within : Stays host i (OnOk fun _ _ => True) (s.restore id).run () := by
  refine checkRestorable_within.thenOk fun _ b _ => withLock_within ?_
  refine checkRestorable_within.thenOk fun _ b hb => ?_
  split
  · exact inert_onOk (liveRestore_issues.mono fun op h => h.inert)
  · exact snapshotRestore_within hb

theorem addressed_owns (req : Request) : Stays host i (fun _ _ => True) (req.program s host i) () := by
  have hdone : ∀ {α : Type} {p : Prog calls α} {Q : Unit → α → Prop},
      Stays host i Q p () → Stays host i (fun _ _ => True)
        (p >>= fun _ => pure PUnit.unit) () :=
    fun hp => hp.map fun _ _ _ => trivial
  cases req with
  | apply req opts => exact hdone (apply_within rfl rfl)
  | delete opts => exact hdone delete_within
  | stop => exact hdone stop_within
  | backup req => exact hdone (backup_within rfl rfl rfl)
  | restore id => exact hdone restore_within

end Confined

/-! ## When another instance is spared -/

section Shared

variable {s : Service} {host : String} {i j : Resident}

/-- No run of an operation addressed to the first instance acts on what belongs to the second. -/
def Spares (s : Service) (host : String) (i j : Resident) : Prop :=
  ∀ (req : Request) (h : History) (q : Prog calls PUnit) (op : Op) (res : Resource),
    Exec (resident host i) () (req.program s host i) h () q → q.next = some op →
      acted i.pod op = some (host, res) → ¬j.Owns res

/-- No piece moves between the template and the slug, nor between the pod and the short name of a volume
or a secret. -/
def Separate (i j : Resident) : Prop :=
  ¬Moves i.template i.slug j.template j.slug ∧
    ∀ v ∈ i.volumes ++ i.secrets, ∀ w ∈ j.volumes ++ j.secrets, ¬Moves i.pod v j.pod w

theorem Separate.pod_ne (h : Separate i j) (hne : (i.template, i.slug) ≠ (j.template, j.slug)) : i.pod ≠ j.pod := by
  intro hpod
  obtain ⟨htmpl, hslug⟩ | hmoves := podName_eq_iff.1 hpod
  · exact hne (by rw [htmpl, hslug])
  · exact h.1 hmoves

theorem Separate.not_owns (h : Separate i j) (hne : (i.template, i.slug) ≠ (j.template, j.slug)) (hi : i.Owns res) : ¬j.Owns res := by
  have hjoined : ∀ v ∈ i.volumes ++ i.secrets, ∀ w ∈ j.volumes ++ j.secrets,
      podName i.pod v ≠ podName j.pod w := by
    intro v hv w hw heq
    obtain ⟨hpod, -⟩ | hmoves := podName_eq_iff.1 heq
    · exact h.pod_ne hne hpod
    · exact h.2 v hv w hw hmoves
  intro hj
  cases res with
  | pod name => exact h.pod_ne hne (hi.symm.trans hj)
  | volume name =>
    obtain ⟨v, hv, hname⟩ := hi
    obtain ⟨w, hw, hname'⟩ := hj
    exact hjoined v hv w hw (hname.symm.trans hname')
  | secret name =>
    obtain ⟨v, hv, hname⟩ := hi
    obtain ⟨w, hw, hname'⟩ := hj
    exact hjoined v (List.mem_append_right _ hv) w (List.mem_append_right _ hw) (hname.symm.trans hname')

def Resident.declared (i : Resident) : Template where
  metadata := ⟨i.template, [], i.secrets, [], i.volumes.map (⟨·, "", [], none⟩), none, [], none, some []⟩
  body := "kind: Pod"

def obliging (i : Resident) : (op : Op) → op.Ans
  | .getTemplate _ => .ok i.declared
  | op => op.plain

theorem obliging_answers (op : Op) : Answers host i op (obliging i op) := by
  cases op
  case getTemplate =>
    intro _ t ht
    obtain rfl := Except.ok.inj ht
    refine ⟨fun v hv => ?_, fun n hn => hn⟩
    obtain ⟨short, hshort, rfl⟩ := List.mem_map.1 hv
    exact hshort
  case getSpec => exact fun _ row hrow => nomatch hrow
  case getBackup => exact fun b hb => nomatch hb
  case injectSidecars =>
    intro out hout x hx
    obtain rfl := Except.ok.inj hout
    cases hx
  case volumeInspect =>
    intro v hv
    rw [← Except.ok.inj hv]
  all_goals trivial

theorem stop_asked (hhost : (s.host host).isSome = true) :
    .podStop host i.pod ∈ (s.stop host i.template i.slug).run.asked (obliging i) := by
  refine Act.asked_right (given_lookup hhost rfl) (withLock_asked (Act.asked_mapErr ?_))
  exact Prog.mem_asked_perform

variable {v : String}

theorem pruneInstanceResources_asked (hv : v ∈ i.volumes ++ i.secrets) : .volumeRemove host (podName i.pod v) true ∈
      (pruneInstanceResources host i.template i.slug true true []).run.asked (obliging i) := by
  refine Act.asked_right (a := .ok i.declared) rfl ?_
  have hsecrets : ∀ name ∈ i.secrets ++ [], (pruneSecret host
      (instanceSecretName i.template i.slug name)).run.given (obliging i) = .ok ⟨⟩ := fun _ _ => rfl
  obtain hvol | hsec := List.mem_append.1 hv
  · refine Act.asked_right ((Act.given_forM_ok _).2 hsecrets) ?_
    refine Act.asked_forM (x := v) (fun _ _ => rfl) ?_ (Act.asked_left Act.mem_asked_ask)
    show v ∈ (i.volumes.map fun short => (⟨short, "", [], none⟩ : Volume)).map (·.name)
    simpa using hvol
  · refine Act.asked_left (Act.asked_forM (x := v) hsecrets (List.mem_append_left _ hsec) ?_)
    exact Act.asked_right rfl (Act.asked_left Act.mem_asked_ask)

theorem delete_asked (hhost : (s.host host).isSome = true)
    (hv : v ∈ i.volumes ++ i.secrets) : .volumeRemove host (podName i.pod v) true ∈
      (s.delete host i.template i.slug ⟨true, true⟩).run.asked (obliging i) := by
  refine Act.asked_right (given_lookup hhost rfl) (withLock_asked ?_)
  refine Act.asked_right (a := true) rfl (Act.asked_right (a := []) rfl ?_)
  exact Act.asked_left (pruneInstanceResources_asked hv)

theorem Spares.not_owns (h : Spares s host i j) (req : Request)
    (hop : op ∈ (req.program s host i).asked (obliging i)) (hacted : acted i.pod op = some (host, res)) :
    ¬j.Owns res := by
  obtain ⟨t, q, hrun, hnext⟩ := Prog.exec_of_asked (S := resident host i) (s := ())
    (fun op => obliging_answers op) hop
  exact h req t q op res hrun hnext hacted

/-- Of two distinct instances on a known host, the operations addressed to the first spare everything of the
second, over every run, exactly when no dash-separated piece moves between the parts of their names. -/
theorem addressed_spares_iff (s : Service) (host : String) (i j : Resident) (hhost : (s.host host).isSome = true)
    (hne : (i.template, i.slug) ≠ (j.template, j.slug)) : Spares s host i j ↔ Separate i j := by
  constructor
  · intro hspares
    constructor
    · intro hmoves
      refine hspares.not_owns .stop (Prog.asked_bind_left (stop_asked hhost)) rfl ?_
      exact podName_eq_iff.2 (.inr hmoves)
    · intro v hv w hw hmoves
      refine hspares.not_owns (.delete ⟨true, true⟩) (Prog.asked_bind_left (delete_asked hhost hv)) rfl ?_
      exact ⟨w, hw, podName_eq_iff.2 (.inr hmoves)⟩
  · intro hsep req h q op res hrun hnext hacted
    cases q with
    | ret a => cases hnext
    | call first k =>
      obtain rfl := Option.some.inj hnext
      exact hsep.not_owns hne ((addressed_owns req).issued hrun res hacted)

end Shared

/-! ## Two instances of one name -/

def webShopEu : Resident :=
  ⟨"web", "shop-eu", ["data"], ["token"], by decide, by decide⟩

def webShopInEu : Resident :=
  ⟨"web-shop", "eu", ["data"], ["token"], by decide, by decide⟩

def webMail : Resident :=
  ⟨"web", "mail", ["data"], ["token"], by decide, by decide⟩

/-- Nothing moves between the names of `web/shop-eu` and `web/mail`. -/
theorem webShopEu_spares_webMail : (exampleService.host "engine-1").isSome = true ∧
    (webShopEu.template, webShopEu.slug) ≠ (webMail.template, webMail.slug) ∧
    Spares exampleService "engine-1" webShopEu webMail := by
  refine ⟨by decide, by decide, ?_⟩
  refine (addressed_spares_iff exampleService "engine-1" webShopEu webMail (by decide) (by decide)).2
    ⟨fun hmoves => absurd (podName_eq_iff.2 (.inr hmoves)) (by decide), ?_⟩
  have hnames : ∀ v ∈ ["data", "token"], ∀ w ∈ ["data", "token"],
      podName webShopEu.pod v ≠ podName webMail.pod w := by decide
  exact fun v hv w hw hmoves => hnames v hv w hw (podName_eq_iff.2 (.inr hmoves))

/-- A delete of `web/shop-eu` that prunes everything, on a host where every call works. -/
@[irreducible]
def sharedNameRun : PUnit × History × Unit :=
  ((Request.delete ⟨true, true⟩).program exampleService "engine-1" webShopEu).eval
    (fun _ op => (obliging webShopEu op, ())) ()

theorem sharedNameRun_exec : Exec (resident "engine-1" webShopEu) ()
    ((Request.delete ⟨true, true⟩).program exampleService "engine-1" webShopEu) sharedNameRun.2.1 ()
    (.ret sharedNameRun.1) := by
  unfold sharedNameRun
  generalize (Request.delete ⟨true, true⟩).program exampleService "engine-1" webShopEu = p
  refine (exec_eval (fun _ op => (obliging webShopEu op, ())) p ()).mono fun _ op r _ h => ?_
  have hr : r = obliging webShopEu op := (congrArg Prod.fst h).symm
  exact hr ▸ obliging_answers op

/-- The instance `eu` of `web-shop` loses its pod, its volume and its secret to that delete. -/
theorem delete_removes_other_instance :
    (webShopEu.template, webShopEu.slug) ≠ (webShopInEu.template, webShopInEu.slug) ∧
    ∃ h r, Exec (resident "engine-1" webShopEu) ()
      ((Request.delete ⟨true, true⟩).program exampleService "engine-1" webShopEu) h () (.ret r) ∧
      .podRemove "engine-1" (podName webShopInEu.template webShopInEu.slug) true ∈ h.map (·.1) ∧
      .volumeRemove "engine-1" (volumeName webShopInEu.template webShopInEu.slug "data") true ∈ h.map (·.1) ∧
      .secretRemove "engine-1" (instanceSecretName webShopInEu.template webShopInEu.slug "token") ∈
        h.map (·.1) := by
  refine ⟨by decide, _, _, sharedNameRun_exec, ?_, ?_, ?_⟩
  · decide +kernel
  · decide +kernel
  · decide +kernel

end PodmanApi.Instance
