/-
# PodmanApi.Data — the records and sentinel errors the packages exchange.

These follow the source's own types (`render.Meta`, `store.Spec`, `store.Template`, …), field by
field, for the fields that some modelled function reads. A Go map is an association list in the
order the runtime happens to iterate it; nothing below fixes that order.
-/
import PodmanApi.GoStd

namespace PodmanApi

open GoStd

/-! ## Sentinel errors -/

/-- Every package-level error that the modelled code compares with `errors.Is` or returns. -/
inductive Sentinel where
  | contextCanceled
  | podmanNotFound
  | podmanWaitTimeout
  | registryNotFound
  | registryUnreachable
  | storeNotFound
  | secretsNeedKey
  | specCorrupt
  | secretsUndecryptable
  | fileNotExist
  | unsafeToPrune
  | invalidParameters
  | unknownHost
  | unknownTemplate
  | instanceNotFound
  | instanceExists
  | hostSecretMissing
  | imagePull
  | hostDraining
  | portConflict
  | networkNameConflict
  | sameHost
  | newSlugSameAsOld
  | storeDisabled
  | volumeIntegrity
  | backupNotFound
  | backupNotRestorable
  | backupBusy
  | backupsDisabled
  | invalidBackupScope
  | ingressReconcileFailed
  | readyTimeout
  | stillStarting
  | templateSkipped
  | volumeRenamePending
  | runInFlight
  | backupDeferred
  | templateInUse
  | templateExists
  | invalidTemplate
  deriving DecidableEq, Repr

/-- The messages the sentinels were declared with. -/
def Sentinel.message : Sentinel → String
  | contextCanceled => "context canceled"
  | podmanNotFound => "podman: not found"
  | podmanWaitTimeout => "podman: timed out waiting for pod completion"
  | registryNotFound => "not found"
  | registryUnreachable => "registry unreachable"
  | storeNotFound => "store: not found"
  | secretsNeedKey => "secrets require an encryption key (-spec-key-file)"
  | specCorrupt => "store: spec row corrupt (malformed)"
  | secretsUndecryptable => "store: secrets undecryptable (wrong or missing -spec-key-file)"
  | fileNotExist => "file does not exist"
  | unsafeToPrune => "unsafe to prune"
  | invalidParameters => "invalid parameters"
  | unknownHost => "unknown host"
  | unknownTemplate => "unknown template"
  | instanceNotFound => "instance not found"
  | instanceExists => "instance already exists"
  | hostSecretMissing => "required host secret missing"
  | imagePull => "image pull failed"
  | hostDraining => "host is draining"
  | portConflict => "required host port already in use"
  | networkNameConflict => "shared-network DNS name already claimed"
  | sameHost => "source and destination host are the same"
  | newSlugSameAsOld => "new slug is the same as the old slug"
  | storeDisabled => "migrate requires the state store"
  | volumeIntegrity => "volume copy failed integrity check"
  | backupNotFound => "backup not found"
  | backupNotRestorable => "backup is not restorable"
  | backupBusy => "backup has a backup or restore in flight"
  | backupsDisabled => "backups require a blob store (-backup-dir)"
  | invalidBackupScope => "backup scope names a volume that cannot be backed up"
  | ingressReconcileFailed => "ingress reconcile failed"
  | readyTimeout => "readiness timeout"
  | stillStarting => "healthcheck still in start period"
  | templateSkipped => "template not found — instance skipped"
  | volumeRenamePending =>
    "template volume renamed since last apply — instance skipped, re-apply required"
  | runInFlight => "a registry prune run is already queued or running"
  | backupDeferred => "backup deferred: the instance is recovering from an interrupted backup"
  | templateInUse => "template is in use by one or more instances"
  | templateExists => "template already exists"
  | invalidTemplate => "invalid template"

/-- Error values of this program. -/
abbrev Error : Type := Err Sentinel

def Error.string (e : Error) : String :=
  Err.message Sentinel.message e

/-! ## Values and Go maps -/

/-- A parameter value as `encoding/json` decodes it into `any`. Nothing modelled looks inside a
number, an array or an object, so those keep their JSON text. -/
inductive Value where
  | string (s : String)
  | number (json : String)
  | bool (b : Bool)
  | null
  | array (json : String)
  | object (json : String)
  deriving DecidableEq, Repr

/-- What `%T` prints for a decoded value. -/
def Value.typeName : Value → String
  | string _ => "string"
  | number _ => "float64"
  | bool _ => "bool"
  | null => "<nil>"
  | array _ => "[]interface {}"
  | object _ => "map[string]interface {}"

/-- A Go map, in iteration order. -/
abbrev GoMap (α : Type) : Type := List (String × α)

namespace GoMap

variable {α : Type} (m : GoMap α)

/-- `m[k]`, with the `ok` of the two-value form. -/
def get? (k : String) : Option α :=
  (m.find? fun p => p.1 == k).map Prod.snd

def has (k : String) : Bool :=
  m.any fun p => p.1 == k

def set (k : String) (v : α) : GoMap α :=
  if has m k then m.map fun p => if p.1 == k then (k, v) else p else m ++ [(k, v)]

def erase (k : String) : GoMap α :=
  m.filter fun p => p.1 != k

/-- The keys, in iteration order. -/
def keys : List String :=
  m.map Prod.fst

theorem get?_nil (k : String) : get? ([] : GoMap α) k = none := rfl

theorem get?_cons (p : String × α) (m : GoMap α) (k : String) :
    get? (p :: m) k = if p.1 = k then some p.2 else get? m k := by
  unfold get?
  by_cases h : p.1 = k
  · simp [h]
  · simp [h]

theorem get?_append_single (m : GoMap α) (k : String) (v : α) (j : String) :
    get? (m ++ [(k, v)]) j = (get? m j).or (if k = j then some v else none) := by
  induction m with
  | nil => simp [get?_cons, get?_nil]
  | cons p m ih =>
    rw [List.cons_append, get?_cons, get?_cons, ih]
    split <;> simp

variable {k : String} {m : GoMap α} {p : String × α} {v : α}

theorem get?_update_ne (m : GoMap α) {j : String} (v : α) (h : ¬k = j) :
    get? (m.map fun p => if p.1 == k then (k, v) else p) j = get? m j := by
  induction m with
  | nil => rfl
  | cons p m ih =>
    rw [List.map_cons, get?_cons, get?_cons, ih]
    by_cases hp : p.1 = k
    · simp [hp, h]
    · simp [hp]

theorem get?_update_self (m : GoMap α) (v : α) (h : has m k = true) :
    get? (m.map fun p => if p.1 == k then (k, v) else p) k = some v := by
  induction m with
  | nil => cases h
  | cons p m ih =>
    rw [List.map_cons, get?_cons]
    by_cases hp : p.1 = k
    · simp [hp]
    · have hm : has m k = true := by simpa [has, hp] using h
      rw [ih hm]
      simp [hp]

theorem get?_of_has (h : has m k = true) : ∃ v, get? m k = some v := by
  obtain ⟨p, hp, hpk⟩ := List.any_eq_true.1 h
  have hfound : (m.find? fun p => p.1 == k).isSome = true := List.find?_isSome.2 ⟨p, hp, hpk⟩
  obtain ⟨q, hq⟩ := Option.isSome_iff_exists.1 hfound
  exact ⟨q.2, by simp [get?, hq]⟩

theorem get?_of_not_has (h : ¬has m k = true) : get? m k = none := by
  unfold get?
  rw [Option.map_eq_none_iff, List.find?_eq_none]
  intro p hp hpk
  exact h (List.any_eq_true.2 ⟨p, hp, hpk⟩)

theorem get?_set (m : GoMap α) (k : String) (v : α) (j : String) :
    get? (set m k v) j = if k = j then some v else get? m j := by
  unfold set
  by_cases hhas : has m k = true
  · rw [if_pos hhas]
    by_cases hk : k = j
    · subst hk
      rw [if_pos rfl, get?_update_self m v hhas]
    · rw [if_neg hk, get?_update_ne m v hk]
  · rw [if_neg hhas, get?_append_single]
    by_cases hk : k = j
    · subst hk
      simp [get?_of_not_has hhas]
    · simp [hk]

/-- A map filled from a list holds, under each key, what the last entry with that key says. -/
theorem get?_fill {γ : Type} (key : γ → String) (val : γ → α) (xs : List γ) (k : String) :
    get? (xs.foldl (fun m x => set m (key x) (val x)) []) k = (xs.reverse.find? fun x => key x == k).map val := by
  induction xs using List.reverseRecOn with
  | nil => rfl
  | append_singleton xs x ih =>
    rw [List.foldl_append, List.reverse_append]
    simp only [List.foldl_cons, List.foldl_nil, List.reverse_singleton, List.singleton_append]
    rw [get?_set, ih]
    by_cases hk : key x = k
    · rw [if_pos hk, List.find?_cons_of_pos (by simpa using hk)]
      rfl
    · rw [if_neg hk, List.find?_cons_of_neg (by simpa using hk)]

/-- After a write the map has that entry under its key, and no other. -/
theorem mem_set (hp : p ∈ set m k v) : p = (k, v) ∨ p.1 ≠ k ∧ p ∈ m := by
  unfold set at hp
  split at hp
  · obtain ⟨q, hq, rfl⟩ := List.mem_map.1 hp
    split
    · exact .inl rfl
    · rename_i hk
      exact .inr ⟨by simpa using hk, hq⟩
  · rename_i hhas
    rcases List.mem_append.1 hp with hp | hp
    · exact .inr ⟨fun hk => hhas (List.any_eq_true.2 ⟨p, hp, by simpa using hk⟩), hp⟩
    · exact .inl (List.mem_singleton.1 hp)

theorem mem_of_get? (h : get? m k = some v) : (k, v) ∈ m := by
  obtain ⟨p, hp, rfl⟩ := Option.map_eq_some_iff.1 h
  obtain rfl : p.1 = k := by simpa using List.find?_some hp
  exact List.mem_of_find?_eq_some hp

theorem mem_keys_of_get? (h : (get? m k).isSome = true) : k ∈ keys m := by
  obtain ⟨v, hv⟩ := Option.isSome_iff_exists.1 h
  exact List.mem_map_of_mem (mem_of_get? hv)

/-- A map filled from a list has one entry for each key. -/
theorem get?_of_mem_fill {γ : Type} {key : γ → String} {val : γ → α} {xs : List γ}
    (hp : p ∈ xs.foldl (fun m x => set m (key x) (val x)) []) :
    get? (xs.foldl (fun m x => set m (key x) (val x)) []) p.1 = some p.2 := by
  induction xs using List.reverseRecOn with
  | nil => cases hp
  | append_singleton xs x ih =>
    rw [List.foldl_append, List.foldl_cons, List.foldl_nil] at hp ⊢
    generalize xs.foldl (fun m x => set m (key x) (val x)) [] = m at hp ih ⊢
    rw [get?_set]
    rcases mem_set hp with rfl | ⟨hk, hp⟩
    · rw [if_pos rfl]
    · rw [if_neg (Ne.symm hk)]
      exact ih hp

theorem length_set (v : α) (h : has m k = true) : (set m k v).length = m.length := by
  unfold set
  rw [if_pos h, List.length_map]

theorem has_set (m : GoMap α) (k : String) (v : α) : has (set m k v) k = true := by
  by_contra h
  have hnone := get?_of_not_has h
  rw [get?_set, if_pos rfl] at hnone
  cases hnone

theorem set_set (m : GoMap α) (k : String) (v : α) : set (set m k v) k v = set m k v := by
  have hentry : ∀ p ∈ set m k v, (if p.1 == k then (k, v) else p) = p := by
    intro p hp
    rcases mem_set hp with rfl | ⟨hk, -⟩
    · simp
    · simp [hk]
  have hhas := has_set m k v
  generalize set m k v = m' at hentry hhas
  unfold set
  rw [if_pos hhas, List.map_congr_left hentry, List.map_id']

theorem get?_erase (m : GoMap α) (k j : String) : get? (erase m k) j = if k = j then none else get? m j := by
  induction m with
  | nil => simp [erase, get?_nil]
  | cons p m ih =>
    have herase : erase (p :: m) k = if p.1 = k then erase m k else p :: erase m k := by
      by_cases hp : p.1 = k
      · simp [erase, hp]
      · simp [erase, hp]
    rw [herase, get?_cons]
    by_cases hp : p.1 = k
    · rw [if_pos hp, ih, hp]
      by_cases hk : k = j
      · simp [hk]
      · simp [hk]
    · rw [if_neg hp, get?_cons, ih]
      by_cases hk : k = j
      · subst hk
        simp [hp]
      · simp [hk]

end GoMap

/-! ## Templates -/

/-- `render.Network`: one shared-network membership. -/
structure Network where
  name : String
  aliases : List String
  deriving DecidableEq, Repr

/-- `render.ParamDef`, as far as rendering and validation read it. -/
structure ParamDef where
  name : String
  required : Bool
  default : Option Value
  deriving DecidableEq, Repr

structure LiveBackup where
  container : String
  preExec : List String
  backupExec : List String
  postExec : List String
  outputPath : String
  restoreExec : List String
  restorePreExec : List String
  restorePostExec : List String
  restoreStagePath : String
  deriving DecidableEq, Repr

structure Volume where
  name : String
  backup : String
  exclude : List String
  liveBackup : Option LiveBackup
  deriving DecidableEq, Repr

structure Ingress where
  container : String
  port : Int
  deriving DecidableEq, Repr

structure PreBackup where
  container : String
  command : String
  deriving DecidableEq, Repr

/-- `render.Meta`. `containerNames` is `none` on a row stored before the field existed. -/
structure Meta where
  id : String
  parameters : List ParamDef
  perInstance : List String
  perHostReferenced : List String
  volumes : List Volume
  ingress : Option Ingress
  networks : List Network
  preBackup : Option PreBackup
  containerNames : Option (List String)
  deriving DecidableEq, Repr

structure Template where
  metadata : Meta
  body : String
  deriving DecidableEq, Repr

/-! ## Stored specs -/

structure InjectorSecret where
  name : String
  key : String
  value : String
  deriving DecidableEq, Repr

structure AppliedVolumeMarker where
  backup : String
  exclude : List String
  deriving DecidableEq, Repr

structure SpecKey where
  template : String
  slug : String
  deriving DecidableEq, Repr

/-- `store.Spec`: the desired state of one instance. -/
structure Spec where
  host : String
  template : String
  slug : String
  parameters : GoMap Value
  secrets : GoMap String
  injectorSecrets : List InjectorSecret
  domains : List String
  appliedVolumes : Option (List String)
  appliedVolumeMeta : Option (GoMap AppliedVolumeMarker)
  appliedNetworks : List Network
  deriving DecidableEq, Repr

/-- The primary key of a spec row. -/
structure SpecId where
  host : String
  template : String
  slug : String
  deriving DecidableEq, Repr

def Spec.id (sp : Spec) : SpecId :=
  ⟨sp.host, sp.template, sp.slug⟩

structure SpecNetworks where
  template : String
  slug : String
  networks : List Network
  deriving DecidableEq, Repr

/-! ## Stored backups -/

inductive BackupState where
  | creating
  | complete
  | failed
  deriving DecidableEq, Repr

/-- The text of a state, as the row stores it. -/
def BackupState.string : BackupState → String
  | creating => "creating"
  | complete => "complete"
  | failed => "failed"

/-- A byte stream that has been read to its end. -/
abbrev Bytes : Type := List UInt8

structure ExcludedPaths where
  patterns : List String
  entries : Int
  bytes : Int
  deriving DecidableEq, Repr

/-- `store.BackupVolume`. An old row carries its manifest inline, a new one only its digest. -/
structure BackupVolume where
  name : String
  sizeBytes : Int
  manifest : Bytes
  manifestSHA256 : String
  excluded : Option ExcludedPaths
  deriving DecidableEq, Repr

structure Backup where
  id : String
  host : String
  template : String
  slug : String
  state : BackupState
  volumes : List BackupVolume
  image : String
  mode : String
  deriving DecidableEq, Repr

def Backup.target (b : Backup) : SpecId :=
  ⟨b.host, b.template, b.slug⟩

end PodmanApi
