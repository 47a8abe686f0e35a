/-
# PodmanApi.Store.SpecColumns — a spec as the columns of its row.

`PutSpec` and `GetSpec` of `internal/store/sqlite.go`. A nil map or slice is `none` here. The secrets and the
domains do not tell nil from empty when they are read back; `jsonOrNull` keeps nil as NULL. `encoding/json` and
AES-GCM are parameters with their round trips; a map that is read back has its own order.
-/
import Mathlib.Data.Option.Basic
import PodmanApi.Calls.Fallible
import PodmanApi.Data

namespace PodmanApi.SpecColumns

open Calls

/-- `json.Marshal` and `json.Unmarshal` for a type with nil. -/
structure Json (α : Type) (same : α → α → Prop) where
  marshal : Option α → Except Error String
  unmarshal : String → Except String (Option α)
  unmarshal_marshal : ∀ a t, marshal a = .ok t → ∃ b, unmarshal t = .ok b ∧ Option.Rel same a b

/-- `seal`, which draws a nonce, and `open`. -/
structure Cipher (Key : Type) where
  sealWith : Key → Nat → String → Except Error (List UInt8)
  openWith : Key → List UInt8 → Except String String
  open_seal : ∀ key nonce t blob, sealWith key nonce t = .ok blob → openWith key blob = .ok t
  sealed_ne_nil : ∀ key nonce t blob, sealWith key nonce t = .ok blob → blob ≠ []

/-- Equality of Go maps, with `R` for the values. -/
def SameMap {α : Type} (R : α → α → Prop) (m m' : GoMap α) : Prop :=
  ∀ k, Option.Rel R (m.get? k) (m'.get? k)

/-- The formats of the columns; `SameValue` is equality up to the way a number is written. -/
structure Formats (Key : Type) where
  SameValue : Value → Value → Prop
  parameters : Json (GoMap Value) (SameMap SameValue)
  secrets : Json (GoMap String) (SameMap Eq)
  injectorSecrets : Json (List InjectorSecret) Eq
  strings : Json (List String) Eq
  volumeMeta : Json (GoMap AppliedVolumeMarker) (SameMap Eq)
  networks : Json (List Network) Eq
  cipher : Cipher Key

/-- `store.Spec` with its nils. -/
structure NilableSpec where
  id : SpecId
  parameters : Option (GoMap Value)
  secrets : Option (GoMap String)
  injectorSecrets : Option (List InjectorSecret)
  domains : Option (List String)
  appliedVolumes : Option (List String)
  appliedVolumeMeta : Option (GoMap AppliedVolumeMarker)
  appliedNetworks : Option (List Network)
  created : Int
  updated : Int

/-- A row of `specs`; a blob that is NULL is empty. -/
structure SpecRow where
  parameters : String
  secrets : List UInt8
  injectorSecrets : List UInt8
  domains : String
  appliedVolumes : Option String
  appliedVolumeMeta : Option String
  appliedNetworks : Option String
  created : Int
  updated : Int

structure SQLite (Key : Type) where
  keys : Option Key
  specs : SpecId → Option SpecRow

variable {Key α β : Type} {same : α → α → Prop}

def Json.read (j : Json α same) (column text : String) : Except Error (Option α) :=
  match j.unmarshal text with
  | .ok v => .ok v
  | .error e => .error (.wrap "" (.sentinel .specCorrupt) (": " ++ column ++ ": " ++ e))

def jsonOrNull (j : Json α same) : Option α → Except Error (Option String)
  | none => .ok none
  | some v => do
    let b ← j.marshal (some v)
    pure (some b)

def unmarshalNullable (j : Json α same) (column : String) : Option String → Except Error (Option α)
  | none => .ok none
  | some raw => j.read column raw

variable {R : List β → List β → Prop}

/-- The column of a secret field: nothing for an empty one. -/
def sealColumn (c : Cipher Key) (keys : Option Key) (j : Json (List β) R) (nonce : Nat) (v : Option (List β)) :
    Except Error (List UInt8) :=
  if v.getD [] = [] then .ok []
  else match keys with
    | none => .error (.sentinel .secretsNeedKey)
    | some key => do
      let text ← j.marshal v
      c.sealWith key nonce text

def openColumn (c : Cipher Key) (keys : Option Key) (j : Json (List β) R) (column : String)
    (blob : List UInt8) : Except Error (Option (List β)) :=
  if blob = [] then .ok none
  else match keys with
    | none => .error (.sentinel .secretsNeedKey)
    | some key =>
      match c.openWith key blob with
      | .error e => .error (.wrap "" (.sentinel .secretsUndecryptable) (": decrypt " ++ column ++ ": " ++ e))
      | .ok text => j.read column text

namespace SQLite

variable (s : SQLite Key) (f : Formats Key)

/-- `PutSpec` at the time `now`, with two nonces and what the statement returns. -/
def putSpec (nonce injNonce : Nat) (now : Int) (exec : Except Error Unit) (sp : NilableSpec) :
    Except Error (SQLite Key) := do
  let params ← f.parameters.marshal sp.parameters
  let blob ← sealColumn f.cipher s.keys f.secrets nonce sp.secrets
  let injBlob ← sealColumn f.cipher s.keys f.injectorSecrets injNonce sp.injectorSecrets
  let domJSON ← f.strings.marshal (some (sp.domains.getD []))
  let appliedVolumes ← jsonOrNull f.strings sp.appliedVolumes
  let appliedVolumeMeta ← jsonOrNull f.volumeMeta sp.appliedVolumeMeta
  let appliedNetworks ← jsonOrNull f.networks sp.appliedNetworks
  exec
  -- on a conflict the row keeps the time of its creation
  let created := ((s.specs sp.id).map SpecRow.created).getD now
  pure { s with specs := Function.update s.specs sp.id (some ⟨params, blob, injBlob, domJSON, appliedVolumes,
    appliedVolumeMeta, appliedNetworks, created, now⟩) }

def getSpec (id : SpecId) : Except Error NilableSpec :=
  match s.specs id with
  | none => .error (.sentinel .storeNotFound)
  | some row => do
    let params ← f.parameters.read "parameters" row.parameters
    let secrets ← openColumn f.cipher s.keys f.secrets "secrets" row.secrets
    let injectorSecrets ← openColumn f.cipher s.keys f.injectorSecrets "injector_secrets" row.injectorSecrets
    let domains ← f.strings.read "domains" row.domains
    let appliedVolumes ← unmarshalNullable f.strings "applied_volumes" row.appliedVolumes
    let appliedVolumeMeta ← unmarshalNullable f.volumeMeta "applied_volume_meta" row.appliedVolumeMeta
    let appliedNetworks ← unmarshalNullable f.networks "applied_networks" row.appliedNetworks
    pure ⟨id, params, secrets, injectorSecrets, domains, appliedVolumes, appliedVolumeMeta, appliedNetworks,
      row.created, row.updated⟩

end SQLite

/-- What a spec and the one that is read back have in common. -/
structure ReadBack (f : Formats Key) (sp got : NilableSpec) : Prop where
  id : got.id = sp.id
  parameters : Option.Rel (SameMap f.SameValue) sp.parameters got.parameters
  secrets : SameMap Eq (sp.secrets.getD []) (got.secrets.getD [])
  injectorSecrets : got.injectorSecrets.getD [] = sp.injectorSecrets.getD []
  domains : got.domains.getD [] = sp.domains.getD []
  appliedVolumes : got.appliedVolumes = sp.appliedVolumes
  appliedVolumeMeta : Option.Rel (SameMap Eq) sp.appliedVolumeMeta got.appliedVolumeMeta
  appliedNetworks : got.appliedNetworks = sp.appliedNetworks

theorem read_marshal {j : Json α same} {a : Option α} {t : String} (column : String) (h : j.marshal a = .ok t) :
    ∃ b, j.read column t = .ok b ∧ Option.Rel same a b := by
  obtain ⟨b, hb, hsame⟩ := j.unmarshal_marshal a t h
  refine ⟨b, ?_, hsame⟩
  rw [Json.read, hb]

theorem unmarshal_jsonOrNull {j : Json α same} {a : Option α} {raw : Option String} (column : String)
    (h : jsonOrNull j a = .ok raw) : ∃ b, unmarshalNullable j column raw = .ok b ∧ Option.Rel same a b := by
  cases a with
  | none =>
    obtain rfl := Except.ok.inj h
    exact ⟨none, rfl, .none⟩
  | some v =>
    obtain ⟨t, ht, hraw⟩ := bind_eq_ok.1 h
    obtain rfl := Except.ok.inj hraw
    exact read_marshal column ht

theorem open_sealColumn {c : Cipher Key} {keys : Option Key} {j : Json (List β) R} {nonce : Nat}
    {v : Option (List β)} {blob : List UInt8} (column : String) (hR : R [] [])
    (h : sealColumn c keys j nonce v = .ok blob) :
    ∃ b, openColumn c keys j column blob = .ok b ∧ R (v.getD []) (b.getD []) := by
  unfold sealColumn at h
  split at h
  · rename_i hempty
    obtain rfl := Except.ok.inj h
    refine ⟨none, rfl, ?_⟩
    rw [hempty]
    exact hR
  · rename_i hsome
    cases keys with
    | none => cases h
    | some key =>
      obtain ⟨t, ht, hseal⟩ := bind_eq_ok.1 h
      obtain ⟨b, hread, hsame⟩ := read_marshal column ht
      refine ⟨b, ?_, ?_⟩
      · rw [openColumn, if_neg (c.sealed_ne_nil _ _ _ _ hseal)]
        simp only [c.open_seal _ _ _ _ hseal]
        exact hread
      · cases hsame with
        | none => exact hR
        | some hab => exact hab

theorem eq_of_rel_eq {a b : Option α} (h : Option.Rel Eq a b) : b = a := by
  cases h with
  | none => rfl
  | some hab => rw [hab]

variable {s s' : SQLite Key} {f : Formats Key} {nonce injNonce : Nat} {now : Int} {exec : Except Error Unit}
variable {sp : NilableSpec}

/-- A spec that was put is read back as it was, whatever the row held before, and no other row is touched. -/
theorem getSpec_putSpec (h : s.putSpec f nonce injNonce now exec sp = .ok s') :
    (∃ got, s'.getSpec f sp.id = .ok got ∧ ReadBack f sp got) ∧ ∀ id, id ≠ sp.id → s'.specs id = s.specs id := by
  obtain ⟨params, hparams, h⟩ := bind_eq_ok.1 h
  obtain ⟨blob, hblob, h⟩ := bind_eq_ok.1 h
  obtain ⟨injBlob, hinj, h⟩ := bind_eq_ok.1 h
  obtain ⟨domJSON, hdom, h⟩ := bind_eq_ok.1 h
  obtain ⟨volumes, hvolumes, h⟩ := bind_eq_ok.1 h
  obtain ⟨volumeMeta, hmeta, h⟩ := bind_eq_ok.1 h
  obtain ⟨networks, hnetworks, h⟩ := bind_eq_ok.1 h
  obtain ⟨_, _, h⟩ := bind_eq_ok.1 h
  obtain rfl := Except.ok.inj h
  refine ⟨?_, fun id hid => Function.update_of_ne hid _ _⟩
  -- column by column, what was written is what is read
  obtain ⟨params', hparams', hsameParams⟩ := read_marshal "parameters" hparams
  obtain ⟨secrets', hsecrets', hsameSecrets⟩ := open_sealColumn "secrets" (fun _ => .none) hblob
  obtain ⟨inj', hinj', hsameInj⟩ := open_sealColumn "injector_secrets" rfl hinj
  obtain ⟨dom', hdom', hsameDom⟩ := read_marshal "domains" hdom
  obtain ⟨volumes', hvolumes', hsameVolumes⟩ := unmarshal_jsonOrNull "applied_volumes" hvolumes
  obtain ⟨meta', hmeta', hsameMeta⟩ := unmarshal_jsonOrNull "applied_volume_meta" hmeta
  obtain ⟨networks', hnetworks', hsameNetworks⟩ := unmarshal_jsonOrNull "applied_networks" hnetworks
  refine ⟨⟨sp.id, params', secrets', inj', dom', volumes', meta', networks',
    ((s.specs sp.id).map SpecRow.created).getD now, now⟩, ?_, rfl, hsameParams, hsameSecrets, hsameInj.symm, ?_,
    eq_of_rel_eq hsameVolumes, hsameMeta, eq_of_rel_eq hsameNetworks⟩
  · unfold SQLite.getSpec
    simp only [Function.update_self, hparams', hsecrets', hinj', hdom', hvolumes', hmeta', hnetworks']
    rfl
  · rw [eq_of_rel_eq hsameDom]
    rfl

/-- A format for one value. -/
def Json.only [DecidableEq α] (a : α) (text : String) (hsame : same a a) : Json α same where
  marshal v := if v = some a then .ok text else .error (.text "json: unsupported value")
  unmarshal _ := .ok (some a)
  unmarshal_marshal v t h := by
    split at h
    · rename_i hv
      exact ⟨some a, rfl, hv ▸ .some hsame⟩
    · cases h

theorem SameMap.refl (m : GoMap β) : SameMap Eq m m := by
  intro k
  cases m.get? k with
  | none => exact .none
  | some v => exact .some rfl

def exampleFormats : Formats Unit where
  SameValue := Eq
  parameters := .only [("port", .number "5432")] "\x7b\"port\":5432\x7d" (.refl _)
  secrets := .only [("password", "hunter2")] "\x7b\"password\":\"hunter2\"\x7d" (.refl _)
  injectorSecrets := .only [] "[]" rfl
  strings := .only [] "[]" rfl
  volumeMeta := .only [] "\x7b\x7d" (.refl _)
  networks := .only [] "[]" rfl
  cipher := {
    sealWith _ _ t := if t = "\x7b\"password\":\"hunter2\"\x7d" then .ok [42] else .error (.text "no entropy")
    openWith _ _ := .ok "\x7b\"password\":\"hunter2\"\x7d"
    open_seal key nonce t blob h := by
      split at h
      · rename_i ht
        rw [ht]
      · cases h
    sealed_ne_nil key nonce t blob h := by
      split at h
      · cases h
        exact List.cons_ne_nil _ _
      · cases h }

/-- With a known empty list of volumes and no record of networks. -/
def exampleSpec : NilableSpec :=
  ⟨⟨"engine-1", "db", "main"⟩, some [("port", .number "5432")], some [("password", "hunter2")], none, none, some [],
    none, none, 0, 0⟩

theorem example_read_back :
    ∃ s', SQLite.putSpec ⟨some (), fun _ => none⟩ exampleFormats 1 2 60 (.ok ()) exampleSpec = .ok s' ∧
      ∃ got, s'.getSpec exampleFormats exampleSpec.id = .ok got ∧ got.appliedVolumes = some [] := by
  refine ⟨_, rfl, ?_⟩
  obtain ⟨⟨got, hgot, hback⟩, -⟩ := getSpec_putSpec
    (show SQLite.putSpec ⟨some (), fun _ => none⟩ exampleFormats 1 2 60 (.ok ()) exampleSpec = .ok _ from rfl)
  exact ⟨got, hgot, hback.appliedVolumes⟩

end PodmanApi.SpecColumns
