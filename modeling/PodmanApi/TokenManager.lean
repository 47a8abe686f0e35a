/-
# PodmanApi.TokenManager — the key file and the live key store.

`Create`, `Revoke` and `Reload` of `internal/auth/tokenmgr.go`, each under the manager's lock. The file is
replaced by a rename, so that a write which fails leaves it as it was.

`Revoke` stores what it has read before it looks at it. A file that is missing or lists no keys empties the
live store, and every bearer token is refused.
-/
import PodmanApi.Calls.Fallible
import PodmanApi.Data

namespace PodmanApi.Auth

open GoStd Calls

structure APIKey where
  id : String
  secretHash : String
  scopes : List String
  description : String
  deriving DecidableEq

/-- `unicode` and `yaml`, as far as the manager uses them, over files with contents of type `β`. -/
structure Tools (β : Type) where
  /-- `unicode.IsLetter` or `unicode.IsDigit` -/
  isWord : Char → Bool
  marshal : List APIKey → β
  decode : β → Except Error (List APIKey)
  decode_marshal : ∀ keys, decode (marshal keys) = .ok keys

/-- The key file, if there is one, and the live store. -/
structure State (β : Type) where
  file : Option β
  live : List APIKey

/-- What a call meets outside: the errors of reading and of replacing the file, the token, and the salt and
digest of its hash. -/
structure Outside where
  readError : Option Error
  writeError : Option Error
  token : Except Error String
  digest : Except Error String

inductive Request where
  | create (id description : String) (scopes : List String)
  | revoke (id : String)
  | reload

/-! ## The source -/

/-- The checks of `ParseKeysYAML`. -/
def checkKeys (i : Nat) : List APIKey → Except Error Unit
  | [] => .ok ()
  | k :: keys =>
    if k.id = "" then .error (.text ("keys[" ++ toString i ++ "]: id is required"))
    else if k.secretHash = "" then .error (.text ("keys[" ++ toString i ++ "]: secret_hash is required"))
    else checkKeys (i + 1) keys

namespace Tools

variable {β : Type} (tools : Tools β)

def parseKeysYAML (raw : β) : Except Error (List APIKey) := do
  let keys ← (tools.decode raw).mapError (.wrap "parse keys: " · "")
  checkKeys 0 keys
  pure keys

/-- The key list in the file: none, if there is no file. -/
def keysIn : Option β → Except Error (List APIKey)
  | none => .ok []
  | some raw => (tools.parseKeysYAML raw).mapError (.wrap "parse keys: " · "")

def readFile (o : Outside) (file : Option β) : Except Error (List APIKey) :=
  match o.readError with
  | some e => .error (.wrap "read keys: " e "")
  | none => tools.keysIn file

/-- `writeFile` and the store that follows it. -/
def replace (o : Outside) (s : State β) (keys : List APIKey) : Except Error Unit × State β :=
  match o.writeError with
  | some e => (.error e, s)
  | none => (.ok (), ⟨some (tools.marshal keys), keys⟩)

/-- `Create` up to the write: the keys with the new one. -/
def prepare (o : Outside) (file : Option β) (id description : String) (scopes : List String) :
    Except Error (List APIKey) :=
  if id = "" then .error (.text "id is required")
  else if !id.toList.all fun r => tools.isWord r || r == '-' || r == '_' then
    .error (.text "token id may only contain letters, digits, hyphens, and underscores")
  else if scopes.isEmpty then .error (.text "at least one scope is required")
  else do
    let keys ← tools.readFile o file
    if keys.any (·.id == id) then throw (.text "token id already exists")
    else do
      let _ ← o.token.mapError (.wrap "generate token: " · "")
      let digest ← o.digest.mapError (.wrap "hash token: " · "")
      pure (keys ++ [⟨id, "$argon2id$v=19$m=65536,t=3,p=4$" ++ digest, scopes, description⟩])

/-- `Create`; the token itself goes to the caller and is not kept. -/
def create (o : Outside) (id description : String) (scopes : List String) (s : State β) :
    Except Error Unit × State β :=
  match tools.prepare o s.file id description scopes with
  | .error e => (.error e, s)
  | .ok keys => tools.replace o s keys

def revoke (o : Outside) (id : String) (s : State β) : Except Error Unit × State β :=
  match tools.readFile o s.file with
  | .error e => (.error e, s)
  | .ok keys =>
    -- the store follows the file, whatever comes of the request
    let s := { s with live := keys }
    let next := keys.filter (·.id != id)
    if !keys.any (·.id == id) then (.error (.text "token id not found"), s)
    else if next.isEmpty then
      (.error (.text "cannot revoke the last token: all bearer authentication would be locked out"), s)
    else tools.replace o s next

def reload (o : Outside) (s : State β) : Except Error Unit × State β :=
  match tools.readFile o s.file with
  | .error e => (.error e, s)
  | .ok keys =>
    if keys.isEmpty then (.error (.text "zero keys in file, reload skipped to avoid lockout"), s)
    else (.ok (), { s with live := keys })

def call (o : Outside) (s : State β) : Request → Except Error Unit × State β
  | .create id description scopes => tools.create o id description scopes s
  | .revoke id => tools.revoke o id s
  | .reload => tools.reload o s

end Tools

/-! ## One call -/

variable {β : Type}

/-- What is promised of a call made in a state, with its result. -/
structure Proper (tools : Tools β) (s : State β) (q : Request) (r : Except Error Unit × State β) : Prop where
  synced : r.1 = .ok () → tools.keysIn r.2.file = .ok r.2.live
  kept : ∀ e, r.1 = .error e → r.2.file = s.file
  unique : ∀ id description scopes, q = .create id description scopes → r.1 = .ok () →
    ∀ keys, tools.keysIn s.file = .ok keys → ∀ k ∈ keys, k.id ≠ id
  revoked : ∀ id, q = .revoke id → r.1 = .ok () →
    ∀ keys, keys = r.2.live ∨ tools.keysIn r.2.file = .ok keys → ∀ k ∈ keys, k.id ≠ id
  live : s.live ≠ [] → r.2.live ≠ []

/-- A revocation reads a file without keys while there are live ones. -/
def Empties (tools : Tools β) (o : Outside) (s : State β) (q : Request) : Prop :=
  (∃ id, q = .revoke id) ∧ tools.readFile o s.file = .ok [] ∧ s.live ≠ []

/-- The keys have what `ParseKeysYAML` asks of them. -/
def Listed (keys : List APIKey) : Prop :=
  ∀ k ∈ keys, k.id ≠ "" ∧ k.secretHash ≠ ""

variable {tools : Tools β} {o : Outside} {s s' : State β} {keys : List APIKey} {id description : String}
  {scopes : List String}

theorem checkKeys_ok (i : Nat) (keys : List APIKey) : checkKeys i keys = .ok () ↔ Listed keys := by
  induction keys generalizing i with
  | nil => simp [checkKeys, Listed]
  | cons k keys ih =>
    unfold checkKeys
    split
    · simp_all [Listed]
    · split
      · simp_all [Listed]
      · simp_all [Listed]

theorem keysIn_marshal (h : Listed keys) : tools.keysIn (some (tools.marshal keys)) = .ok keys := by
  unfold Tools.keysIn Tools.parseKeysYAML
  dsimp only
  rw [tools.decode_marshal]
  show (do checkKeys 0 keys; pure keys : Except Error _).mapError _ = _
  rw [(checkKeys_ok 0 keys).2 h]
  rfl

theorem readFile_ok {file : Option β} (h : tools.readFile o file = .ok keys) :
    tools.keysIn file = .ok keys ∧ Listed keys := by
  unfold Tools.readFile at h
  split at h
  · cases h
  refine ⟨h, ?_⟩
  cases file with
  | none =>
    cases h
    exact nofun
  | some raw =>
    obtain ⟨read, -, h⟩ := bind_eq_ok.1 (mapError_eq_ok.1 h)
    obtain ⟨_, hcheck, h⟩ := bind_eq_ok.1 h
    cases h
    exact (checkKeys_ok 0 keys).1 hcheck

theorem prepare_ok (h : tools.prepare o s.file id description scopes = .ok keys) :
    ∃ old hash, tools.keysIn s.file = .ok old ∧ keys = old ++ [⟨id, hash, scopes, description⟩] ∧ Listed keys ∧
      ∀ k ∈ old, k.id ≠ id := by
  unfold Tools.prepare at h
  split at h
  · cases h
  rename_i hid
  split at h
  · cases h
  split at h
  · cases h
  obtain ⟨old, hread, h⟩ := bind_eq_ok.1 h
  obtain ⟨hfile, hlisted⟩ := readFile_ok hread
  split at h
  · cases h
  rename_i hfresh
  obtain ⟨_, -, h⟩ := bind_eq_ok.1 h
  obtain ⟨digest, -, h⟩ := bind_eq_ok.1 h
  cases h
  refine ⟨old, _, hfile, rfl, fun k hk => ?_, by simpa using hfresh⟩
  rcases List.mem_append.1 hk with hk | hk
  · exact hlisted k hk
  · rw [List.mem_singleton.1 hk]
    exact ⟨hid, by simp⟩

theorem replace_proper {q : Request} (hlisted : Listed keys) (hne : keys ≠ []) (hlive : s.live ≠ [] → s'.live ≠ [])
    (hfile : s'.file = s.file) (hunique : ∀ id description scopes, q = .create id description scopes →
      ∀ keys, tools.keysIn s.file = .ok keys → ∀ k ∈ keys, k.id ≠ id)
    (hrevoked : ∀ id, q = .revoke id → ∀ k ∈ keys, k.id ≠ id) : Proper tools s q (tools.replace o s' keys) := by
  unfold Tools.replace
  split
  · exact ⟨nofun, fun _ _ => hfile, nofun, nofun, hlive⟩
  · have hback : tools.keysIn (some (tools.marshal keys)) = .ok keys := keysIn_marshal hlisted
    refine ⟨fun _ => hback, nofun, fun id d sc hq _ => hunique id d sc hq, fun id hq _ keys' hkeys => ?_, fun _ => hne⟩
    have hsame : keys' = keys := hkeys.elim (fun h => h) fun h => Except.ok.inj (h.symm.trans hback)
    exact hsame ▸ hrevoked id hq

theorem proper_iff (tools : Tools β) (o : Outside) (s : State β) (q : Request) :
    Proper tools s q (tools.call o s q) ↔ ¬Empties tools o s q := by
  constructor
  · rintro h ⟨⟨id, rfl⟩, hread, hne⟩
    refine h.live hne ?_
    simp [Tools.call, Tools.revoke, hread]
  · intro h
    have hstuck : ∀ e, Proper tools s q (.error e, s) := fun e => ⟨nofun, fun _ _ => rfl, nofun, nofun, fun h => h⟩
    cases q with
    | create id description scopes =>
      simp only [Tools.call, Tools.create]
      split
      · exact hstuck _
      · rename_i keys hprepare
        obtain ⟨old, hash, hfile, rfl, hlisted, hfresh⟩ := prepare_ok hprepare
        refine replace_proper hlisted (by simp) (fun h => h) rfl (fun _ _ _ hq keys hkeys => ?_) nofun
        cases hq
        cases hfile.symm.trans hkeys
        exact hfresh
    | revoke id =>
      simp only [Tools.call, Tools.revoke]
      split
      · exact hstuck _
      · rename_i keys hread
        have hlive : s.live ≠ [] → keys ≠ [] := fun hne hnil => h ⟨⟨id, rfl⟩, hnil ▸ hread, hne⟩
        have hrefused : ∀ e, Proper tools s (.revoke id) (.error e, { s with live := keys }) :=
          fun e => ⟨nofun, fun _ _ => rfl, nofun, nofun, hlive⟩
        split
        · exact hrefused _
        split
        · exact hrefused _
        rename_i hrest
        refine replace_proper (fun k hk => (readFile_ok hread).2 k (List.mem_filter.1 hk).1) (by simpa using hrest)
          hlive rfl nofun fun id' hq k hk => ?_
        cases hq
        simpa using (List.mem_filter.1 hk).2
    | reload =>
      simp only [Tools.call, Tools.reload]
      split
      · exact hstuck _
      · rename_i keys hread
        split
        · exact hstuck _
        · rename_i hne
          exact ⟨fun _ => (readFile_ok hread).1, nofun, nofun, nofun, fun _ => by simpa using hne⟩

/-! ## Histories -/

/-- The file is edited or removed from outside, or a call is made. -/
inductive Event (β : Type) where
  | edit (file : Option β)
  | call (o : Outside) (q : Request)

def Tools.after (tools : Tools β) (s : State β) : Event β → State β
  | .edit file => { s with file := file }
  | .call o q => (tools.call o s q).2

/-- Every call of a history is proper exactly when none of them is a revocation that reads no keys. -/
theorem history_proper_iff (tools : Tools β) (s : State β) (events : List (Event β)) :
    (∀ past o q rest, events = past ++ .call o q :: rest →
      Proper tools (past.foldl tools.after s) q (tools.call o (past.foldl tools.after s) q)) ↔
    ∀ past o q rest, events = past ++ .call o q :: rest → ¬Empties tools o (past.foldl tools.after s) q :=
  forall₄_congr fun past o q _ => imp_congr_right fun _ => proper_iff tools o (past.foldl tools.after s) q

/-- The contents of a file are its keys. -/
def plainTools : Tools (List APIKey) where
  isWord := Char.isAlphanum
  marshal keys := keys
  decode := .ok
  decode_marshal _ := rfl

/-- The file is removed while a key is live. A revocation then returns an error, and no key is live. -/
theorem revoke_empties : ∃ (o : Outside) (s : State (List APIKey)), s.live ≠ [] ∧
    plainTools.call o (plainTools.after s (.edit none)) (.revoke "ops") = (.error (.text "token id not found"), ⟨none, []⟩) :=
  ⟨⟨none, none, .ok "", .ok ""⟩, ⟨none, [⟨"ops", "hash", ["read"], ""⟩]⟩, nofun, rfl⟩

end PodmanApi.Auth
