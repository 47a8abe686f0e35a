/-
# PodmanApi.Store.RenameHost — a host id is renamed in two stores.

`RenameHost` of `internal/store`: the SQLite store updates the host column of three tables in one
transaction, the in-memory store re-keys its maps entry by entry while it iterates them. Both make the same
checks first. The text of a key may not be
taken apart again: `memKey` joins with bars, and the key of a host secret is cut at its first NUL.
-/
import PodmanApi.Data

namespace PodmanApi.HostRename

open GoStd

/-- A row of `host_secrets`. -/
structure HostSecret where
  host : String
  name : String
  value : String
  deriving DecidableEq

/-- Why a rename fails; the last is the primary key of a table. -/
inductive Refusal where
  | conflict
  | hasBackups
  | constraint
  deriving DecidableEq

/-! ## The SQLite store -/

/-- The tables that have a host column, with distinct primary keys. -/
structure SQLite where
  specs : List Spec
  hostSecrets : List HostSecret
  backups : List Backup
  specs_nodup : (specs.map Spec.id).Nodup
  hostSecrets_nodup : (hostSecrets.map fun r => (r.host, r.name)).Nodup
  backups_nodup : (backups.map Backup.id).Nodup

namespace SQLite

variable (s : SQLite) (oldID newID : String)

def checkHostRename : Except Refusal Unit :=
  if s.specs.any (·.host == newID) || s.hostSecrets.any (·.host == newID) || s.backups.any (·.host == newID) then
    .error .conflict
  else if s.backups.any (·.host == oldID) then .error .hasBackups
  else .ok ()

end SQLite

/-- `UPDATE specs SET host = newID WHERE host = oldID`, for one row. -/
def rekeySpec (oldID newID : String) (sp : Spec) : Spec :=
  if sp.host = oldID then { sp with host := newID } else sp

/-- The same for `host_secrets`. -/
def rekeySecret (oldID newID : String) (r : HostSecret) : HostSecret :=
  if r.host = oldID then { r with host := newID } else r

/-- The same for `backups`. -/
def rekeyBackup (oldID newID : String) (b : Backup) : Backup :=
  if b.host = oldID then { b with host := newID } else b

/-- `RenameHost`: a statement that breaks a primary key rolls the transaction back. -/
def SQLite.renameHost (s : SQLite) (oldID newID : String) : Except Refusal SQLite := do
  s.checkHostRename oldID newID
  let specs := s.specs.map (rekeySpec oldID newID)
  let hostSecrets := s.hostSecrets.map (rekeySecret oldID newID)
  let backups := s.backups.map (rekeyBackup oldID newID)
  if h : (specs.map Spec.id).Nodup ∧ (hostSecrets.map fun r => (r.host, r.name)).Nodup ∧
      (backups.map Backup.id).Nodup then
    pure ⟨specs, hostSecrets, backups, h.1, h.2.1, h.2.2⟩
  else throw .constraint

/-! ## The in-memory store -/

structure Memory where
  specs : GoMap Spec
  hostSecrets : GoMap String
  backups : GoMap Backup

def memKey (host template slug : String) : String :=
  host ++ "|" ++ template ++ "|" ++ slug

def secretKey (host name : String) : String :=
  host ++ "\x00" ++ name

/-- `strings.Cut(key, "\x00")` -/
def cutKey (key : String) : Option (String × String) :=
  (cutAt '\x00' key.toList).map fun p => (String.ofList p.1, String.ofList p.2)

/-- A loop over a map that re-keys some of its entries. -/
def rekeyLoop {β : Type} (change : String × β → Option (String × β)) (m : GoMap β) : GoMap β :=
  m.foldl (fun acc e => (change e).elim acc fun new => (acc.erase e.1).set new.1 new.2) m

namespace Memory

variable (m : Memory) (oldID newID : String)

def hostRenameChecksLocked : Except Refusal Unit :=
  if m.specs.any (·.2.host == newID) then .error .conflict
  else if m.hostSecrets.any fun e => (cutKey e.1).any (·.1 == newID) then .error .conflict
  else if m.backups.any (·.2.host == newID) then .error .conflict
  else if m.backups.any (·.2.host == oldID) then .error .hasBackups
  else .ok ()

/-- The three loops of `RenameHost`. -/
def rekey : Memory where
  specs := rekeyLoop (fun (_, sp) =>
    if sp.host ≠ oldID then none
    else some (memKey newID sp.template sp.slug, { sp with host := newID })) m.specs
  hostSecrets := rekeyLoop (fun (key, v) => (cutKey key).bind fun (host, name) =>
    if host ≠ oldID then none else some (secretKey newID name, v)) m.hostSecrets
  backups := m.backups.foldl (fun acc e =>
    if e.2.host ≠ oldID then acc else acc.set e.1 { e.2 with host := newID }) m.backups

def renameHost : Except Refusal Memory := do
  m.hostRenameChecksLocked oldID newID
  pure (m.rekey oldID newID)

end Memory

/-! ## Keys that can be taken apart -/

theorem last_separator_unique {c : Char} {l l' r r' : List Char} (h : l ++ c :: r = l' ++ c :: r')
    (hr : c ∉ r) (hr' : c ∉ r') : l = l' ∧ r = r' := by
  induction l generalizing l' with
  | nil =>
    cases l' with
    | nil => exact ⟨rfl, (List.cons.inj h).2⟩
    | cons d l' => exact absurd ((List.cons.inj h).2 ▸ by simp) hr
  | cons d l ih =>
    cases l' with
    | nil => exact absurd ((List.cons.inj h).2.symm ▸ by simp) hr'
    | cons d' l' =>
      obtain ⟨rfl, htail⟩ := List.cons.inj h
      obtain ⟨rfl, hrest⟩ := ih htail
      exact ⟨rfl, hrest⟩

theorem cutKey_secretKey {host : String} (name : String) (h : '\x00' ∉ host.toList) :
    cutKey (secretKey host name) = some (host, name) := by
  have hcut : ∀ l r : List Char, '\x00' ∉ l → cutAt '\x00' (l ++ '\x00' :: r) = some (l, r) := by
    intro l r hl
    induction l with
    | nil => rfl
    | cons d l ih =>
      rw [List.mem_cons, not_or] at hl
      simp [cutAt, Ne.symm hl.1, ih hl.2]
  simp [cutKey, secretKey, hcut _ _ h]

/-- The templates and slugs of the rows hold no bar, and no host with a secret holds a NUL. -/
structure Separable (s : SQLite) : Prop where
  specs : ∀ sp ∈ s.specs, '|' ∉ sp.template.toList ∧ '|' ∉ sp.slug.toList
  hostSecrets : ∀ r ∈ s.hostSecrets, '\x00' ∉ r.host.toList

def specKey (sp : Spec) : String := memKey sp.host sp.template sp.slug

theorem specKey_inj {a b : Spec} (h : specKey a = specKey b) (ha : '|' ∉ a.template.toList ∧ '|' ∉ a.slug.toList)
    (hb : '|' ∉ b.template.toList ∧ '|' ∉ b.slug.toList) : a.id = b.id := by
  have hlist : (a.host.toList ++ '|' :: a.template.toList) ++ '|' :: a.slug.toList =
      (b.host.toList ++ '|' :: b.template.toList) ++ '|' :: b.slug.toList := by
    simpa [specKey, memKey] using congrArg String.toList h
  obtain ⟨hfront, hslug⟩ := last_separator_unique hlist ha.2 hb.2
  obtain ⟨hhost, htemplate⟩ := last_separator_unique hfront ha.1 hb.1
  rw [Spec.id, Spec.id, String.toList_inj.1 hhost, String.toList_inj.1 htemplate, String.toList_inj.1 hslug]

/-! ## Re-keying a map while iterating it -/

def rekeyed {β : Type} (change : String × β → Option (String × β)) (e : String × β) : String × β :=
  (change e).getD e

/-- The loop changes the entries one by one, if the key of an entry, old or new, is that of no other. -/
theorem rekeyLoop_perm {β : Type} {change : String × β → Option (String × β)} {m : GoMap β} (hnodup : m.Nodup)
    (hkey : ∀ x ∈ m, ∀ z ∈ m, x ≠ z →
      x.1 ≠ z.1 ∧ (rekeyed change x).1 ≠ z.1 ∧ (rekeyed change x).1 ≠ (rekeyed change z).1) :
    (rekeyLoop change m).Perm (m.map (rekeyed change)) := by
  suffices H : ∀ rest done acc, m = done ++ rest → acc.Perm (done.map (rekeyed change) ++ rest) →
      (rest.foldl (fun acc e => (change e).elim acc fun new => (GoMap.erase acc e.1).set new.1 new.2) acc).Perm
        (m.map (rekeyed change)) from H m [] m rfl (.refl _)
  intro rest
  induction rest with
  | nil =>
    intro done acc hm hacc
    rw [List.append_nil] at hm hacc
    exact hm ▸ hacc
  | cons x rest ih =>
    intro done acc hm hacc
    refine ih (done ++ [x]) _ (by simp [hm]) ?_
    rw [List.map_append, List.append_assoc]
    dsimp only
    cases hx : change x with
    | none => simpa [rekeyed, hx] using hacc
    | some y =>
      have hy : rekeyed change x = y := by simp [rekeyed, hx]
      subst hm
      -- of what is there only `x` has its key, and the new key is not there
      have hother : ∀ e ∈ done.map (rekeyed change) ++ rest, e.1 ≠ x.1 ∧ e.1 ≠ y.1 := by
        have hmiddle := List.nodup_middle.1 hnodup
        have hne : ∀ z ∈ done ++ rest, z ≠ x := fun z hz heq => (List.nodup_cons.1 hmiddle).1 (heq ▸ hz)
        intro e he
        rcases List.mem_append.1 he with hdone | hrest
        · obtain ⟨z, hz, rfl⟩ := List.mem_map.1 hdone
          exact hy ▸ (hkey z (by simp [hz]) x (by simp) (hne z (by simp [hz]))).2
        · have hxe := hkey x (by simp) e (by simp [hrest]) (hne e (by simp [hrest])).symm
          exact ⟨hxe.1.symm, hy ▸ hxe.2.1.symm⟩
      have herase : (GoMap.erase acc x.1).Perm (done.map (rekeyed change) ++ rest) := by
        have hkept : (done.map (rekeyed change) ++ rest).filter (fun p => p.1 != x.1) = _ :=
          List.filter_eq_self.2 fun e he => by simpa using (hother e he).1
        have hperm := (hacc.trans List.perm_middle).filter fun p => p.1 != x.1
        rwa [List.filter_cons_of_neg (by simp), hkept] at hperm
      have hhas : ¬GoMap.has (GoMap.erase acc x.1) y.1 = true := by
        intro hhas
        obtain ⟨e, he, hkey⟩ := List.any_eq_true.1 hhas
        exact (hother e (herase.subset he)).2 (beq_iff_eq.1 hkey)
      rw [Option.elim_some, GoMap.set, if_neg hhas, List.map_singleton, hy]
      refine (herase.append_right _).trans ?_
      rw [List.append_assoc]
      exact List.perm_append_comm.append_left _

theorem rekeyLoop_rows {α β : Type} {change : String × β → Option (String × β)} {m : GoMap β} {l : List α}
    {enc : α → String × β} {f : α → α} (hm : m.Perm (l.map enc)) (hnodup : l.Nodup)
    (hchange : ∀ a ∈ l, rekeyed change (enc a) = enc (f a))
    (hkey : ∀ a ∈ l, ∀ b ∈ l, (enc a).1 = (enc b).1 ∨ (enc (f a)).1 = (enc b).1 ∨ (enc (f a)).1 = (enc (f b)).1 →
      a = b) : (rekeyLoop change m).Perm ((l.map f).map enc) := by
  have hloop : (rekeyLoop change m).Perm (m.map (rekeyed change)) := by
    refine rekeyLoop_perm (hm.nodup_iff.2 ?_) fun x hx z hz hne => ?_
    · exact hnodup.map_on fun a ha b hb heq => hkey a ha b hb (.inl (congrArg Prod.fst heq))
    · obtain ⟨a, ha, rfl⟩ := List.mem_map.1 (hm.subset hx)
      obtain ⟨b, hb, rfl⟩ := List.mem_map.1 (hm.subset hz)
      rw [hchange a ha, hchange b hb]
      have hab := fun h => hne (congrArg enc (hkey a ha b hb h))
      exact ⟨fun h => hab (.inl h), fun h => hab (.inr (.inl h)), fun h => hab (.inr (.inr h))⟩
  refine (hloop.trans (hm.map _)).trans (.of_eq ?_)
  rw [List.map_map, List.map_map]
  exact List.map_congr_left hchange

/-! ## Both stores -/

/-- The in-memory store holds the contents of the tables. -/
structure Represents (s : SQLite) (m : Memory) : Prop where
  specs : m.specs.Perm (s.specs.map fun sp => (specKey sp, sp))
  hostSecrets : m.hostSecrets.Perm (s.hostSecrets.map fun r => (secretKey r.host r.name, r.value))
  backups : m.backups.Perm (s.backups.map fun b => (b.id, b))

variable {s : SQLite} {m : Memory} {oldID newID : String}

theorem check_agrees (oldID newID : String) (hm : Represents s m) (hsep : Separable s) :
    m.hostRenameChecksLocked oldID newID = s.checkHostRename oldID newID := by
  have hspecs : m.specs.any (·.2.host == newID) = s.specs.any (·.host == newID) := by
    rw [hm.specs.any_eq, List.any_map]
    rfl
  have hsecrets : m.hostSecrets.any (fun e => (cutKey e.1).any (·.1 == newID)) =
      s.hostSecrets.any (·.host == newID) := by
    rw [hm.hostSecrets.any_eq, List.any_map]
    rw [Bool.eq_iff_iff, List.any_eq_true, List.any_eq_true]
    refine exists_congr fun r => and_congr_right fun hr => ?_
    simp [cutKey_secretKey _ (hsep.hostSecrets r hr)]
  have hbackups : ∀ id, m.backups.any (·.2.host == id) = s.backups.any (·.host == id) := by
    intro id
    rw [hm.backups.any_eq, List.any_map]
    rfl
  rw [Memory.hostRenameChecksLocked, SQLite.checkHostRename, hspecs, hsecrets, hbackups, hbackups]
  simp only [Bool.or_eq_true]
  grind

theorem checkHostRename_ok (h : s.checkHostRename oldID newID = .ok ()) :
    (∀ sp ∈ s.specs, sp.host ≠ newID) ∧ (∀ r ∈ s.hostSecrets, r.host ≠ newID) ∧
      ∀ b ∈ s.backups, b.host ≠ oldID := by
  unfold SQLite.checkHostRename at h
  split at h
  · cases h
  · split at h
    · cases h
    · simp_all

theorem specs_rekeyed (oldID : String) (hsep : Separable s) (hfree : ∀ sp ∈ s.specs, sp.host ≠ newID) :
    ∀ a ∈ s.specs, ∀ b ∈ s.specs, specKey a = specKey b ∨ specKey (rekeySpec oldID newID a) = specKey b ∨
      specKey (rekeySpec oldID newID a) = specKey (rekeySpec oldID newID b) → a = b := by
  intro a ha b hb h
  have hbars : ∀ sp ∈ s.specs, '|' ∉ (rekeySpec oldID newID sp).template.toList ∧
      '|' ∉ (rekeySpec oldID newID sp).slug.toList := by
    intro sp hsp
    unfold rekeySpec
    split <;> exact hsep.specs sp hsp
  refine List.inj_on_of_nodup_map s.specs_nodup ha hb ?_
  have hfa := hfree a ha
  have hfb := hfree b hb
  rcases h with h | h | h
  · exact specKey_inj h (hsep.specs a ha) (hsep.specs b hb)
  · have hid := specKey_inj h (hbars a ha) (hsep.specs b hb)
    grind [rekeySpec, Spec.id]
  · have hid := specKey_inj h (hbars a ha) (hbars b hb)
    grind [rekeySpec, Spec.id]

theorem hostSecrets_rekeyed (oldID : String) (hsep : Separable s) (hfree : ∀ r ∈ s.hostSecrets, r.host ≠ newID)
    (hnew : '\x00' ∉ newID.toList) : ∀ a ∈ s.hostSecrets, ∀ b ∈ s.hostSecrets,
      secretKey a.host a.name = secretKey b.host b.name ∨
      secretKey (rekeySecret oldID newID a).host (rekeySecret oldID newID a).name = secretKey b.host b.name ∨
      secretKey (rekeySecret oldID newID a).host (rekeySecret oldID newID a).name =
        secretKey (rekeySecret oldID newID b).host (rekeySecret oldID newID b).name → a = b := by
  intro a ha b hb h
  have hcut : ∀ r ∈ s.hostSecrets, cutKey (secretKey (rekeySecret oldID newID r).host (rekeySecret oldID newID r).name) =
      some ((rekeySecret oldID newID r).host, (rekeySecret oldID newID r).name) := by
    intro r hr
    refine cutKey_secretKey _ ?_
    unfold rekeySecret
    split
    · exact hnew
    · exact hsep.hostSecrets r hr
  have hcuta := cutKey_secretKey a.name (hsep.hostSecrets a ha)
  have hcutb := cutKey_secretKey b.name (hsep.hostSecrets b hb)
  have hfa := hfree a ha
  have hfb := hfree b hb
  have hra := hcut a ha
  have hrb := hcut b hb
  refine List.inj_on_of_nodup_map s.hostSecrets_nodup ha hb ?_
  grind [rekeySecret]

/-- Both stores refuse a rename exactly if the check does, with the same error. Otherwise every row of the old id
is re-keyed, all other rows and columns stay, and the two stores have the same contents again. -/
theorem renameHost_agrees (s : SQLite) (m : Memory) (oldID newID : String) (hm : Represents s m)
    (hsep : Separable s) (hnew : '\x00' ∉ newID.toList) : (∀ e, s.checkHostRename oldID newID = .error e →
      s.renameHost oldID newID = .error e ∧ m.renameHost oldID newID = .error e) ∧
    (s.checkHostRename oldID newID = .ok () → ∃ s' m',
      s.renameHost oldID newID = .ok s' ∧ m.renameHost oldID newID = .ok m' ∧ Represents s' m' ∧
      s'.specs = s.specs.map (rekeySpec oldID newID) ∧
      s'.hostSecrets = s.hostSecrets.map (rekeySecret oldID newID) ∧ s'.backups = s.backups) := by
  have hcheck := check_agrees oldID newID hm hsep
  refine ⟨fun e he => ?_, fun hok => ?_⟩
  · rw [SQLite.renameHost, Memory.renameHost, hcheck, he]
    exact ⟨rfl, rfl⟩
  obtain ⟨hspecs, hsecrets, hbackups⟩ := checkHostRename_ok hok
  have hspecsKey := specs_rekeyed oldID hsep hspecs
  have hsecretsKey := hostSecrets_rekeyed oldID hsep hsecrets hnew
  have hspecsNodup : s.specs.Nodup := .of_map _ s.specs_nodup
  have hsecretsNodup : s.hostSecrets.Nodup := .of_map _ s.hostSecrets_nodup
  have hsame : s.backups.map (rekeyBackup oldID newID) = s.backups := by
    have hid : ∀ b ∈ s.backups, rekeyBackup oldID newID b = b := fun b hb => if_neg (hbackups b hb)
    rw [List.map_congr_left hid, List.map_id']
  have hnodup : ((s.specs.map (rekeySpec oldID newID)).map Spec.id).Nodup ∧
      ((s.hostSecrets.map (rekeySecret oldID newID)).map fun r => (r.host, r.name)).Nodup ∧
      ((s.backups.map (rekeyBackup oldID newID)).map Backup.id).Nodup := by
    rw [hsame, List.map_map, List.map_map]
    refine ⟨hspecsNodup.map_on fun a ha b hb heq => hspecsKey a ha b hb (.inr (.inr ?_)),
      hsecretsNodup.map_on fun a ha b hb heq => hsecretsKey a ha b hb (.inr (.inr ?_)), s.backups_nodup⟩
    · simp_all [specKey, Spec.id]
    · simp_all
  have hsql : s.renameHost oldID newID = .ok ⟨_, _, _, hnodup.1, hnodup.2.1, hnodup.2.2⟩ := by
    rw [SQLite.renameHost, hok]
    exact dif_pos hnodup
  have hmem : m.renameHost oldID newID = .ok (m.rekey oldID newID) := by
    rw [Memory.renameHost, hcheck, hok]
    rfl
  refine ⟨_, _, hsql, hmem, ⟨?_, ?_, ?_⟩, rfl, rfl, hsame⟩
  · refine rekeyLoop_rows hm.specs hspecsNodup (fun sp _ => ?_) hspecsKey
    by_cases hhost : sp.host = oldID <;> simp [rekeyed, rekeySpec, specKey, hhost]
  · refine rekeyLoop_rows hm.hostSecrets hsecretsNodup (fun r hr => ?_) hsecretsKey
    have hcut := cutKey_secretKey r.name (hsep.hostSecrets r hr)
    simp only [rekeyed, hcut]
    by_cases hhost : r.host = oldID <;> simp [rekeySecret, hhost]
  · -- no backup is of the old id, so its loop changes nothing
    have hkept : ∀ l : GoMap Backup, (∀ e ∈ l, e.2.host ≠ oldID) → ∀ acc, l.foldl (fun acc e =>
        if e.2.host ≠ oldID then acc else GoMap.set acc e.1 { e.2 with host := newID }) acc = acc := by
      intro l
      induction l with
      | nil => exact fun _ _ => rfl
      | cons e l ih =>
        intro hl acc
        obtain ⟨he, hl⟩ := List.forall_mem_cons.1 hl
        rw [List.foldl_cons, if_pos he]
        exact ih hl acc
    refine (List.Perm.of_eq (hkept _ (fun e he => ?_) _)).trans ?_
    · obtain ⟨b, hb, rfl⟩ := List.mem_map.1 (hm.backups.subset he)
      exact hbackups b hb
    · show m.backups.Perm ((s.backups.map (rekeyBackup oldID newID)).map _)
      rw [hsame]
      exact hm.backups

def bareSpec (host template slug : String) : Spec :=
  ⟨host, template, slug, [], [], [], [], none, none, []⟩

def withSpecs (specs : List Spec) (h : (specs.map Spec.id).Nodup) : SQLite :=
  ⟨specs, [], [], h, List.nodup_nil, List.nodup_nil⟩

def memoryWith (specs : List Spec) : Memory :=
  ⟨specs.map fun sp => (specKey sp, sp), [], []⟩

theorem represents_withSpecs (specs : List Spec) (h : (specs.map Spec.id).Nodup) :
    Represents (withSpecs specs h) (memoryWith specs) :=
  ⟨.refl _, .refl _, .refl _⟩

theorem web_row_renamed : ∃ s' m',
    (withSpecs [bareSpec "old" "web" "shop"] (by decide)).renameHost "old" "new" = .ok s' ∧
    (memoryWith [bareSpec "old" "web" "shop"]).renameHost "old" "new" = .ok m' ∧ Represents s' m' ∧
    s'.specs = [bareSpec "new" "web" "shop"] := by
  obtain ⟨s', m', hs', hm', hrep, hspecs, -⟩ := (renameHost_agrees _ _ "old" "new"
    (represents_withSpecs [bareSpec "old" "web" "shop"] (by decide)) ⟨by decide, nofun⟩ (by decide)).2 rfl
  exact ⟨s', m', hs', hm', hrep, hspecs⟩

/-- A template with a bar in its id: in memory the renamed row overwrites that
of another host, in SQLite it does not. -/
theorem barred_rename_overwrites :
    ∃ h s' m', (withSpecs [bareSpec "old" "c" "d", bareSpec "a" "b|c" "d"] h).renameHost "old" "a|b" = .ok s' ∧
      (memoryWith [bareSpec "old" "c" "d", bareSpec "a" "b|c" "d"]).renameHost "old" "a|b" = .ok m' ∧
      s'.specs.length = 2 ∧ m'.specs.length = 1 :=
  ⟨by decide, _, _, rfl, rfl, rfl, by decide +kernel⟩

end PodmanApi.HostRename
