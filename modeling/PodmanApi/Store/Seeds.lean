/-
# PodmanApi.Store.Seeds — the bundled templates are written into an empty catalog.

`seedTemplates` of `server/server.go`, over the `templates` table (without its other columns). It is a loop of
single writes behind a test for an empty table: a table that a failed boot left half filled is never filled up.
-/
import PodmanApi.Data

namespace PodmanApi.Seeds

open GoStd

/-- What becomes of a call to the store; a write that fails may have taken effect. -/
inductive Fate where
  | answered
  | failed (e : Error) (written : Bool)

/-- What a boot leaves in the table, and what the function returns unless the daemon stops in it. -/
abbrev Booted : Type := GoMap Template × Option (Except Error Unit)

variable {rows : GoMap Template} {seeds : List Template} {validate : Template → Except Error Unit}

/-- `PutTemplate` -/
def put (rows : GoMap Template) (t : Template) : GoMap Template :=
  GoMap.set rows t.metadata.id t

/-- The last loop of `seedTemplates`. The daemon stops at the call for which there is no fate. -/
def writeSeeds (rows : GoMap Template) : List Template → List Fate → Booted
  | [], _ => (rows, some (.ok ()))
  | _ :: _, [] => (rows, none)
  | t :: _, .failed e written :: _ => (if written then put rows t else rows, some (.error e))
  | t :: ts, .answered :: fates => writeSeeds (put rows t) ts fates

def validateSeeds (validate : Template → Except Error Unit) (seeds : List Template) : Except Error PUnit :=
  forM seeds fun t => (validate t).mapError (.wrap ("seed template " ++ quote t.metadata.id ++ " invalid: ") · "")

/-- `seedTemplates`; `parsed` is what `ParseSeeds` returns, and `validate` is `ValidateTemplate`. -/
def seedTemplates (validate : Template → Except Error Unit) (parsed : Except Error (List Template))
    (rows : GoMap Template) : List Fate → Booted
  | [] => (rows, none)
  | .failed e _ :: _ => (rows, some (.error e))
  | .answered :: fates =>
    if rows.length > 0 then (rows, some (.ok ()))
    else match parsed with
      | .error e => (rows, some (.error e))
      | .ok seeds =>
        match validateSeeds validate seeds with
        | .error e => (rows, some (.error e))
        | .ok _ => writeSeeds rows seeds fates

/-- The tables that boots leave which stop inside `seedTemplates` or end it with an error. -/
inductive Unseeded (validate : Template → Except Error Unit) (seeds : List Template) : GoMap Template → Prop where
  | empty : Unseeded validate seeds []
  | boot {rows : GoMap Template} (h : Unseeded validate seeds rows) (fates : List Fate)
      (hout : (seedTemplates validate (.ok seeds) rows fates).2 ≠ some (.ok ())) :
      Unseeded validate seeds (seedTemplates validate (.ok seeds) rows fates).1

def Complete (seeds : List Template) (rows : GoMap Template) : Prop :=
  ∀ t ∈ seeds, GoMap.get? rows t.metadata.id = some t

/-- The first boot that gets through `seedTemplates` leaves every seed in the table. -/
def SeedsAll (validate : Template → Except Error Unit) (seeds : List Template) : Prop :=
  ∀ rows fates, Unseeded validate seeds rows → (seedTemplates validate (.ok seeds) rows fates).2 = some (.ok ()) →
    Complete seeds (seedTemplates validate (.ok seeds) rows fates).1

/-- The seeds are all the same template. -/
def Same (seeds : List Template) : Prop :=
  ∀ t ∈ seeds, ∀ t' ∈ seeds, t = t'

/-- Where the seeds are all the same, the first write completes the table. -/
theorem writeSeeds_same (hsame : Same seeds) {ts : List Template} (hts : ts ⊆ seeds)
    (h : rows = [] ∨ Complete seeds rows) (hlast : ts = [] → Complete seeds rows) (fates : List Fate) :
    let r := writeSeeds rows ts fates
    (r.1 = [] ∨ Complete seeds r.1) ∧ (r.2 = some (.ok ()) → Complete seeds r.1) := by
  induction ts generalizing rows fates with
  | nil => exact ⟨h, fun _ => hlast rfl⟩
  | cons t ts ih =>
    obtain ⟨ht, hts⟩ := List.cons_subset.1 hts
    have hput : Complete seeds (put rows t) := by
      intro x hx
      rw [hsame x hx t ht, put, GoMap.get?_set, if_pos rfl]
    rcases fates with - | ⟨- | ⟨e, - | -⟩, fates⟩
    · exact ⟨h, nofun⟩
    · exact ih hts (.inr hput) (fun _ => hput) fates
    · exact ⟨h, nofun⟩
    · exact ⟨.inr hput, nofun⟩

theorem seedTemplates_same (hsame : Same seeds) (h : rows = [] ∨ Complete seeds rows) (fates : List Fate) :
    let r := seedTemplates validate (.ok seeds) rows fates
    (r.1 = [] ∨ Complete seeds r.1) ∧ (r.2 = some (.ok ()) → Complete seeds r.1) := by
  unfold seedTemplates
  split
  · exact ⟨h, nofun⟩
  · exact ⟨h, nofun⟩
  split
  · rename_i hpos
    exact ⟨h, fun _ => h.resolve_left (List.ne_nil_of_length_pos hpos)⟩
  dsimp only
  split
  · exact ⟨h, nofun⟩
  · refine writeSeeds_same hsame (List.Subset.refl seeds) h ?_ _
    rintro rfl
    exact nofun

theorem Unseeded.same (hsame : Same seeds) (h : Unseeded validate seeds rows) : rows = [] ∨ Complete seeds rows := by
  induction h with
  | empty => exact .inl rfl
  | boot _ fates _ ih => exact (seedTemplates_same hsame ih fates).1

theorem validateSeeds_ok (h : ∀ t ∈ seeds, validate t = .ok ()) : validateSeeds validate seeds = .ok ⟨⟩ := by
  unfold validateSeeds
  induction seeds with
  | nil => rfl
  | cons t ts ih =>
    rw [List.forM_cons, h t List.mem_cons_self]
    exact ih fun t ht => h t (List.mem_cons_of_mem _ ht)

/-- The first boot stops after its first write, and the second one finds a row. -/
theorem not_seedsAll {t x : Template} {ts : List Template} (hx : x ∈ ts) (hne : x ≠ t)
    (hvalid : ∀ x ∈ t :: ts, validate x = .ok ()) : ¬SeedsAll validate (t :: ts) := by
  intro h
  have hstop : seedTemplates validate (.ok (t :: ts)) [] [.answered, .answered] = (put [] t, none) := by
    simp only [seedTemplates, validateSeeds_ok hvalid]
    cases ts with
    | nil => cases hx
    | cons => rfl
  have hhalf := Unseeded.boot .empty [.answered, .answered] (by rw [hstop]; nofun)
  rw [hstop] at hhalf
  have hrow : GoMap.get? (put [] t) x.metadata.id = some x := h _ [.answered] hhalf rfl x (List.mem_cons_of_mem t hx)
  rw [put, GoMap.get?_set] at hrow
  split at hrow
  · exact hne (Option.some.inj hrow).symm
  · cases hrow

/-- Whatever the failures, the seeds are complete in the end exactly when they are all the same. -/
theorem seedsAll_iff (validate : Template → Except Error Unit) (seeds : List Template)
    (hvalid : ∀ t ∈ seeds, validate t = .ok ()) : SeedsAll validate seeds ↔ Same seeds := by
  constructor
  · intro h
    cases seeds with
    | nil => exact nofun
    | cons t ts =>
      have hhead : ∀ x ∈ t :: ts, x = t := by
        intro x hx
        by_contra hne
        exact not_seedsAll ((List.mem_cons.1 hx).resolve_left hne) hne hvalid h
      intro x hx x' hx'
      rw [hhead x hx, hhead x' hx']
  · exact fun hsame rows fates hrows => (seedTemplates_same hsame (hrows.same hsame) fates).2

def plainSeed (id : String) : Template := ⟨⟨id, [], [], [], [], none, [], none, none⟩, ""⟩

theorem postgres_seedsAll : SeedsAll (fun _ => .ok ()) [plainSeed "postgres"] :=
  (seedsAll_iff (fun _ => .ok ()) [plainSeed "postgres"] fun _ _ => rfl).2 (by simp [Same])

theorem two_seeds_not_seedsAll : ¬SeedsAll (fun _ => .ok ()) [plainSeed "postgres", plainSeed "redis"] :=
  not_seedsAll List.mem_cons_self (by decide) fun _ _ => rfl

end PodmanApi.Seeds
