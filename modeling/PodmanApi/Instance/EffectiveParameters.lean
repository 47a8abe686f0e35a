/-
# PodmanApi.Instance.EffectiveParameters — what a move makes of the stored parameters.

`Migrate` and `planMove` merge the row's parameters into a new map and put the slug into it; `Rename` puts the
new slug into a clone of the row's map, and a clone of nil is nil. An apply fills in the defaults before it
checks the contract, `planMove` checks it without them.
-/
import PodmanApi.Instance.Migrate
import PodmanApi.Instance.Rename

namespace PodmanApi

namespace GoMap

variable {α : Type} {m : GoMap α} {k j : String} {v : α}

theorem has_iff_get? : has m k = true ↔ (get? m k).isSome = true := by
  constructor
  · intro h
    obtain ⟨v, hv⟩ := get?_of_has h
    rw [hv]
    rfl
  · intro h
    by_contra hhas
    rw [get?_of_not_has hhas] at h
    cases h

theorem has_set_iff : has (set m k v) j = true ↔ k = j ∨ has m j = true := by
  rw [has_iff_get?, get?_set, has_iff_get?]
  split <;> simp [*]

end GoMap

namespace Render

variable {m : Meta} {params : GoMap Value} {k : String} {secrets : GoMap String} {allow : Bool}

theorem has_applyDefaults : GoMap.has (applyDefaults m params) k = true ↔
    GoMap.has params k = true ∨ ∃ p ∈ m.parameters, p.name = k ∧ p.default.isSome = true := by
  rw [applyDefaults_eq]
  induction m.parameters generalizing params with
  | nil => simp
  | cons p ps ih =>
    have hfirst : GoMap.has (fillDefault params p) k = true ↔
        GoMap.has params k = true ∨ p.name = k ∧ p.default.isSome = true := by
      unfold fillDefault
      cases p.default with
      | none => simp
      | some v =>
        dsimp only
        split
        · rename_i hgiven
          exact ⟨.inl, fun h => h.elim id fun hk => hk.1 ▸ hgiven⟩
        · simp [GoMap.has]
    rw [List.foldl_cons, ih, hfirst, or_assoc]
    simp

theorem validate_ok_iff : validate m params secrets allow = .ok () ↔
    (∀ p ∈ m.parameters, p.required = true → GoMap.has params p.name = true) ∧
    (∀ k, GoMap.has params k = true → ∃ p ∈ m.parameters, p.name = k) ∧
    (allow = false → ∀ k ∈ m.perInstance, GoMap.has secrets k = true) ∧
    ∀ k ∈ GoMap.keys secrets, k ∈ m.perInstance := by
  have hnil : validate m params secrets allow = .ok () ↔ contractProblems m params secrets allow = [] := by
    unfold validate
    split <;> simp_all
  have hkeys : ∀ k, k ∈ GoMap.keys params ↔ GoMap.has params k = true := by simp [GoMap.keys, GoMap.has]
  rw [hnil, contractProblems]
  cases allow <;> simp [← hkeys]

end Render

namespace Instance

open Render

/-- The parameters of the renamed instance; there are none where the assignment to a nil map panics. -/
def renameParams (tmpl : String) (req : RenameRequest) (spec : Spec) (isNil : Bool) : Option (GoMap Value) :=
  if isNil then none else some (Service.renameApply tmpl req spec).parameters

/-- The contract is checked with success on all three ways: by the apply of a migrate, which tolerates missing
secrets, the plan of an evacuation, and the apply of a rename, which has not panicked before. -/
def Accepted (m : Meta) (spec : Spec) (isNil : Bool) (move : MigrateRequest) (tmpl : String) (req : RenameRequest) :
    Prop :=
  validate m (applyDefaults m (move.effective spec)) spec.secrets true = .ok () ∧
  validate m (move.effective spec) spec.secrets true = .ok () ∧
  ∃ params, renameParams tmpl req spec isNil = some params ∧
    validate m (applyDefaults m params) spec.secrets false = .ok ()

/-- Parameters that pass the check with their defaults pass it on every way a row can take, without a panic,
exactly when the map is not nil, the template declares a slug, and the row has every other required parameter,
default or not. -/
theorem effective_accepted_iff (m : Meta) (spec : Spec) (isNil : Bool) (move : MigrateRequest) (tmpl : String)
    (req : RenameRequest) (hmove : move.parameters = [])
    (hstored : validate m (applyDefaults m spec.parameters) spec.secrets false = .ok ()) :
    Accepted m spec isNil move tmpl req ↔ isNil = false ∧ (∃ p ∈ m.parameters, p.name = "slug") ∧
      ∀ p ∈ m.parameters, p.required = true → p.name = "slug" ∨ GoMap.has spec.parameters p.name = true := by
  obtain ⟨hrequired, hknown, hmissing, hsecrets⟩ := validate_ok_iff.1 hstored
  have heffective : ∀ k, GoMap.has (move.effective spec) k = true ↔ "slug" = k ∨ GoMap.has spec.parameters k = true := by
    intro k
    rw [MigrateRequest.effective, hmove]
    exact GoMap.has_set_iff
  constructor
  · rintro ⟨-, hplan, params, hparams, -⟩
    obtain ⟨hpresent, hdeclared, -⟩ := validate_ok_iff.1 hplan
    cases isNil with
    | true => cases hparams
    | false =>
      exact ⟨rfl, hdeclared "slug" ((heffective _).2 (.inl rfl)), fun p hp hreq =>
        ((heffective _).1 (hpresent p hp hreq)).imp_left Eq.symm⟩
  · rintro ⟨rfl, hslug, hpresent⟩
    have hdeclared : ∀ k, "slug" = k ∨ GoMap.has spec.parameters k = true → ∃ p ∈ m.parameters, p.name = k := by
      rintro k (rfl | hk)
      · exact hslug
      · exact hknown k (has_applyDefaults.2 (.inl hk))
    have happly : ∀ params allow, (∀ k, GoMap.has params k = true ↔ "slug" = k ∨ GoMap.has spec.parameters k = true) →
        validate m (applyDefaults m params) spec.secrets allow = .ok () := by
      refine fun params allow hparams => validate_ok_iff.2 ⟨fun p hp hreq => ?_, fun k hk => ?_, fun _ => hmissing rfl,
        hsecrets⟩
      · have hfilled := has_applyDefaults.1 (hrequired p hp hreq)
        exact has_applyDefaults.2 (hfilled.imp_left fun h => (hparams _).2 (.inr h))
      · rcases has_applyDefaults.1 hk with hk | hdefault
        · exact hdeclared k ((hparams k).1 hk)
        · exact hknown k (has_applyDefaults.2 (.inr hdefault))
    refine ⟨happly _ _ heffective, ?_, _, rfl, happly _ _ fun k => GoMap.has_set_iff⟩
    exact validate_ok_iff.2 ⟨fun p hp hreq => (heffective _).2 ((hpresent p hp hreq).imp_left Eq.symm),
      fun k hk => hdeclared k ((heffective k).1 hk), nofun, hsecrets⟩

def slugMeta : Meta :=
  { exampleTemplate.metadata with parameters := [⟨"slug", true, none⟩] }

def slugRow : Spec :=
  { exampleRow with parameters := [("slug", .string "shop")] }

theorem slug_row_accepted :
    Accepted slugMeta slugRow false ⟨"engine-1", "engine-2", "web", "shop", [], []⟩ "web" ⟨"store", none, false⟩ :=
  (effective_accepted_iff slugMeta slugRow false _ "web" _ rfl (by decide +kernel)).2
    ⟨rfl, by decide +kernel, by decide +kernel⟩

/-- A template without parameters: a migrate and a plan add a slug that it does not know, and a rename of a row
whose map is nil panics. -/
theorem bare_row_refused :
    validate exampleTemplate.metadata (applyDefaults exampleTemplate.metadata exampleRow.parameters)
      exampleRow.secrets false = .ok () ∧
    ¬Accepted exampleTemplate.metadata exampleRow false ⟨"engine-1", "engine-2", "web", "shop", [], []⟩ "web"
      ⟨"store", none, false⟩ ∧ renameParams "web" ⟨"store", none, false⟩ exampleRow true = none :=
  ⟨by decide +kernel, fun h => absurd h.1 (by decide +kernel), rfl⟩

end Instance

end PodmanApi
