/-
# PodmanApi.Calls.Fallible — pure computations that may fail.

The counterparts, for `Except`, of the rules for programs of calls: one inversion for a sequence, and the
rule that carries an invariant through a loop that stops at its first error.
-/
import Mathlib.Logic.Basic

namespace PodmanApi.Calls

variable {ε α β : Type}

theorem bind_eq_ok {x : Except ε α} {f : α → Except ε β} {b : β} :
    (x >>= f) = .ok b ↔ ∃ a, x = .ok a ∧ f a = .ok b := by
  cases x with
  | error e => exact ⟨nofun, fun ⟨_, h, _⟩ => nomatch h⟩
  | ok a =>
    constructor
    · exact fun h => ⟨a, rfl, h⟩
    · rintro ⟨_, ha, h⟩
      obtain rfl := Except.ok.inj ha
      exact h

theorem mapError_eq_ok {f : ε → ε} {r : Except ε α} {a : α} : r.mapError f = .ok a ↔ r = .ok a := by
  cases r with
  | ok b => exact Iff.rfl
  | error e => constructor <;> exact fun h => by cases h

/-- Loop rule: `I` holds of the elements processed so far and of the accumulator. -/
theorem foldlM_eq_ok {γ : Type} {body : α → γ → Except ε α} (I : List γ → α → Prop) (xs : List γ)
    (hbody : ∀ done x a b, x ∈ xs → I done a → body a x = .ok b → I (done ++ [x]) b)
    {a b : α} (h : I [] a) (hok : xs.foldlM body a = .ok b) : I xs b := by
  suffices H : ∀ rest done a, (∀ x ∈ rest, x ∈ xs) → I done a → rest.foldlM body a = .ok b →
      I (done ++ rest) b from H xs [] a (fun _ hx => hx) h hok
  intro rest
  induction rest with
  | nil =>
    intro done a _ hI hok
    obtain rfl := Except.ok.inj hok
    rwa [List.append_nil]
  | cons x rest ih =>
    intro done a hmem hI hok
    obtain ⟨c, hc, hrest⟩ := bind_eq_ok.1 hok
    have hnext := hbody done x a c (hmem x List.mem_cons_self) hI hc
    have hfinal := ih (done ++ [x]) c (fun y hy => hmem y (List.mem_cons_of_mem _ hy)) hnext hrest
    rwa [List.append_assoc] at hfinal

end PodmanApi.Calls
