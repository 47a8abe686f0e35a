/-
# PodmanApi.Calls.Pool — programs that run side by side.

A `Pool` is what programs of calls share and what each has left to do; a step answers the next call of one
thread, so everything between two calls is interleaved freely.

  * `Shared Γ ι σ` is a service that knows which thread calls, so that a mutex can have an owner.
  * `watched` adds what each thread has done, folded from its own answered calls. What a thread does by itself
    is proved about its program alone, and `Pool.Run.ensures` carries it to every interleaving.
  * `Shared.when` keeps the steps that meet a condition on the state before them.
-/
import Mathlib.Data.List.Induction
import Mathlib.Logic.Function.Basic
import PodmanApi.Calls.Prog

namespace PodmanApi.Calls

open Function (update update_self update_of_ne)

theorem update_cases {κ β : Type} [DecidableEq κ] {f : κ → β} {k j : κ} {v x : β}
    (h : update f k v j = x) : (j = k ∧ v = x) ∨ (j ≠ k ∧ f j = x) := by
  by_cases hj : j = k
  · subst hj
    exact .inl ⟨rfl, (update_self j v f).symm.trans h⟩
  · exact .inr ⟨hj, (update_of_ne hj v f).symm.trans h⟩

/-- A service that several threads share. -/
abbrev Shared (Γ : Sig) (ι σ : Type) : Type :=
  ι → Service Γ σ

/-- Threads, what they share and what each has left to do. -/
structure Pool (Γ : Sig) (ι σ α : Type) where
  state : σ
  left : ι → Prog Γ α

variable {Γ : Sig} {ι σ τ α : Type} [DecidableEq ι]

variable {C : ι → σ → Γ.Op → Prop} {t : List (ι × Event Γ)} {e : ι × Event Γ}

namespace Pool

/-- One thread receives the answer to its next call. -/
inductive Step (S : Shared Γ ι σ) (x : Pool Γ ι σ α) : ι × Event Γ → Pool Γ ι σ α → Prop where
  | answer {i : ι} {op : Γ.Op} {k : Γ.Ans op → Prog Γ α} {r : Γ.Ans op} {s : σ}
      (hnext : x.left i = .call op k) (hr : S i x.state op r s) :
      Step S x (i, ⟨op, r⟩) ⟨s, update x.left i (k r)⟩

/-- An interleaving up to some point, and the calls answered in it. -/
inductive Run (S : Shared Γ ι σ) (x : Pool Γ ι σ α) : List (ι × Event Γ) → Pool Γ ι σ α → Prop where
  | start : Run S x [] x
  | next {t : List (ι × Event Γ)} {e : ι × Event Γ} {y z : Pool Γ ι σ α} (run : Run S x t y)
      (step : Step S y e z) : Run S x (t ++ [e]) z

variable {S : Shared Γ ι σ} {x y z : Pool Γ ι σ α} {t : List (ι × Event Γ)}

/-- What every step keeps holds wherever a run arrives. -/
theorem Run.invariant (I : Pool Γ ι σ α → Prop) (h : Run S x t y) (hx : I x)
    (hstep : ∀ y e z, I y → Step S y e z → I z) : I y := by
  induction h with
  | start => exact hx
  | next _ step ih => exact hstep _ _ _ ih step

variable {S' : Shared Γ ι σ}

theorem Step.mono (h : Step S x e y) (hS : ∀ i s op r s', S i s op r s' → S' i s op r s') : Step S' x e y := by
  cases h with
  | answer hnext hr => exact .answer hnext (hS _ _ _ _ _ hr)

theorem Run.mono (h : Run S x t y) (hS : ∀ i s op r s', S i s op r s' → S' i s op r s') : Run S' x t y := by
  induction h with
  | start => exact .start
  | next _ step ih => exact ih.next (step.mono hS)

end Pool

/-- The steps that meet a condition on the state before them. -/
def Shared.when (C : ι → σ → Γ.Op → Prop) (S : Shared Γ ι σ) : Shared Γ ι σ :=
  fun i s op r s' => C i s op ∧ S i s op r s'

variable {S : Shared Γ ι σ} {i : ι}

/-- A run whose steps meet the condition, as an invariant shows. -/
theorem Pool.Run.when {x y : Pool Γ ι σ α} (I : Pool Γ ι σ α → Prop) (h : Run S x t y) (hx : I x)
    (hstep : ∀ y e z, I y → Step S y e z → I z ∧ C e.1 y.state e.2.1) : Run (S.when C) x t y := by
  suffices H : I y ∧ Run (S.when C) x t y from H.2
  induction h with
  | start => exact ⟨hx, .start⟩
  | next _ step ih =>
    obtain ⟨hI, hC⟩ := hstep _ _ _ ih.1 step
    refine ⟨hI, ih.2.next ?_⟩
    cases step with
    | answer hnext hr => exact .answer hnext ⟨hC, hr⟩

/-! ## What a thread has done -/

/-- A shared service together with a summary, for each thread, of its own answered calls. -/
def watched (f : τ → Event Γ → τ) (S : Shared Γ ι σ) : Shared Γ ι (σ × (ι → τ)) :=
  fun i s op r s' => S i s.1 op r s'.1 ∧ s'.2 = update s.2 i (f (s.2 i) ⟨op, r⟩)

section Watched

variable {f : τ → Event Γ → τ} {G : ι → τ → Γ.Op → Prop} {Q : ι → τ → α → Prop}
  {S : Shared Γ ι (σ × (ι → τ))} {x y z : Pool Γ ι (σ × (ι → τ)) α}

/-- A shared service that keeps the summaries. -/
def Watches (f : τ → Event Γ → τ) (S : Shared Γ ι (σ × (ι → τ))) : Prop :=
  ∀ i s op r s', S i s op r s' → s'.2 = update s.2 i (f (s.2 i) ⟨op, r⟩)

theorem watches_watched (S : Shared Γ ι σ) : Watches f (watched f S) :=
  fun _ _ _ _ _ h => h.2

theorem Watches.when {C : ι → σ × (ι → τ) → Γ.Op → Prop} (h : Watches f S) : Watches f (S.when C) :=
  fun i s op r s' hstep => h i s op r s' hstep.2

/-- What is proved about each program by itself goes on to hold of what is left of it. -/
theorem Pool.Step.ensures (hS : Watches f S) (h : Step S y e z)
    (hy : ∀ i, Ensures (tracking f fun _ => True) (G i) (Q i) (y.left i) (y.state.2 i)) (i : ι) :
    Ensures (tracking f fun _ => True) (G i) (Q i) (z.left i) (z.state.2 i) := by
  cases h with
  | @answer j op k r s hnext hr =>
    have hwatch := hS j _ op r s hr
    by_cases hij : i = j
    · subst hij
      have hcall := hy i
      rw [hnext, ensures_call] at hcall
      simp only [update_self, hwatch]
      exact hcall.2 r _ ⟨trivial, rfl⟩
    · simp only [hwatch, update_of_ne hij]
      exact hy i

theorem Pool.Run.ensures (hS : Watches f S) (h : Run S x t y)
    (hx : ∀ i, Ensures (tracking f fun _ => True) (G i) (Q i) (x.left i) (x.state.2 i)) :
    ∀ i, Ensures (tracking f fun _ => True) (G i) (Q i) (y.left i) (y.state.2 i) :=
  h.invariant (fun y => ∀ i, Ensures (tracking f fun _ => True) (G i) (Q i) (y.left i) (y.state.2 i)) hx
    fun _ _ _ hy hstep => hstep.ensures hS hy

end Watched

/-! ## What has happened -/

section Logged

variable {S : Shared Γ ι σ} {x y : Pool Γ ι σ α} {t : List (ι × Event Γ)}

/-- A shared service together with a summary of all the calls answered so far. -/
def logged (f : τ → ι × Event Γ → τ) (S : Shared Γ ι σ) : Shared Γ ι (σ × τ) :=
  fun i s op r s' => S i s.1 op r s'.1 ∧ s'.2 = f s.2 (i, ⟨op, r⟩)

theorem Pool.Run.logged (f : τ → ι × Event Γ → τ) (h : Run S x t y) (w : τ) :
    Run (logged f S) ⟨(x.state, w), x.left⟩ t ⟨(y.state, t.foldl f w), y.left⟩ := by
  induction h with
  | start => exact .start
  | next _ step ih =>
    rw [List.foldl_concat]
    cases step with
    | @answer i op k r s hnext hr => exact ih.next (.answer (s := (s, _)) hnext ⟨hr, rfl⟩)

end Logged

/-! ## One thread among the others -/

section View

variable {S : Shared Γ ι σ} {x y : Pool Γ ι σ α} {t : List (ι × Event Γ)}

theorem Pool.Run.without {a : α} (h : Run S x t y) (hx : x.left i = .ret a) :
    y.left i = .ret a ∧ Run (S.when fun j _ _ => j ≠ i) x t y := by
  have hstep : ∀ y e z, y.left i = .ret a → Step S y e z → z.left i = .ret a ∧ e.1 ≠ i := by
    intro y e z hy hstep
    cases hstep with
    | @answer j op k r s hnext hr =>
      have hj : j ≠ i := by
        rintro rfl
        rw [hy] at hnext
        cases hnext
      exact ⟨(update_of_ne hj.symm _ _).trans hy, hj⟩
  exact ⟨h.invariant (fun y => y.left i = .ret a) hx fun y e z hy hs => (hstep y e z hy hs).1,
    h.when (fun y => y.left i = .ret a) hx hstep⟩

variable {G : ι → τ → Γ.Op → Prop} {R : σ → (ι → τ) → Prop} {Q : ι → τ → α → Prop} {T : ι → Service Γ τ}
  {a : ι → τ}

variable (hstep : ∀ i s a op r s', R s a → G i (a i) op → S i s op r s' → ∃ b, T i (a i) op r b ∧ R s' (update a i b))
  (hx : R x.state a) (hp : ∀ i, Ensures (T i) (G i) (Q i) (x.left i) (a i))

include hstep hx hp

/-- Rely and guarantee. Each thread has a state and a service `T i` of its own, against which its program is
proved; `R` relates the shared state to all of them. A step that keeps the guarantee `G i` is a step of the
thread's service and keeps `R`, so the others can rely on it. -/
theorem Pool.Run.rely (h : Run S x t y) :
    ∃ a', R y.state a' ∧ ∀ i, Ensures (T i) (G i) (Q i) (y.left i) (a' i) := by
  induction h with
  | start => exact ⟨a, hx, hp⟩
  | next _ step ih =>
    obtain ⟨a, hR, hensures⟩ := ih
    cases step with
    | @answer j op k r s hnext hr =>
      have hcall := hensures j
      rw [hnext, ensures_call] at hcall
      obtain ⟨b, hT, hR'⟩ := hstep j _ a op r s hR hcall.1 hr
      refine ⟨_, hR', fun i => ?_⟩
      dsimp only
      by_cases hij : i = j
      · subst hij
        rw [update_self, update_self]
        exact hcall.2 r b hT
      · rw [update_of_ne hij, update_of_ne hij]
        exact hensures i

/-- What rely and guarantee show of the state before each step and of its call is a condition that the steps
of the run meet. -/
theorem Pool.Run.rely_when (h : Run S x t y) :
    Run (S.when fun i s op => ∃ a, R s a ∧ G i (a i) op) x t y := by
  induction h with
  | start => exact .start
  | next run step ih =>
    obtain ⟨a, hR, hensures⟩ := run.rely hstep hx hp
    refine ih.next ?_
    cases step with
    | @answer j op k r s hnext hr =>
      have hcall := hensures j
      rw [hnext, ensures_call] at hcall
      exact .answer hnext ⟨⟨a, hR, hcall.1⟩, hr⟩

end View

/-! ## Schedules -/

/-- The answers of a shared service by a function; a call that has to wait has none. -/
abbrev Answers (Γ : Sig) (ι σ : Type) : Type :=
  ι → σ → (op : Γ.Op) → Option (Γ.Ans op × σ)

variable {H : Answers Γ ι σ}

/-- The relational reading of a function of answers. -/
def Answers.shared (H : Answers Γ ι σ) : Shared Γ ι σ :=
  fun i s op r s' => H i s op = some (r, s')

namespace Pool

variable (H : Answers Γ ι σ)

/-- The next call of one thread, answered. -/
def turn (x : Pool Γ ι σ α) (i : ι) : Option (Pool Γ ι σ α) :=
  match x.left i with
  | .ret _ => none
  | .call op k => (H i x.state op).map fun a => ⟨a.2, update x.left i (k a.1)⟩

/-- The pool after the threads have had these turns. -/
def play (x : Pool Γ ι σ α) (turns : List ι) : Option (Pool Γ ι σ α) :=
  turns.foldlM (turn H) x

variable {H} {x y : Pool Γ ι σ α}

theorem step_turn (h : turn H x i = some y) : ∃ e, Step H.shared x e y := by
  unfold turn at h
  split at h
  · cases h
  · rename_i op k hnext
    obtain ⟨⟨r, s⟩, hr, rfl⟩ := Option.map_eq_some_iff.1 h
    exact ⟨(i, ⟨op, r⟩), .answer hnext hr⟩

variable {turns : List ι} {j : ι}

theorem run_play (h : play H x turns = some y) : ∃ t, Run H.shared x t y := by
  induction turns using List.reverseRecOn generalizing y with
  | nil => exact ⟨[], Option.some.inj h ▸ .start⟩
  | append_singleton turns i ih =>
    unfold play at h
    rw [List.foldlM_append, Option.bind_eq_bind, Option.bind_eq_some_iff] at h
    obtain ⟨y₁, hplay, hlast⟩ := h
    obtain ⟨t, hrun⟩ := ih hplay
    obtain ⟨e, hstep⟩ := step_turn (by simpa using hlast)
    exact ⟨t ++ [e], hrun.next hstep⟩

/-- A schedule whose end passes a test, as an interleaving of a service that allows its answers. -/
theorem run_of_play (hS : ∀ i s op r s', H i s op = some (r, s') → S i s op r s')
    (turns : List ι) (test : Pool Γ ι σ α → Bool) (h : (play H x turns).any test = true) :
    ∃ t y, Run S x t y ∧ test y = true := by
  obtain ⟨y, hplay, htest⟩ := (Option.any_eq_true _ _).1 h
  obtain ⟨t, hrun⟩ := run_play hplay
  exact ⟨t, y, hrun.mono hS, htest⟩

theorem turn_left (h : turn H x i = some y) (hj : j ≠ i) : y.left j = x.left j := by
  unfold turn at h
  split at h
  · cases h
  · obtain ⟨a, -, rfl⟩ := Option.map_eq_some_iff.1 h
    exact update_of_ne hj _ _

theorem play_left (h : play H x turns = some y) (hj : j ∉ turns) : y.left j = x.left j := by
  induction turns generalizing x with
  | nil => exact congrArg (left · j) (Option.some.inj h).symm
  | cons i turns ih =>
    unfold play at h
    rw [List.foldlM_cons, Option.bind_eq_bind, Option.bind_eq_some_iff] at h
    obtain ⟨x₁, hfirst, hrest⟩ := h
    rw [ih hrest fun hmem => hj (List.mem_cons_of_mem _ hmem)]
    exact turn_left hfirst fun heq => hj (heq ▸ List.mem_cons_self)

/-- A schedule in two parts: what has been answered after the first, and after both. -/
theorem run_of_plays (hS : ∀ i s op r s', H i s op = some (r, s') → S i s op r s')
    (turns later : List ι) (test test' : Pool Γ ι σ α → Bool)
    (h : ((play H x turns).any fun y => test y && (play H y later).any test') = true) :
    ∃ t y t' z, Run S x t y ∧ test y = true ∧ (∀ i, i ∉ turns → y.left i = x.left i) ∧
      Run S y t' z ∧ test' z = true := by
  obtain ⟨y, hplay, hrest⟩ := (Option.any_eq_true _ _).1 h
  obtain ⟨htest, hlater⟩ := Bool.and_eq_true_iff.1 hrest
  obtain ⟨t, hrun⟩ := run_play hplay
  obtain ⟨t', z, hrun', htest'⟩ := run_of_play hS later test' hlater
  exact ⟨t, y, t', z, hrun.mono hS, htest, fun i hi => play_left hplay hi, hrun', htest'⟩

end Pool

/-- The answers with a summary of each thread's own answered calls. -/
def Answers.watched (f : τ → Event Γ → τ) (H : Answers Γ ι σ) : Answers Γ ι (σ × (ι → τ)) :=
  fun i s op => (H i s.1 op).map fun a => (a.1, (a.2, update s.2 i (f (s.2 i) ⟨op, a.1⟩)))

/-- The answers with a summary of all the calls answered so far. -/
def Answers.logged (f : τ → ι × Event Γ → τ) (H : Answers Γ ι σ) : Answers Γ ι (σ × τ) :=
  fun i s op => (H i s.1 op).map fun a => (a.1, (a.2, f s.2 (i, ⟨op, a.1⟩)))

omit [DecidableEq ι] in
theorem Answers.logged_shared {f : τ → ι × Event Γ → τ}
    (hS : ∀ i s op r s', H i s op = some (r, s') → S i s op r s') (i : ι) (s : σ × τ) (op : Γ.Op)
    (r : Γ.Ans op) (s' : σ × τ) (h : H.logged f i s op = some (r, s')) : Calls.logged f S i s op r s' := by
  obtain ⟨⟨r₁, s₁⟩, hr, heq⟩ := Option.map_eq_some_iff.1 h
  cases heq
  exact ⟨hS i s.1 op _ _ hr, rfl⟩

/-- The answers where a test is passed. -/
def Answers.only (test : ι → σ → Γ.Op → Bool) (H : Answers Γ ι σ) : Answers Γ ι σ :=
  fun i s op => if test i s op then H i s op else none

theorem Answers.watched_shared {f : τ → Event Γ → τ}
    (hS : ∀ i s op r s', H i s op = some (r, s') → S i s op r s') (i : ι) (s : σ × (ι → τ)) (op : Γ.Op)
    (r : Γ.Ans op) (s' : σ × (ι → τ)) (h : H.watched f i s op = some (r, s')) : Calls.watched f S i s op r s' := by
  obtain ⟨⟨r₁, s₁⟩, hr, heq⟩ := Option.map_eq_some_iff.1 h
  cases heq
  exact ⟨hS i s.1 op _ _ hr, rfl⟩

omit [DecidableEq ι] in
/-- Answers that pass the test are those of a service whose steps meet the condition. -/
theorem Answers.only_when {test : ι → σ → Γ.Op → Bool} (hS : ∀ i s op r s', H i s op = some (r, s') → S i s op r s')
    (hC : ∀ i s op, test i s op = true → C i s op) (i : ι) (s : σ) (op : Γ.Op) (r : Γ.Ans op) (s' : σ)
    (h : H.only test i s op = some (r, s')) : S.when C i s op r s' := by
  unfold Answers.only at h
  split at h
  · rename_i htest
    exact ⟨hC i s op htest, hS i s op r s' h⟩
  · cases h

end PodmanApi.Calls
