/-
# PodmanApi.Calls.Prog — programs that talk to services through calls.

A control-plane operation is a finite program whose only effects are calls. This file is the general theory of
such programs, over an arbitrary signature of calls.

  * `Prog Γ α` is the syntax; `Act Γ ε α` adds an error result, so that the first error of a sequence ends it.
  * `Service Γ σ` says which answers a state allows and which states they lead to. It is a RELATION: a call
    that may fail, or may take effect and still report a failure, has several outcomes in one state.
  * `Exec` is a run up to an arbitrary point, so the states it reaches are those a crash can leave behind.
  * `Ensures` is the weakest precondition: every call issued meets an obligation and every return a
    postcondition. `Ensures.exec` carries it to runs.

`traced` pairs any service with the list of answered calls, so an obligation about the past of a run is one
about an ordinary state.
-/
import Mathlib.Data.List.Basic

namespace PodmanApi.Calls

/-! ## Programs of calls -/

/-- A signature of calls: the calls themselves and the type of the answer each one receives. -/
structure Sig where
  Op : Type
  Ans : Op → Type

/-- A program over a signature: it has returned, or it issues a call and waits for its answer. -/
inductive Prog (Γ : Sig) (α : Type) : Type where
  | ret (a : α) : Prog Γ α
  | call (op : Γ.Op) (k : Γ.Ans op → Prog Γ α) : Prog Γ α

variable {Γ : Sig} {α β σ ε : Type}

variable {p q : Prog Γ α} {op : Γ.Op} {k : Γ.Ans op → Prog Γ α} {U : Γ.Op → Prop} {τ γ : Type} {a : α} {b : β}
  {e : ε} {c : Bool} {xs : List γ}

namespace Prog

/-- Sequential composition grafts the continuation onto every return. -/
def bind : Prog Γ α → (α → Prog Γ β) → Prog Γ β
  | .ret a, f => f a
  | .call op k, f => .call op fun r => bind (k r) f

instance : Monad (Prog Γ) where
  pure := ret
  bind := bind

/-- The program that issues one call and returns its answer. -/
def perform (op : Γ.Op) : Prog Γ (Γ.Ans op) :=
  .call op .ret

@[simp]
theorem pure_eq_ret (a : α) : (pure a : Prog Γ α) = .ret a := rfl

@[simp]
theorem ret_bind (a : α) (f : α → Prog Γ β) : (.ret a : Prog Γ α) >>= f = f a := rfl

@[simp]
theorem perform_bind (op : Γ.Op) (f : Γ.Ans op → Prog Γ β) : perform op >>= f = .call op f := rfl

end Prog

/-- A program with an error result; the first error of a sequence ends the sequence. -/
abbrev Act (Γ : Sig) (ε α : Type) : Type :=
  ExceptT ε (Prog Γ) α

variable {x : Act Γ ε α} {f : α → Act Γ ε β} {body : γ → Act Γ ε PUnit}

namespace Act

/-- Issue a call and hand its answer, error or not, to the rest of the program. -/
def ask (op : Γ.Op) : Act Γ ε (Γ.Ans op) :=
  ExceptT.mk (Prog.perform op >>= fun r => pure (.ok r))

/-- A program whose result is an error or a value, as an error-stopping program. -/
def lift (p : Prog Γ (Except ε α)) : Act Γ ε α :=
  ExceptT.mk p

/-- Rewrite the error, as a caller does that wraps it. -/
def mapErr (f : ε → ε) (x : Act Γ ε α) : Act Γ ε α :=
  ExceptT.mk (x.run >>= fun r => pure (r.mapError f))

/-- Run a program and hand its result, error or not, to the rest. -/
def attempt (x : Act Γ ε α) : Act Γ ε (Except ε α) :=
  ExceptT.mk (x.run >>= fun r => pure (.ok r))

/-- A program without an error result, as an error-stopping program that never fails. -/
def embed (p : Prog Γ α) : Act Γ ε α :=
  ExceptT.mk (p >>= fun a => pure (.ok a))

/-- Stop with the error unless the condition holds. -/
def require (c : Bool) (e : ε) : Act Γ ε Unit :=
  if c then pure () else throw e

@[simp]
theorem run_ask (op : Γ.Op) : (ask op : Act Γ ε _).run = .call op fun r => .ret (.ok r) := rfl

@[simp]
theorem run_lift (p : Prog Γ (Except ε α)) : (lift p).run = p := rfl

@[simp]
theorem run_mapErr (f : ε → ε) (x : Act Γ ε α) : (mapErr f x).run = x.run >>= fun r => .ret (r.mapError f) := rfl

@[simp]
theorem run_attempt (x : Act Γ ε α) : (attempt x).run = x.run >>= fun r => .ret (.ok r) := rfl

end Act

/-! ## The calls a program can issue -/

namespace Prog

/-- Every call the program can issue, whatever the answers, satisfies `U`. -/
def Issues (U : Γ.Op → Prop) : Prog Γ α → Prop
  | .ret _ => True
  | .call op k => U op ∧ ∀ r, Issues U (k r)

variable {U V : Γ.Op → Prop}

theorem Issues.mono (hUV : ∀ op, U op → V op) (h : Issues U p) : Issues V p := by
  induction p with
  | ret a => trivial
  | call op k ih => exact ⟨hUV op h.1, fun r => ih r (h.2 r)⟩

theorem Issues.and (h : Issues U p) (h' : Issues V p) : Issues (fun op => U op ∧ V op) p := by
  induction p with
  | ret a => trivial
  | call op k ih => exact ⟨⟨h.1, h'.1⟩, fun r => ih r (h.2 r) (h'.2 r)⟩

theorem Issues.bind {f : α → Prog Γ β} (hp : Issues U p) (hf : ∀ a, Issues U (f a)) : Issues U (p >>= f) := by
  induction p with
  | ret a => exact hf a
  | call op k ih => exact ⟨hp.1, fun r => ih r (hp.2 r)⟩

theorem Issues.andThen (hx : Issues U x.run) (hf : ∀ a, Issues U (f a).run) : Issues U (x >>= f).run := by
  refine hx.bind fun r => ?_
  cases r with
  | ok a => exact hf a
  | error e => trivial

/-- A program that goes by whether its first half failed. -/
theorem Issues.cases {δ : Type} {x : Act Γ ε (Except δ α)} {f : Except δ α → Act Γ ε β} (hx : Issues U x.run)
    (hok : ∀ a, Issues U (f (.ok a)).run) (herror : ∀ e, Issues U (f (.error e)).run) : Issues U (x >>= f).run :=
  hx.andThen fun r => by
    cases r with
    | ok a => exact hok a
    | error e => exact herror e

theorem Issues.attempt (hx : Issues U x.run) : Issues U (Act.attempt x).run :=
  hx.bind fun _ => trivial

theorem Issues.mapErr {f : ε → ε} (hx : Issues U x.run) : Issues U (Act.mapErr f x).run :=
  hx.bind fun _ => trivial

theorem Issues.embed (hp : Issues U p) : Issues U (Act.embed p : Act Γ ε α).run :=
  hp.bind fun _ => trivial

end Prog

section Issues

open Prog

variable {U : Γ.Op → Prop}

@[simp]
theorem issues_ret (a : α) : Issues U (.ret a : Prog Γ α) := trivial

@[simp]
theorem issues_call : Issues U (.call op k) ↔ U op ∧ ∀ r, Issues U (k r) := Iff.rfl

@[simp]
theorem issues_perform : Issues U (perform op) ↔ U op := by
  simp [perform]

theorem issues_true (p : Prog Γ α) : Issues (fun _ => True) p := by
  induction p with
  | ret a => trivial
  | call op k ih => exact ⟨trivial, ih⟩

theorem issues_pure : Issues U (pure a : Act Γ ε α).run := trivial

theorem issues_throw : Issues U (throw e : Act Γ ε α).run := trivial

theorem issues_pure_or_throw {c : Prop} {_ : Decidable c} :
    Issues U (if c then pure a else throw e : Act Γ ε α).run := by
  split <;> exact issues_ret _

theorem issues_ask (h : U op) : Issues U (Act.ask op : Act Γ ε _).run :=
  ⟨h, fun _ => trivial⟩

theorem issues_require : Issues U (Act.require c e : Act Γ ε Unit).run := by
  unfold Act.require
  split <;> trivial

theorem issues_foldlM {body : α → γ → Act Γ ε α} (xs : List γ)
    (h : ∀ a, ∀ x ∈ xs, Issues U (body a x).run) (a : α) : Issues U (xs.foldlM body a).run := by
  induction xs generalizing a with
  | nil => trivial
  | cons x xs ih =>
    exact (h a x List.mem_cons_self).andThen fun b => ih (fun c y hy => h c y (List.mem_cons_of_mem x hy)) b

theorem Act.forM_eq_foldlM (xs : List γ) (body : γ → Act Γ ε PUnit) :
    forM xs body = xs.foldlM (fun _ x => body x) ⟨⟩ := by
  induction xs with
  | nil => rfl
  | cons x xs ih => rw [List.forM_cons, List.foldlM_cons, ih]

theorem issues_forM (xs : List γ) (h : ∀ x ∈ xs, Issues U (body x).run) : Issues U (forM xs body).run := by
  rw [Act.forM_eq_foldlM]
  exact issues_foldlM xs (fun _ => h) ⟨⟩

end Issues

theorem issues_foldlM_plain {body : α → γ → Prog Γ α} (xs : List γ)
    (h : ∀ a, ∀ x ∈ xs, (body a x).Issues U) (a : α) : (xs.foldlM body a).Issues U := by
  induction xs generalizing a with
  | nil => trivial
  | cons x xs ih =>
    exact (h a x List.mem_cons_self).bind fun b => ih (fun c y hy => h c y (List.mem_cons_of_mem x hy)) b

/-- A program of one signature as a program of another that can express its calls. -/
def Prog.via {Δ : Sig} (f : Γ.Op → Δ.Op) (g : (op : Γ.Op) → Δ.Ans (f op) → Γ.Ans op) : Prog Γ α → Prog Δ α
  | .ret a => .ret a
  | .call op k => .call (f op) fun r => (k (g op r)).via f g

theorem issues_via {Δ : Sig} {f : Γ.Op → Δ.Op} {g : (op : Γ.Op) → Δ.Ans (f op) → Γ.Ans op}
    {U : Δ.Op → Prop} (h : ∀ op, U (f op)) (p : Prog Γ α) : (p.via f g).Issues U := by
  induction p with
  | ret a => trivial
  | call op k ih => exact ⟨h op, fun r => ih (g op r)⟩

/-- The call a program waits for, if it has not returned. -/
def Prog.next : Prog Γ α → Option Γ.Op
  | .ret _ => none
  | .call op _ => some op

/-- The result of a program that has returned. -/
def Prog.returned : Prog Γ α → Option α
  | .ret a => some a
  | .call _ _ => none

theorem Prog.returned_eq_some : p.returned = some a ↔ p = .ret a := by
  cases p with
  | ret | call => simp [Prog.returned]

/-! ## Services and runs -/

/-- An answered call. -/
abbrev Event (Γ : Sig) : Type :=
  (op : Γ.Op) × Γ.Ans op

/-- A service: in a state, a call, one of the answers it may receive and the state it leads to. -/
def Service (Γ : Sig) (σ : Type) : Type :=
  σ → (op : Γ.Op) → Γ.Ans op → σ → Prop

variable {t past : List (Event Γ)} {S : Service Γ σ} {Q : σ → α → Prop} {s s' : σ} {admitted : Event Γ → Prop}

/-- A run up to some point: `Exec S s p t s' q` says that `p`, started in `s`, can see the answered
calls `t` and is then in state `s'` with `q` left to do. A crash is a run that is not continued. -/
inductive Exec (S : Service Γ σ) : σ → Prog Γ α → List (Event Γ) → σ → Prog Γ α → Prop where
  | refl (s : σ) (p : Prog Γ α) : Exec S s p [] s p
  | step {s s' s'' : σ} {op : Γ.Op} {k : Γ.Ans op → Prog Γ α} {r : Γ.Ans op}
      {t : List (Event Γ)} {q : Prog Γ α} (hr : S s op r s') (rest : Exec S s' (k r) t s'' q) :
      Exec S s (.call op k) (⟨op, r⟩ :: t) s'' q

namespace Exec

variable {S : Service Γ σ} {s s' s'' : σ}

theorem trans {q' : Prog Γ α} {t' : List (Event Γ)} (h : Exec S s p t s' q)
    (h' : Exec S s' q t' s'' q') : Exec S s p (t ++ t') s'' q' := by
  induction h with
  | refl => exact h'
  | step hr _ ih => exact .step hr (ih h')

theorem ret_inv (h : Exec S s (.ret a) t s' q) : t = [] ∧ s' = s ∧ q = .ret a := by
  cases h
  exact ⟨rfl, rfl, rfl⟩

/-- A run of a sequence is a run inside the first half, or a complete run of the first half
followed by a run of the second. -/
theorem bind_inv {f : α → Prog Γ β} {q : Prog Γ β} (h : Exec S s (p >>= f) t s' q) :
    (∃ p', Exec S s p t s' p' ∧ q = p' >>= f) ∨
      ∃ t₁ t₂ s₁ a, Exec S s p t₁ s₁ (.ret a) ∧ Exec S s₁ (f a) t₂ s' q ∧ t = t₁ ++ t₂ := by
  induction p generalizing s t with
  | ret a => exact .inr ⟨[], t, s, a, .refl s _, h, rfl⟩
  | call op k ih =>
    cases h with
    | refl => exact .inl ⟨_, .refl _ _, rfl⟩
    | step hr rest =>
      rcases ih _ rest with ⟨p', hp', rfl⟩ | ⟨t₁, t₂, s₁, a, h₁, h₂, rfl⟩
      · exact .inl ⟨p', .step hr hp', rfl⟩
      · exact .inr ⟨_ :: t₁, t₂, s₁, a, .step hr h₁, h₂, rfl⟩

theorem bind_ret_inv {f : α → Prog Γ β} (h : Exec S s (p >>= f) t s' (.ret b)) :
    ∃ t₁ t₂ s₁ a, Exec S s p t₁ s₁ (.ret a) ∧ Exec S s₁ (f a) t₂ s' (.ret b) ∧ t = t₁ ++ t₂ := by
  rcases h.bind_inv with ⟨p', hp', hq⟩ | h
  · cases p' with
    | ret a => exact ⟨t, [], s', a, hp', by rw [show f a = .ret b from hq.symm]; exact .refl _ _,
        (List.append_nil t).symm⟩
    | call op k => cases hq
  · exact h

theorem run_bind_ok (h : Exec S s (x >>= f).run t s' (.ret (.ok b))) :
    ∃ t₁ t₂ s₁ a, Exec S s x.run t₁ s₁ (.ret (.ok a)) ∧ Exec S s₁ (f a).run t₂ s' (.ret (.ok b)) ∧
      t = t₁ ++ t₂ := by
  obtain ⟨t₁, t₂, s₁, r, h₁, h₂, ht⟩ := h.bind_ret_inv
  cases r with
  | ok a => exact ⟨t₁, t₂, s₁, a, h₁, h₂, ht⟩
  | error e => cases h₂.ret_inv.2.2

theorem bind_left {p' : Prog Γ α} (h : Exec S s p t s' p')
    (f : α → Prog Γ β) : Exec S s (p >>= f) t s' (p' >>= f) := by
  induction h with
  | refl => exact .refl _ _
  | step hr _ ih => exact .step hr ih

/-- Before an event of a run, the program was about to issue it. -/
theorem at_event {t₁ t₂ : List (Event Γ)} {e : Event Γ}
    (h : Exec S s p (t₁ ++ e :: t₂) s' q) : ∃ s₁ k, Exec S s p t₁ s₁ (.call e.1 k) := by
  induction t₁ generalizing s p with
  | nil =>
    cases h with
    | step _ _ => exact ⟨s, _, .refl _ _⟩
  | cons _ t₁ ih =>
    cases h with
    | step hr rest =>
      obtain ⟨s₁, k, hk⟩ := ih rest
      exact ⟨s₁, k, .step hr hk⟩

/-- A run seen through a view of the state, when every step is a step of what is seen. -/
theorem view {S' : Service Γ τ} (f : σ → τ)
    (h : Exec S s p t s' q) (hS : ∀ s op r s', S s op r s' → S' (f s) op r (f s')) :
    Exec S' (f s) p t (f s') q := by
  induction h with
  | refl => exact .refl _ _
  | step hop _ ih => exact .step (hS _ _ _ _ hop) ih

theorem mono {S' : Service Γ σ} (h : Exec S s p t s' q)
    (hS : ∀ s op r s', S s op r s' → S' s op r s') : Exec S' s p t s' q :=
  h.view id hS

end Exec

/-! ## Weakest preconditions -/

/-- `Ensures S G Q p s`: started in `s`, whatever the service answers, every call `p` issues meets
the obligation `G` in the state it is issued in, and every return meets `Q`. -/
def Ensures (S : Service Γ σ) (G : σ → Γ.Op → Prop) (Q : σ → α → Prop) : Prog Γ α → σ → Prop
  | .ret a, s => Q s a
  | .call op k, s => G s op ∧ ∀ r s', S s op r s' → Ensures S G Q (k r) s'

/-- `Ensures` without an obligation on the calls. -/
abbrev Ends (S : Service Γ σ) (Q : σ → α → Prop) (p : Prog Γ α) (s : σ) : Prop :=
  Ensures S (fun _ _ => True) Q p s

section Rules

variable {S : Service Γ σ} {G : σ → Γ.Op → Prop} {s : σ}

@[simp]
theorem ensures_ret : Ensures S G Q (.ret a) s ↔ Q s a := Iff.rfl

@[simp]
theorem ensures_call : Ensures S G Q (.call op k) s ↔ G s op ∧ ∀ r s', S s op r s' → Ensures S G Q (k r) s' :=
  Iff.rfl

variable {Q' : σ → α → Prop}

section

variable (h : Ensures S G Q p s)

include h

/-- Consequence: obligations and postconditions may be weakened. -/
theorem Ensures.mono {G' : σ → Γ.Op → Prop} (hG : ∀ s op, G s op → G' s op) (hQ : ∀ s a, Q s a → Q' s a) : Ensures S G' Q' p s := by
  induction p generalizing s with
  | ret a => exact hQ s a h
  | call op k ih => exact ⟨hG s op h.1, fun r s' hr => ih r (h.2 r s' hr)⟩

/-- A program that is proved against a service is proved against every service that allows less. -/
theorem Ensures.within {S' : Service Γ σ}
    (hS : ∀ s op r s', S' s op r s' → S s op r s') : Ensures S' G Q p s := by
  induction p generalizing s with
  | ret a => exact h
  | call op k ih => exact ⟨h.1, fun r s' hr => ih r (h.2 r s' (hS _ _ _ _ hr))⟩

theorem Ensures.imp (hQ : ∀ s a, Q s a → Q' s a) : Ensures S G Q' p s :=
  h.mono (fun _ _ hg => hg) hQ

/-- A postcondition that was proved without obligations. -/
theorem Ensures.also
    (h' : Ensures S (fun _ _ => True) Q' p s) : Ensures S G (fun s a => Q s a ∧ Q' s a) p s := by
  induction p generalizing s with
  | ret a => exact ⟨h, h'⟩
  | call op k ih => exact ⟨h.1, fun r s' hr => ih r (h.2 r s' hr) (h'.2 r s' hr)⟩

theorem Ensures.and
    (h' : Ensures S G Q' p s) : Ensures S G (fun s a => Q s a ∧ Q' s a) p s :=
  h.also (h'.mono (fun _ _ _ => trivial) fun _ _ h => h)

end

/-- Sequencing: the first half must establish the precondition of the second. -/
@[simp]
theorem ensures_bind {Q : σ → β → Prop} {f : α → Prog Γ β} :
    Ensures S G Q (p >>= f) s ↔ Ensures S G (fun s a => Ensures S G Q (f a) s) p s := by
  induction p generalizing s with
  | ret a => rfl
  | call op k ih =>
    refine and_congr_right fun _ => forall_congr' fun r => forall_congr' fun s' => ?_
    exact imp_congr_right fun _ => ih r

/-- The working form of `ensures_bind`: a specification of the first half, and the second half from wherever
the first can return. -/
theorem Ensures.bind {P : σ → α → Prop} {Q : σ → β → Prop} {f : α → Prog Γ β} (hp : Ensures S G P p s)
    (hf : ∀ s a, P s a → Ensures S G Q (f a) s) : Ensures S G Q (p >>= f) s :=
  ensures_bind.2 (hp.imp hf)

theorem Ensures.map {P : σ → α → Prop} {Q : σ → β → Prop} {g : α → β} (hp : Ensures S G P p s)
    (hQ : ∀ s a, P s a → Q s (g a)) : Ensures S G Q (p >>= fun a => pure (g a)) s :=
  hp.bind fun s a h => ensures_ret.2 (hQ s a h)

/-- Error-stopping sequencing: an error of the first half is the result of the whole. -/
@[simp]
theorem ensures_run_bind {Q : σ → Except ε β → Prop} : Ensures S G Q (x >>= f).run s ↔
      Ensures S G (fun s r => (∀ a, r = .ok a → Ensures S G Q (f a).run s) ∧
        ∀ e, r = .error e → Q s (.error e)) x.run s := by
  rw [ExceptT.run_bind, ensures_bind]
  constructor
  · refine fun h => h.imp fun s r hr => ?_
    cases r with
    | ok a => exact ⟨fun b hb => Except.ok.inj hb ▸ hr, nofun⟩
    | error e => exact ⟨nofun, fun e' he => Except.error.inj he ▸ hr⟩
  · refine fun h => h.imp fun s r hr => ?_
    cases r with
    | ok a => exact hr.1 a rfl
    | error e => exact hr.2 e rfl

/-- The working form of `ensures_run_bind`: a specification of the first half, its error exits, and
the second half from wherever the first can return. -/
theorem Ensures.andThen {Q : σ → Except ε β → Prop} {P : σ → Except ε α → Prop} (hx : Ensures S G P x.run s) (herr : ∀ s e, P s (.error e) → Q s (.error e))
    (hf : ∀ s a, P s (.ok a) → Ensures S G Q (f a).run s) : Ensures S G Q (x >>= f).run s :=
  ensures_run_bind.2 (hx.imp fun s _ hr =>
    ⟨fun a ha => hf s a (ha ▸ hr), fun e he => herr s e (he ▸ hr)⟩)

theorem ensures_perform {Q : σ → Γ.Ans op → Prop} (hG : G s op)
    (hQ : ∀ r s', S s op r s' → Q s' r) : Ensures S G Q (Prog.perform op) s :=
  ⟨hG, hQ⟩

/-- `ensures_perform` with the call given, so that the type of its answer is known. -/
theorem ensures_issue {Op : Type} {Ans : Op → Type} {S : Service ⟨Op, Ans⟩ σ} {G : σ → Op → Prop} (op : Op)
    {Q : σ → Ans op → Prop} (hG : G s op) (hQ : ∀ r s', S s op r s' → Q s' r) :
    Ensures S G Q (Prog.perform (Γ := ⟨Op, Ans⟩) op) s :=
  ⟨hG, hQ⟩

theorem ensures_issue_bind {Op : Type} {Ans : Op → Type} {S : Service ⟨Op, Ans⟩ σ} {G : σ → Op → Prop} (op : Op)
    {f : Ans op → Prog ⟨Op, Ans⟩ β} {Q : σ → β → Prop} (hG : G s op)
    (hQ : ∀ r s', S s op r s' → Ensures S G Q (f r) s') : Ensures S G Q (Prog.perform op >>= f) s :=
  ensures_bind.2 (ensures_issue op hG hQ)

/-- A call whose answer, error or not, goes to the rest of the program. -/
theorem ensures_ask_bind {f : Γ.Ans op → Act Γ ε β} {Q : σ → Except ε β → Prop}
    (hG : G s op) (hQ : ∀ r s', S s op r s' → Ensures S G Q (f r).run s') :
    Ensures S G Q (Act.ask op >>= f).run s :=
  ensures_run_bind.2 ⟨hG, fun r s' hr => ⟨fun _ ha => Except.ok.inj ha ▸ hQ r s' hr, nofun⟩⟩

theorem ensures_pure {Q : σ → Except ε α → Prop} :
    Ensures S G Q (pure a : Act Γ ε α).run s ↔ Q s (.ok a) := Iff.rfl

theorem ensures_throw {Q : σ → Except ε α → Prop} :
    Ensures S G Q (throw e : Act Γ ε α).run s ↔ Q s (.error e) := Iff.rfl

theorem ensures_mapErr {Q : σ → Except ε α → Prop} {f : ε → ε} :
    Ensures S G Q (Act.mapErr f x).run s ↔ Ensures S G (fun s r => Q s (r.mapError f)) x.run s :=
  ensures_bind

theorem ensures_attempt {Q : σ → Except ε (Except ε α) → Prop} :
    Ensures S G Q (Act.attempt x).run s ↔ Ensures S G (fun s r => Q s (.ok r)) x.run s :=
  ensures_bind

theorem ensures_embed {Q : σ → Except ε α → Prop} :
    Ensures S G Q (Act.embed p).run s ↔ Ensures S G (fun s a => Q s (.ok a)) p s :=
  ensures_bind

/-- A program that cannot fail, and what comes after it. -/
theorem Ensures.embedThen {P : σ → α → Prop} {Q : σ → Except ε β → Prop}
    (hp : Ensures S G P p s) (hf : ∀ s a, P s a → Ensures S G Q (f a).run s) :
    Ensures S G Q (Act.embed p >>= f).run s := by
  refine ensures_run_bind.2 (ensures_embed.2 (hp.imp fun s a ha => ⟨fun b hb => ?_, nofun⟩))
  exact Except.ok.inj hb ▸ hf s a ha

/-- A method whose error is looked at, and what comes after it. -/
theorem Ensures.attemptThen {P : σ → Except ε α → Prop} {Q : σ → Except ε β → Prop}
    {f : Except ε α → Act Γ ε β} (hx : Ensures S G P x.run s)
    (hf : ∀ s r, P s r → Ensures S G Q (f r).run s) : Ensures S G Q (Act.attempt x >>= f).run s := by
  refine ensures_run_bind.2 (ensures_attempt.2 (hx.imp fun s r hr => ⟨fun b hb => ?_, nofun⟩))
  exact Except.ok.inj hb ▸ hf s r hr

theorem ensures_require {Q : σ → Except ε Unit → Prop} : Ensures S G Q (Act.require c e).run s ↔
      (c = true → Q s (.ok ())) ∧ (c = false → Q s (.error e)) := by
  cases c
  · exact ⟨fun h => ⟨nofun, fun _ => h⟩, fun h => h.2 rfl⟩
  · exact ⟨fun h => ⟨fun _ => h, nofun⟩, fun h => h.1 rfl⟩

theorem ensures_require_bind {Q : σ → Except ε β → Prop} {f : Unit → Act Γ ε β} (herr : c = false → Q s (.error e))
    (hok : c = true → Ensures S G Q (f ()).run s) : Ensures S G Q (Act.require c e >>= f).run s :=
  ensures_run_bind.2 (ensures_require.2 ⟨fun h => ⟨fun _ _ => hok h, nofun⟩,
    fun h => ⟨nofun, fun _ he => Except.error.inj he ▸ herr h⟩⟩)

/-- Loop rule for an accumulating loop: `I` holds of the elements already processed and of the accumulator. The
body keeps it, or stops the loop with an error that meets the postcondition. -/
theorem ensures_foldlM {Q : σ → Except ε α → Prop} {body : α → γ → Act Γ ε α}
    (I : List γ → α → σ → Prop) (xs : List γ) (hbody : ∀ done x rest, xs = done ++ x :: rest → ∀ a s, I done a s →
      Ensures S G (fun s r => (∀ b, r = .ok b → I (done ++ [x]) b s) ∧
        ∀ e, r = .error e → Q s (.error e)) (body a x).run s)
    (hdone : ∀ b s, I xs b s → Q s (.ok b)) (h : I [] a s) : Ensures S G Q (xs.foldlM body a).run s := by
  suffices H : ∀ rest done a s, xs = done ++ rest → I done a s →
      Ensures S G Q (rest.foldlM body a).run s from H xs [] a s rfl h
  intro rest
  induction rest with
  | nil =>
    intro done a s hxs hI
    rw [List.append_nil] at hxs
    exact hdone a s (hxs ▸ hI)
  | cons x rest ih =>
    intro done a s hxs hI
    refine (hbody done x rest hxs a s hI).andThen (fun s e h => h.2 e rfl) fun s b h => ?_
    exact ih (done ++ [x]) b s (by simp [hxs]) (h.1 b rfl)

theorem ensures_pure_step {I : α → σ → Prop} {E : σ → ε → Prop} (h : I a s) :
    Ensures S G (fun s r => (∀ b, r = .ok b → I b s) ∧ ∀ e, r = .error e → E s e) (pure a : Act Γ ε α).run s :=
  ensures_pure.2 ⟨fun _ hb => Except.ok.inj hb ▸ h, nofun⟩

theorem ensures_forM {Q : σ → Except ε PUnit → Prop} (I : List γ → σ → Prop) (xs : List γ)
    (hbody : ∀ done x rest, xs = done ++ x :: rest → ∀ s, I done s →
      Ensures S G (fun s r => (r = .ok ⟨⟩ → I (done ++ [x]) s) ∧ ∀ e, r = .error e → Q s (.error e)) (body x).run s)
    (hdone : ∀ s, I xs s → Q s (.ok ⟨⟩)) (h : I [] s) : Ensures S G Q (forM xs body).run s := by
  rw [Act.forM_eq_foldlM]
  refine ensures_foldlM (fun done _ s => I done s) xs (fun done x rest hxs _ s hI => ?_) (fun _ => hdone) h
  exact (hbody done x rest hxs s hI).imp fun s r hr => ⟨fun _ => hr.1, hr.2⟩

/-- A program that only issues calls satisfying `U` keeps every invariant those calls keep, and
meets every obligation that the invariant gives those calls. -/
theorem Prog.Issues.ensures {I : σ → Prop} (hp : p.Issues U)
    (hstep : ∀ s op r s', U op → I s → S s op r s' → I s') (hG : ∀ s op, U op → I s → G s op)
    (h : I s) : Ensures S G (fun s _ => I s) p s := by
  induction p generalizing s with
  | ret a => exact h
  | call op k ih =>
    exact ⟨hG s op hp.1 h, fun r s' hr => ih r (hp.2 r) (hstep s op r s' hp.1 h hr)⟩

/-- The same for a program whose calls satisfy `U` under the answers of the service. -/
theorem Ensures.invariant {I : σ → Prop} (hp : Ensures S (fun _ op => U op) Q p s)
    (hstep : ∀ s op r s', U op → I s → S s op r s' → I s') (h : I s) :
    Ensures S (fun _ op => U op) (fun s _ => I s) p s := by
  induction p generalizing s with
  | ret a => exact h
  | call op k ih =>
    exact ⟨hp.1, fun r s' hr => ih r (hp.2 r s' hr) (hstep s op r s' hp.1 h hr)⟩

/-- A program whose calls are made through another signature. -/
theorem ensures_via {Δ : Sig} {f : Δ.Op → Γ.Op} {g : (op : Δ.Op) → Γ.Ans (f op) → Δ.Ans op} {p : Prog Δ α} :
    Ensures S G Q (p.via f g) s ↔ Ensures (fun s op r s' => ∃ r', S s (f op) r' s' ∧ g op r' = r)
      (fun s op => G s (f op)) Q p s := by
  induction p generalizing s with
  | ret a => exact Iff.rfl
  | call op k ih =>
    refine and_congr_right fun _ => ⟨?_, ?_⟩
    · rintro h _ s' ⟨r', hr, rfl⟩
      exact ih _ |>.1 (h r' s' hr)
    · intro h r' s' hr
      exact ih _ |>.2 (h _ s' ⟨r', hr, rfl⟩)

theorem Ensures.next (h : Ensures S G Q p s) (hop : p.next = some op) : G s op := by
  cases p with
  | ret a => cases hop
  | call op' k => exact Option.some.inj hop ▸ h.1

theorem ensures_any (p : Prog Γ α) : Ensures S (fun _ _ => True) (fun _ _ => True) p s := by
  induction p generalizing s with
  | ret a => trivial
  | call op k ih => exact ⟨trivial, fun r s' _ => ih r⟩

end Rules

/-! ## Postconditions of success -/

/-- The postcondition that demands nothing of an error. -/
def OnOk (P : σ → α → Prop) (s : σ) (r : Except ε α) : Prop :=
  ∀ a, r = .ok a → P s a

section OnOk

variable {S : Service Γ σ} {G : σ → Γ.Op → Prop} {s : σ} {P : σ → α → Prop}

theorem onOk_ok : OnOk P s (.ok a : Except ε α) ↔ P s a :=
  ⟨fun h => h a rfl, fun h _ hb => Except.ok.inj hb ▸ h⟩

theorem onOk_error (e : ε) : OnOk P s (.error e : Except ε α) := nofun

/-- A program whose calls meet their obligations, whatever they are answered. -/
theorem Prog.Issues.ensures_onOk {U : Γ.Op → Prop} (hx : x.run.Issues U) (hG : ∀ s op, U op → G s op) :
    Ensures S G (OnOk fun _ _ => True) x.run s :=
  (hx.ensures (I := fun _ => True) (fun _ _ _ _ _ _ _ => trivial) (fun s op hop _ => hG s op hop) trivial).imp
    fun _ _ _ _ _ => trivial

theorem Ensures.thenOk {Q : σ → β → Prop}
    (hx : Ensures S G (OnOk P) x.run s) (hf : ∀ s a, P s a → Ensures S G (OnOk Q) (f a).run s) :
    Ensures S G (OnOk Q) (x >>= f).run s :=
  hx.andThen (fun _ e _ => onOk_error e) fun s a h => hf s a (h a rfl)

theorem ensures_keep_onOk {I : σ → Prop} {P : σ → β → Prop} (hstep : ∀ s op r s', S s op r s' → I s → I s')
    (h : I s) (hf : ∀ a s', I s' → Ensures S (fun _ _ => True) (OnOk P) (f a).run s') :
    Ensures S (fun _ _ => True) (OnOk P) (x >>= f).run s :=
  ((issues_true x.run).ensures (fun s op r s' _ hs hr => hstep s op r s' hr hs) (fun _ _ _ _ => trivial)
    h).andThen (fun _ e _ => onOk_error e) fun s' a hs' => hf a s' hs'

theorem ensures_skip_onOk {P : σ → β → Prop} (hf : ∀ a s', Ensures S (fun _ _ => True) (OnOk P) (f a).run s') :
    Ensures S (fun _ _ => True) (OnOk P) (x >>= f).run s :=
  ensures_keep_onOk (I := fun _ => True) (fun _ _ _ _ _ h => h) trivial fun a s' _ => hf a s'

theorem ensures_pure_onOk (h : P s a) : Ensures S G (OnOk P) (pure a : Act Γ ε α).run s :=
  ensures_pure.2 (onOk_ok.2 h)

theorem ensures_throw_onOk : Ensures S G (OnOk P) (throw e : Act Γ ε α).run s :=
  ensures_throw.2 (onOk_error e)

theorem ensures_pure_or_throw_onOk {c : Prop} {_ : Decidable c} (h : c → P s a) :
    Ensures S G (OnOk P) (if c then pure a else throw e : Act Γ ε α).run s := by
  split
  · exact ensures_pure_onOk (h ‹_›)
  · exact ensures_throw_onOk

theorem Ensures.mapErr_onOk {f : ε → ε} (hx : Ensures S G (OnOk P) x.run s) :
    Ensures S G (OnOk P) (Act.mapErr f x).run s :=
  ensures_mapErr.2 (hx.imp fun s r hr => by
    cases r with
    | ok a => exact hr
    | error e => exact onOk_error (f e))

theorem ensures_require_onOk {P : σ → Unit → Prop} (h : c = true → P s ()) :
    Ensures S G (OnOk P) (Act.require c e : Act Γ ε Unit).run s :=
  ensures_require.2 ⟨fun hc => onOk_ok.2 (h hc), fun _ => onOk_error e⟩

theorem ensures_require_thenOk {Q : σ → β → Prop} {f : Unit → Act Γ ε β}
    (hf : c = true → Ensures S G (OnOk Q) (f ()).run s) : Ensures S G (OnOk Q) (Act.require c e >>= f).run s :=
  ensures_require_bind (fun _ => onOk_error e) hf

/-- Loop rule for an invariant of the accumulator that an error need not re-establish. -/
theorem ensures_foldlM_onOk {body : α → γ → Act Γ ε α} (I : σ → α → Prop) (xs : List γ)
    (hbody : ∀ x ∈ xs, ∀ s a, I s a → Ensures S G (OnOk I) (body a x).run s) (h : I s a) :
    Ensures S G (OnOk I) (xs.foldlM body a).run s := by
  induction xs generalizing a s with
  | nil => exact ensures_pure_onOk h
  | cons x xs ih =>
    refine (hbody x List.mem_cons_self s a h).thenOk fun s b hb => ?_
    exact ih (fun y hy => hbody y (List.mem_cons_of_mem _ hy)) hb

end OnOk

/-! ## Programs that keep an invariant -/

/-- Wherever the invariant holds, the program meets its obligations and ends with the invariant again. -/
def Prog.Keeps (S : Service Γ σ) (G : σ → Γ.Op → Prop) (I : σ → Prop) (p : Prog Γ α) : Prop :=
  ∀ s, I s → Ensures S G (fun s _ => I s) p s

section Keeps

variable {S : Service Γ σ} {G : σ → Γ.Op → Prop} {I : σ → Prop}

theorem keeps_ret (a : α) : (Prog.ret a : Prog Γ α).Keeps S G I :=
  fun _ h => h

theorem Prog.Issues.keeps (hp : p.Issues U)
    (hstep : ∀ s op r s', U op → I s → S s op r s' → I s') (hG : ∀ s op, U op → I s → G s op) : p.Keeps S G I :=
  fun _ h => hp.ensures hstep hG h

theorem Prog.Keeps.bind {f : α → Prog Γ β} (hp : p.Keeps S G I)
    (hf : ∀ a, (f a).Keeps S G I) : (p >>= f).Keeps S G I :=
  fun s h => (hp s h).bind fun s' a hs => hf a s' hs

theorem Prog.Keeps.andThen (hx : x.run.Keeps S G I) (hf : ∀ a, (f a).run.Keeps S G I) : (x >>= f).run.Keeps S G I :=
  fun s h => (hx s h).andThen (fun _ _ hs => hs) fun s' a hs => hf a s' hs

theorem keeps_forM (xs : List γ) (h : ∀ x ∈ xs, (body x).run.Keeps S G I) : (forM xs body).run.Keeps S G I :=
  fun _ hs => ensures_forM (fun _ s => I s) xs (fun done x rest hxs s hs =>
    (h x (by simp [hxs]) s hs).imp fun _ _ h => ⟨fun _ => h, fun _ _ => h⟩) (fun _ h => h) hs

theorem Prog.Keeps.mapErr {f : ε → ε} (hx : x.run.Keeps S G I) : (Act.mapErr f x).run.Keeps S G I :=
  fun s h => ensures_mapErr.2 (hx s h)

theorem Prog.Keeps.attempt (hx : x.run.Keeps S G I) : (Act.attempt x : Act Γ ε (Except ε α)).run.Keeps S G I :=
  fun s h => ensures_attempt.2 (hx s h)

theorem Prog.Keeps.embed (hp : p.Keeps S G I) : (Act.embed p : Act Γ ε α).run.Keeps S G I :=
  fun s h => ensures_embed.2 (hp s h)

end Keeps

/-! ## Services that always answer -/

/-- Every call has an answer in every state. -/
def Service.Total (S : Service Γ σ) : Prop :=
  ∀ s op, ∃ r s', S s op r s'

/-- Under a service that always answers, every program can be run to its end. -/
theorem Service.Total.exec (hS : S.Total) (p : Prog Γ α) (s : σ) : ∃ t s' a, Exec S s p t s' (.ret a) := by
  induction p generalizing s with
  | ret a => exact ⟨[], s, a, .refl s _⟩
  | call op k ih =>
    obtain ⟨r, s₁, hr⟩ := hS s op
    obtain ⟨t, s', a, hrest⟩ := ih r s₁
    exact ⟨⟨op, r⟩ :: t, s', a, .step hr hrest⟩

/-! ## From weakest preconditions to runs -/

section Runs

variable {S : Service Γ σ} {G : σ → Γ.Op → Prop} {Q : σ → α → Prop} {s s' : σ} {p q : Prog Γ α}
  {t : List (Event Γ)}

/-- What is left of a run inherits the specification: the one induction over runs. -/
theorem Ensures.exec (h : Ensures S G Q p s) (hrun : Exec S s p t s' q) : Ensures S G Q q s' := by
  induction hrun with
  | refl => exact h
  | step hr _ ih => exact ih (h.2 _ _ hr)

theorem Ensures.post (h : Ensures S G Q p s) (hrun : Exec S s p t s' (.ret a)) : Q s' a :=
  h.exec hrun

theorem Ensures.issued (h : Ensures S G Q p s) (hrun : Exec S s p t s' (.call op k)) : G s' op :=
  (h.exec hrun).1

/-- An invariant demanded at every call and at every return holds in every state a run reaches,
so also wherever a crash stops it. -/
theorem Ensures.reached {I : σ → Prop} (h : Ensures S (fun s _ => I s) (fun s _ => I s) p s)
    (hrun : Exec S s p t s' q) : I s' := by
  have hq := h.exec hrun
  cases q with
  | ret a => exact hq
  | call op k => exact hq.1

end Runs

/-! ## Histories -/

/-- A service together with the history of the calls it has answered. -/
def traced (S : Service Γ σ) : Service Γ (σ × List (Event Γ)) :=
  fun s op r s' => S s.1 op r s'.1 ∧ s'.2 = s.2 ++ [⟨op, r⟩]

/-- Every run is a run of the traced service, which records exactly its answered calls. -/
theorem Exec.traced (h : Exec S s p t s' q) (past : List (Event Γ)) :
    Exec (traced S) (s, past) p t (s', past ++ t) q := by
  induction h generalizing past with
  | refl => rw [List.append_nil]; exact .refl _ _
  | @step _ _ _ op _ r _ _ hr _ ih =>
    have rest := ih (past ++ [⟨op, r⟩])
    rw [List.append_assoc] at rest
    exact .step ⟨hr, rfl⟩ rest

/-- What holds of every run holds beside the record of it. -/
theorem Ensures.recorded {G : σ → Γ.Op → Prop} (h : Ensures S G Q p s) (past : List (Event Γ)) :
    Ensures (traced S) (fun x op => G x.1 op) (fun x a => Q x.1 a) p (s, past) := by
  induction p generalizing s past with
  | ret a => exact h
  | call op k ih =>
    refine ⟨h.1, fun r x hx => ?_⟩
    exact ih r (h.2 r x.1 hx.1) x.2

/-- A service that only gives some of its answers. -/
def Service.answering (S : Service Γ σ) (A : (op : Γ.Op) → Γ.Ans op → Prop) : Service Γ σ :=
  fun s op r s' => S s op r s' ∧ A op r

theorem Exec.answering {A : (op : Γ.Op) → Γ.Ans op → Prop} (h : Exec S s p t s' q) (hA : ∀ e ∈ t, A e.1 e.2) :
    Exec (S.answering A) s p t s' q := by
  induction h with
  | refl => exact .refl _ _
  | step hr _ ih =>
    have hfirst := hA _ List.mem_cons_self
    exact .step ⟨hr, hfirst⟩ (ih fun e he => hA e (List.mem_cons_of_mem _ he))

/-- A service together with a summary of the answered calls, kept by a fold. -/
def folded {τ : Type} (S : Service Γ σ) (f : τ → Event Γ → τ) : Service Γ (σ × τ) :=
  fun s op r s' => S s.1 op r s'.1 ∧ s'.2 = f s.2 ⟨op, r⟩

/-- Every run is a run of the folded service, which arrives at the fold of its answered calls. -/
theorem Exec.folded {f : τ → Event Γ → τ} (h : Exec S s p t s' q) (x : τ) :
    Exec (folded S f) (s, x) p t (s', t.foldl f x) q := by
  induction h generalizing x with
  | refl => exact .refl _ _
  | @step _ _ _ op _ r _ _ hr _ ih => exact .step ⟨hr, rfl⟩ (ih (f x ⟨op, r⟩))

/-- The service that gives every admitted answer and keeps only a fold of the answered calls. -/
def tracking {τ : Type} (f : τ → Event Γ → τ) (admitted : Event Γ → Prop) : Service Γ τ :=
  fun x op r x' => admitted ⟨op, r⟩ ∧ x' = f x ⟨op, r⟩

/-- A run whose answers are all admitted is a run of the tracking service. -/
theorem Exec.tracking {f : τ → Event Γ → τ} (h : Exec S s p t s' q)
    (hadm : ∀ e ∈ t, admitted e) (x : τ) : Exec (tracking f admitted) x p t (t.foldl f x) q := by
  induction h generalizing x with
  | refl => exact .refl _ _
  | step _ _ ih =>
    obtain ⟨hhead, htail⟩ := List.forall_mem_cons.1 hadm
    exact .step ⟨hhead, rfl⟩ (ih htail _)

/-- The service that may answer anything and keeps only the history: what holds under it holds
whatever the outside world does. -/
def anything (Γ : Sig) : Service Γ (List (Event Γ)) :=
  fun past op r past' => past' = past ++ [⟨op, r⟩]

/-- A run of any service, from any history, is a run under `anything`. -/
theorem Exec.forget (h : Exec S s p t s' q) (past : List (Event Γ)) : Exec (anything Γ) past p t (past ++ t) q := by
  induction h generalizing past with
  | refl => rw [List.append_nil]; exact .refl _ _
  | @step _ _ _ op _ r _ _ _ _ ih =>
    have rest := ih (past ++ [⟨op, r⟩])
    rw [List.append_assoc] at rest
    exact .step rfl rest

/-- `Returns p t a`: the answered calls `t` take `p` to the result `a`. -/
def Returns (p : Prog Γ α) (t : List (Event Γ)) (a : α) : Prop :=
  Exec (anything Γ) [] p t t (.ret a)

theorem Exec.returns (h : Exec S s p t s' (.ret a)) : Returns p t a :=
  h.forget []

theorem Returns.tracking {f : τ → Event Γ → τ} (h : Returns p t a) (hadm : ∀ e ∈ t, admitted e)
    (x : τ) : Exec (tracking f admitted) x p t (t.foldl f x) (.ret a) :=
  Exec.tracking h hadm x

@[simp]
theorem returns_ret {b : α} : Returns (.ret a : Prog Γ α) t b ↔ t = [] ∧ b = a := by
  constructor
  · intro h
    obtain ⟨ht, -, hab⟩ := h.ret_inv
    exact ⟨ht, Prog.ret.inj hab⟩
  · rintro ⟨rfl, rfl⟩
    exact .refl _ _

@[simp]
theorem returns_call : Returns (.call op k) t a ↔ ∃ r t', t = ⟨op, r⟩ :: t' ∧ Returns (k r) t' a := by
  constructor
  · intro h
    cases h with
    | @step _ _ _ _ _ r t' _ _ rest => exact ⟨r, t', rfl, rest.returns⟩
  · rintro ⟨r, t', rfl, h⟩
    exact .step rfl (h.forget [⟨op, r⟩])

@[simp]
theorem returns_bind {f : α → Prog Γ β} :
    Returns (p >>= f) t b ↔ ∃ t₁ t₂ a, Returns p t₁ a ∧ Returns (f a) t₂ b ∧ t = t₁ ++ t₂ := by
  constructor
  · intro h
    obtain ⟨t₁, t₂, _, a, h₁, h₂, ht⟩ := h.bind_ret_inv
    exact ⟨t₁, t₂, a, h₁.returns, h₂.returns, ht⟩
  · rintro ⟨t₁, t₂, a, h₁, h₂, rfl⟩
    exact (h₁.bind_left f).trans (h₂.forget t₁)

theorem returns_bind_ret {g : α → β} : Returns (p >>= fun a => .ret (g a)) t b ↔ ∃ a, Returns p t a ∧ b = g a := by
  rw [returns_bind]
  constructor
  · rintro ⟨t₁, t₂, a, h₁, h₂, rfl⟩
    obtain ⟨rfl, hb⟩ := returns_ret.1 h₂
    exact ⟨a, (List.append_nil t₁).symm ▸ h₁, hb⟩
  · rintro ⟨a, h, rfl⟩
    exact ⟨t, [], a, h, returns_ret.2 ⟨rfl, rfl⟩, (List.append_nil t).symm⟩

theorem returns_pure {b : α} : Returns (pure a : Act Γ ε α).run t (.ok b) ↔ t = [] ∧ b = a := by
  rw [show (pure a : Act Γ ε α).run = .ret (.ok a) from rfl, returns_ret, Except.ok.injEq]

theorem not_returns_throw {b : α} : ¬Returns (throw e : Act Γ ε α).run t (.ok b) := by
  rw [show (throw e : Act Γ ε α).run = .ret (.error e) from rfl, returns_ret]
  exact fun h => nomatch h.2

/-- A call whose answer may be an error, with the error rewritten, succeeds on the answer. -/
theorem returns_mapErr_ok {f : ε → ε} {b : α} :
    Returns (Act.mapErr f x).run t (.ok b) ↔ Returns x.run t (.ok b) := by
  rw [Act.run_mapErr, returns_bind_ret]
  constructor
  · rintro ⟨r, h, hr⟩
    cases r with
    | ok a => exact Except.ok.inj hr ▸ h
    | error e => cases hr
  · exact fun h => ⟨.ok b, h, rfl⟩

theorem returns_require : Returns (Act.require c e : Act Γ ε Unit).run t (.ok ()) ↔ t = [] ∧ c = true := by
  cases c
  · exact ⟨fun h => (not_returns_throw h).elim, fun h => nomatch h.2⟩
  · exact returns_pure.trans (by simp)

theorem returns_attempt {r : Except ε α} : Returns (Act.attempt x).run t (.ok r) ↔ Returns x.run t r := by
  simp

theorem returns_embed : Returns (Act.embed p : Act Γ ε α).run t (.ok a) ↔ Returns p t a := by
  rw [show (Act.embed p : Act Γ ε α).run = p >>= fun a => .ret (.ok a) from rfl]
  simp

theorem returns_ask {r : Γ.Ans op} : Returns (Act.ask op : Act Γ ε _).run t (.ok r) ↔ t = [⟨op, r⟩] := by
  rw [Act.run_ask, returns_call]
  constructor
  · rintro ⟨r', t', rfl, h⟩
    obtain ⟨rfl, hr⟩ := returns_ret.1 h
    rw [Except.ok.inj hr]
  · rintro rfl
    exact ⟨r, [], rfl, returns_ret.2 ⟨rfl, rfl⟩⟩

theorem returns_perform {r : Γ.Ans op} : Returns (Prog.perform op) t r ↔ t = [⟨op, r⟩] := by
  rw [Prog.perform, returns_call]
  constructor
  · rintro ⟨r', t', rfl, h⟩
    obtain ⟨rfl, rfl⟩ := returns_ret.1 h
    rfl
  · rintro rfl
    exact ⟨r, [], rfl, returns_ret.2 ⟨rfl, rfl⟩⟩

theorem returns_bind_ok : Returns (x >>= f).run t (.ok b) ↔
      ∃ t₁ t₂ a, Returns x.run t₁ (.ok a) ∧ Returns (f a).run t₂ (.ok b) ∧ t = t₁ ++ t₂ := by
  rw [ExceptT.run_bind, returns_bind]
  constructor
  · rintro ⟨t₁, t₂, r, h₁, h₂, ht⟩
    cases r with
    | ok a => exact ⟨t₁, t₂, a, h₁, h₂, ht⟩
    | error e => cases (returns_ret.1 h₂).2
  · rintro ⟨t₁, t₂, a, h₁, h₂, ht⟩
    exact ⟨t₁, t₂, .ok a, h₁, h₂, ht⟩

theorem Returns.required {f : Unit → Act Γ ε β} (h : Returns (Act.require c e >>= f).run t (.ok b)) :
    c = true ∧ Returns (f ()).run t (.ok b) := by
  obtain ⟨_, _, _, hrequire, hf, rfl⟩ := returns_bind_ok.1 h
  obtain ⟨rfl, hc⟩ := returns_require.1 hrequire
  exact ⟨hc, hf⟩

theorem Returns.thenOk (hx : Returns x.run t (.ok a)) (hf : ∃ t, Returns (f a).run t (.ok b)) :
    ∃ t, Returns (x >>= f).run t (.ok b) := by
  obtain ⟨t', ht'⟩ := hf
  exact ⟨t ++ t', returns_bind_ok.2 ⟨t, t', a, hx, ht', rfl⟩⟩

theorem returns_bind_error (h : Returns (x >>= f).run t (.error e)) : Returns x.run t (.error e) ∨
      ∃ t₁ t₂ a, Returns x.run t₁ (.ok a) ∧ Returns (f a).run t₂ (.error e) ∧ t = t₁ ++ t₂ := by
  rw [ExceptT.run_bind, returns_bind] at h
  obtain ⟨t₁, t₂, r, h₁, h₂, rfl⟩ := h
  cases r with
  | ok a => exact .inr ⟨t₁, t₂, a, h₁, h₂, rfl⟩
  | error e' =>
    obtain ⟨rfl, he⟩ := returns_ret.1 h₂
    rw [List.append_nil, Except.error.inj he]
    exact .inl h₁

/-- Invariant rule for the successful runs of an accumulating loop: `I` relates the elements already
processed, the accumulator and the history so far. -/
theorem returns_foldlM_ok {body : α → γ → Act Γ ε α} (I : List γ → α → List (Event Γ) → Prop) {b : α}
    (hbody : ∀ done x a a' past t, x ∈ xs → I done a past → Returns (body a x).run t (.ok a') →
      I (done ++ [x]) a' (past ++ t))
    (hinit : I [] a past) (h : Returns (xs.foldlM body a).run t (.ok b)) : I xs b (past ++ t) := by
  suffices H : ∀ rest done a past t, (∀ x ∈ rest, x ∈ xs) → I done a past →
      Returns (rest.foldlM body a).run t (.ok b) → I (done ++ rest) b (past ++ t) from
    H xs [] a past t (fun _ hx => hx) hinit h
  intro rest
  induction rest with
  | nil =>
    intro done a past t _ hI hrun
    obtain ⟨rfl, hab⟩ := returns_ret.1 hrun
    rw [List.append_nil, List.append_nil, Except.ok.inj hab]
    exact hI
  | cons x rest ih =>
    intro done a past t hsub hI hrun
    rw [List.foldlM_cons, returns_bind_ok] at hrun
    obtain ⟨t₁, t₂, a', h₁, h₂, rfl⟩ := hrun
    have hstep := hbody done x a a' past t₁ (hsub x List.mem_cons_self) hI h₁
    have hrest := ih (done ++ [x]) a' (past ++ t₁) t₂ (fun y hy => hsub y (List.mem_cons_of_mem x hy)) hstep h₂
    rwa [List.append_assoc, List.append_assoc] at hrest

theorem returns_forM_ok (h : Returns (forM xs body).run t (.ok ⟨⟩)) :
    ∀ x ∈ xs, ∃ t₁ t₂ t₃, t = t₁ ++ t₂ ++ t₃ ∧ Returns (body x).run t₂ (.ok ⟨⟩) := by
  induction xs generalizing t with
  | nil => nofun
  | cons y ys ih =>
    obtain ⟨t₁, t₂, u, hhead, htail, rfl⟩ := returns_bind_ok.1 h
    intro x hx
    rcases List.mem_cons.1 hx with rfl | hmem
    · exact ⟨[], t₁, t₂, rfl, hhead⟩
    · obtain ⟨s₁, s₂, s₃, rfl, hbody⟩ := ih htail x hmem
      exact ⟨t₁ ++ s₁, s₂, s₃, by simp only [List.append_assoc], hbody⟩

/-- Every error an error-stopping program can end with satisfies `P`. -/
def FailsOnly (P : ε → Prop) (x : Act Γ ε α) : Prop :=
  ∀ t e, Returns x.run t (.error e) → P e

section FailsOnly

variable {P : ε → Prop}

theorem FailsOnly.andThen (hx : FailsOnly P x) (hf : ∀ a, FailsOnly P (f a)) : FailsOnly P (x >>= f) := by
  intro t e h
  rcases returns_bind_error h with h | ⟨_, t₂, a, _, h, _⟩
  · exact hx t e h
  · exact hf a t₂ e h

theorem failsOnly_pure (a : α) : FailsOnly P (pure a : Act Γ ε α) := by
  intro t e h
  cases (returns_ret.1 h).2

theorem failsOnly_throw (he : P e) : FailsOnly P (throw e : Act Γ ε α) := by
  intro t e' h
  cases (returns_ret.1 h).2
  exact he

theorem failsOnly_ask (op : Γ.Op) : FailsOnly P (Act.ask op : Act Γ ε _) := by
  intro t e h
  obtain ⟨_, _, _, h⟩ := returns_call.1 h
  cases (returns_ret.1 h).2

theorem failsOnly_attempt (x : Act Γ ε α) : FailsOnly P (Act.attempt x) := by
  intro t e h
  obtain ⟨_, -, hr⟩ := returns_bind_ret.1 h
  cases hr

theorem failsOnly_embed (p : Prog Γ α) : FailsOnly P (Act.embed p : Act Γ ε α) := by
  intro t e h
  obtain ⟨_, -, hr⟩ := returns_bind_ret.1 h
  cases hr

theorem failsOnly_require (he : P e) : FailsOnly P (Act.require c e : Act Γ ε Unit) := by
  unfold Act.require
  split
  · exact failsOnly_pure ()
  · exact failsOnly_throw he

theorem failsOnly_mapErr {f : ε → ε} (hf : ∀ e, P (f e)) : FailsOnly P (Act.mapErr f x) := by
  intro t e h
  obtain ⟨r, -, hr⟩ := returns_bind_ret.1 h
  cases r with
  | ok a => cases hr
  | error e' =>
    cases hr
    exact hf e'

theorem failsOnly_foldlM {body : α → γ → Act Γ ε α} (xs : List γ)
    (h : ∀ a, ∀ x ∈ xs, FailsOnly P (body a x)) (a : α) : FailsOnly P (xs.foldlM body a) := by
  induction xs generalizing a with
  | nil => exact failsOnly_pure a
  | cons x xs ih =>
    exact (h a x List.mem_cons_self).andThen fun b => ih (fun c y hy => h c y (List.mem_cons_of_mem x hy)) b

theorem failsOnly_forM (xs : List γ) (h : ∀ x ∈ xs, FailsOnly P (body x)) : FailsOnly P (forM xs body) := by
  rw [Act.forM_eq_foldlM]
  exact failsOnly_foldlM xs (fun _ => h) ⟨⟩

theorem FailsOnly.ensures (hx : FailsOnly P x) :
    Ensures S (fun _ _ => True) (fun _ r => ∀ e, r = .error e → P e) x.run s := by
  have hall : ∀ t r, Returns x.run t r → ∀ e, r = .error e → P e := by
    rintro t _ h e rfl
    exact hx t e h
  generalize x.run = p at hall
  induction p generalizing s with
  | ret r =>
    have hret : Returns (.ret r : Prog Γ (Except ε α)) [] r := returns_ret.2 ⟨rfl, rfl⟩
    exact hall [] r hret
  | call op k ih =>
    exact ⟨trivial, fun r s' _ => ih r fun t a h => hall (⟨op, r⟩ :: t) a (returns_call.2 ⟨r, t, rfl, h⟩)⟩

end FailsOnly

theorem Returns.issued (h : Returns p t a) (hp : p.Issues U) : ∀ e ∈ t, U e.1 := by
  induction p generalizing t with
  | ret b =>
    obtain ⟨rfl, -⟩ := returns_ret.1 h
    nofun
  | call op k ih =>
    obtain ⟨r, t', rfl, hrest⟩ := returns_call.1 h
    intro e he
    rcases List.mem_cons.1 he with rfl | he
    · exact hp.1
    · exact ih r hrest (hp.2 r) e he

/-- Which calls a sequence can issue, when what the first half can return is taken into account. -/
theorem issues_bind_iff {f : α → Prog Γ β} :
    (p >>= f).Issues U ↔ p.Issues U ∧ ∀ t a, Returns p t a → (f a).Issues U := by
  induction p with
  | ret a =>
    constructor
    · intro h
      refine ⟨trivial, fun t b hret => ?_⟩
      obtain ⟨-, rfl⟩ := returns_ret.1 hret
      exact h
    · intro h
      exact h.2 [] a (returns_ret.2 ⟨rfl, rfl⟩)
  | call op k ih =>
    constructor
    · intro h
      refine ⟨⟨h.1, fun r => ((ih r).1 (h.2 r)).1⟩, fun t b hret => ?_⟩
      obtain ⟨r, t', rfl, hrest⟩ := returns_call.1 hret
      exact ((ih r).1 (h.2 r)).2 t' b hrest
    · intro h
      refine ⟨h.1.1, fun r => (ih r).2 ⟨h.1.2 r, fun t b hret => ?_⟩⟩
      exact h.2 (⟨op, r⟩ :: t) b (returns_call.2 ⟨r, t, rfl, hret⟩)

theorem issues_run_bind_iff :
    (x >>= f).run.Issues U ↔ x.run.Issues U ∧ ∀ t a, Returns x.run t (.ok a) → (f a).run.Issues U := by
  rw [ExceptT.run_bind, issues_bind_iff]
  refine and_congr_right fun _ => ⟨fun h t a hret => h t (.ok a) hret, fun h t r hret => ?_⟩
  cases r with
  | ok a => exact h t a hret
  | error e => trivial

/-- A loop can issue what the body issues for an element that the elements before it can lead to. -/
theorem issues_forM_iff : (forM xs body).run.Issues U ↔ ∀ done x rest, xs = done ++ x :: rest →
      (∀ d ∈ done, ∃ t, Returns (body d).run t (.ok ⟨⟩)) → (body x).run.Issues U := by
  induction xs with
  | nil => exact ⟨fun _ done x rest h => by simp at h, fun _ => trivial⟩
  | cons y ys ih =>
    rw [List.forM_cons, issues_run_bind_iff, ih]
    constructor
    · rintro ⟨hhead, htail⟩ done x rest hsplit hdone
      cases done with
      | nil =>
        obtain ⟨rfl, -⟩ := List.cons.inj hsplit
        exact hhead
      | cons d done =>
        obtain ⟨rfl, hrest⟩ := List.cons.inj hsplit
        obtain ⟨t, ht⟩ := hdone y List.mem_cons_self
        exact htail t ⟨⟩ ht done x rest hrest fun d hd => hdone d (List.mem_cons_of_mem _ hd)
    · intro h
      refine ⟨h [] y ys rfl nofun, fun t _ ht done x rest hrest hdone => ?_⟩
      exact h (y :: done) x rest (congrArg (y :: ·) hrest) (List.forall_mem_cons.2 ⟨⟨t, ht⟩, hdone⟩)

/-- Under a traced service the result of a program comes with the answered calls that led to it. -/
theorem Ensures.returned {G : σ × List (Event Γ) → Γ.Op → Prop}
    {Q : σ × List (Event Γ) → α → Prop} {x : σ × List (Event Γ)} (h : Ensures (traced S) G Q p x) :
    Ensures (traced S) G (fun y a => Q y a ∧ ∃ t, y.2 = x.2 ++ t ∧ Returns p t a) p x := by
  induction p generalizing x with
  | ret a =>
    have hret : Returns (.ret a : Prog Γ α) [] a := returns_ret.2 ⟨rfl, rfl⟩
    exact ⟨h, [], (List.append_nil _).symm, hret⟩
  | call op k ih =>
    refine ⟨h.1, fun r y hy => (ih r (h.2 r y hy)).imp fun z a hz => ?_⟩
    obtain ⟨hQ, t, ht, hret⟩ := hz
    refine ⟨hQ, ⟨op, r⟩ :: t, ?_, returns_call.2 ⟨r, t, rfl, hret⟩⟩
    rw [ht, hy.2, List.append_assoc]
    rfl

theorem Exec.answered {A : (op : Γ.Op) → Γ.Ans op → Prop} (h : Exec S s p t s' q)
    (hS : ∀ s op r s', S s op r s' → A op r) : ∀ e ∈ t, A e.1 e.2 := by
  induction h with
  | refl => nofun
  | step hr _ ih =>
    intro e he
    rcases List.mem_cons.1 he with rfl | he
    · exact hS _ _ _ _ hr
    · exact ih e he

/-- A program that only issues calls satisfying `U` meets every obligation those calls meet anyway,
and ends in the history that its own run extends. -/
theorem Prog.Issues.ensures_returns {G : List (Event Γ) → Γ.Op → Prop} (hp : p.Issues U) (hG : ∀ past op, U op → G past op) (past : List (Event Γ)) :
    Ensures (anything Γ) G (fun past' a => ∃ t, past' = past ++ t ∧ Returns p t a) p past := by
  induction p generalizing past with
  | ret a => exact ⟨[], (List.append_nil past).symm, .refl _ _⟩
  | call op k ih =>
    refine ⟨hG past op hp.1, fun r past' hr => ?_⟩
    refine (ih r (hp.2 r) past').imp fun past'' a ⟨t, hpast, hrun⟩ => ⟨⟨op, r⟩ :: t, ?_, ?_⟩
    · rw [hpast, hr, List.append_assoc]
      rfl
    · exact .step rfl (hrun.forget [⟨op, r⟩])

/-- A program that only issues calls satisfying `U` keeps a history of such calls, and forgets nothing of it. -/
theorem Prog.Issues.ensures_past (hp : p.Issues U) (hpast : ∀ e ∈ past, U e.1) :
    Ensures (anything Γ) (fun _ op => U op) (fun past' _ => (∀ e ∈ past', U e.1) ∧ past ⊆ past') p past := by
  refine hp.ensures (I := fun past' => (∀ e ∈ past', U e.1) ∧ past ⊆ past') ?_ (fun _ _ hop _ => hop)
    ⟨hpast, List.Subset.refl _⟩
  rintro past₁ op r _ hop ⟨hkept, hsub⟩ rfl
  refine ⟨fun e he => ?_, fun e he => List.mem_append_left _ (hsub he)⟩
  rcases List.mem_append.1 he with he | he
  · exact hkept e he
  · rw [List.mem_singleton.1 he]
    exact hop

/-! ## Order within a history -/

/-- Every event of the history meets `Q` together with the events before it. -/
def Along {E : Type} (Q : List E → E → Prop) : List E → List E → Prop
  | _, [] => True
  | past, e :: t => Q past e ∧ Along Q (past ++ [e]) t

section Along

variable {E : Type} {Q : List E → E → Prop} {past : List E}

@[simp]
theorem along_nil : Along Q past [] := trivial

@[simp]
theorem along_cons {e : E} {t : List E} : Along Q past (e :: t) ↔ Q past e ∧ Along Q (past ++ [e]) t := Iff.rfl

@[simp]
theorem along_append {t t' : List E} : Along Q past (t ++ t') ↔ Along Q past t ∧ Along Q (past ++ t) t' := by
  induction t generalizing past with
  | nil => simp
  | cons e t ih => simp [ih, and_assoc]

/-- The reading of `Along` by positions. -/
theorem along_iff_split {t : List E} : Along Q past t ↔ ∀ t₁ e t₂, t = t₁ ++ e :: t₂ → Q (past ++ t₁) e := by
  induction t generalizing past with
  | nil => simp
  | cons e t ih =>
    rw [along_cons, ih]
    constructor
    · rintro ⟨he, hrest⟩ t₁ e' t₂ hsplit
      cases t₁ with
      | nil =>
        obtain ⟨rfl, -⟩ := List.cons.inj hsplit
        rwa [List.append_nil]
      | cons a t₁ =>
        obtain ⟨rfl, htail⟩ := List.cons.inj hsplit
        have := hrest t₁ e' t₂ htail
        rwa [List.append_assoc] at this
    · intro h
      refine ⟨by simpa using h [] e t rfl, fun t₁ e' t₂ htail => ?_⟩
      have := h (e :: t₁) e' t₂ (by rw [htail]; rfl)
      rwa [List.append_assoc]

/-- In a list where one event is marked there is one way to split at it. -/
theorem split_at_unique {P : E → Prop} {before before' after after' : List E} {e e' : E}
    (h : before ++ e :: after = before' ++ e' :: after') (hbefore : ∀ x ∈ before, ¬P x)
    (hafter : ∀ x ∈ after, ¬P x) (he' : P e') : before = before' ∧ e = e' ∧ after = after' := by
  induction before generalizing before' with
  | nil =>
    cases before' with
    | nil =>
      obtain ⟨he, ht⟩ := List.cons.inj h
      exact ⟨rfl, he, ht⟩
    | cons x l =>
      obtain ⟨-, ht⟩ := List.cons.inj h
      exact (hafter e' (by simp [ht]) he').elim
  | cons x l ih =>
    obtain ⟨hx, hl⟩ := List.forall_mem_cons.1 hbefore
    cases before' with
    | nil =>
      obtain ⟨rfl, -⟩ := List.cons.inj h
      exact (hx he').elim
    | cons x' l' =>
      obtain ⟨rfl, ht⟩ := List.cons.inj h
      obtain ⟨rfl, hrest⟩ := ih ht hl
      exact ⟨rfl, hrest⟩

end Along

/-- An obligation on the calls of a program holds along every run of it. -/
theorem Ensures.along {G : List (Event Γ) → Γ.Op → Prop} {Q : List (Event Γ) → α → Prop}
    {past' : List (Event Γ)} (h : Ensures (anything Γ) G Q p past)
    (hrun : Exec (anything Γ) past p t past' q) : Along (fun past e => G past e.1) past t := by
  induction hrun with
  | refl => trivial
  | step hr _ ih =>
    cases hr
    exact ⟨h.1, ih (h.2 _ _ rfl)⟩

/-! ## Deterministic services -/

/-- A service that answers by a function. -/
abbrev Handler (Γ : Sig) (σ : Type) : Type :=
  σ → (op : Γ.Op) → Γ.Ans op × σ

/-- The relational reading of a handler. -/
def Handler.service (H : Handler Γ σ) : Service Γ σ :=
  fun s op r s' => H s op = (r, s')

theorem Handler.answered {h : Handler Γ σ} (hr : h.service s op r s') : (h s op).1 = r ∧ (h s op).2 = s' :=
  Prod.ext_iff.1 hr

theorem Handler.service_total (H : Handler Γ σ) : H.service.Total :=
  fun s op => ⟨(H s op).1, (H s op).2, rfl⟩

/-- Run a program against a handler, collecting the answered calls. -/
def Prog.eval (H : Handler Γ σ) : Prog Γ α → σ → α × List (Event Γ) × σ
  | .ret a, s => (a, [], s)
  | .call op k, s =>
    let next := H s op
    let out := eval H (k next.1) next.2
    (out.1, ⟨op, next.1⟩ :: out.2.1, out.2.2)

/-- Evaluation is a run: the executable semantics and the relational one agree. -/
theorem exec_eval (H : Handler Γ σ) (p : Prog Γ α) (s : σ) :
    Exec H.service s p (p.eval H s).2.1 (p.eval H s).2.2 (.ret (p.eval H s).1) := by
  induction p generalizing s with
  | ret a => exact .refl s _
  | call op k ih => exact .step rfl (ih (H s op).1 (H s op).2)

/-- The same for a run that has a name, which keeps the program from being run here. -/
theorem exec_of_eval {H : Handler Γ σ} {run : α × List (Event Γ) × σ} (h : run = p.eval H s) :
    Exec H.service s p run.2.1 run.2.2 (.ret run.1) :=
  h ▸ exec_eval H p s

/-- Run a program against a handler for at most `n` calls: what is left of it, the answered calls and
the state. -/
def Prog.evalFor (H : Handler Γ σ) : Nat → Prog Γ α → σ → Prog Γ α × List (Event Γ) × σ
  | n + 1, .call op k, s =>
    let next := H s op
    let out := evalFor H n (k next.1) next.2
    (out.1, ⟨op, next.1⟩ :: out.2.1, out.2.2)
  | _, p, s => (p, [], s)

theorem Prog.exec_evalFor (H : Handler Γ σ) (n : Nat) (p : Prog Γ α) (s : σ) :
    Exec H.service s p (p.evalFor H n s).2.1 (p.evalFor H n s).2.2 (p.evalFor H n s).1 := by
  induction n generalizing p s with
  | zero => exact .refl s p
  | succ n ih =>
    cases p with
    | ret a => exact .refl s _
    | call op k => exact .step rfl (ih (k (H s op).1) (H s op).2)

theorem Prog.exec_of_evalFor {H : Handler Γ σ} {n : Nat} {run : Prog Γ α × List (Event Γ) × σ}
    (h : run = p.evalFor H n s) : Exec H.service s p run.2.1 run.2.2 run.1 :=
  h ▸ exec_evalFor H n p s

/-- A run whose every answer is the one the handler gives from a fixed state is its evaluation. -/
theorem Returns.eval {H : Handler Γ σ} (h : Returns p t a) (hfix : ∀ op, (H s op).2 = s)
    (hans : ∀ e ∈ t, (H s e.1).1 = e.2) : (p.eval H s).1 = a := by
  suffices Hgen : ∀ {p q : Prog Γ α} {t past past' : List (Event Γ)},
      Exec (anything Γ) past p t past' q → q = .ret a → (∀ e ∈ t, (H s e.1).1 = e.2) →
      (p.eval H s).1 = a from Hgen h rfl hans
  intro p q t past past' h
  induction h with
  | refl => rintro rfl _; rfl
  | @step _ _ _ op k r t q _ _ ih =>
    intro hq hans
    have hop : (H s op).1 = r := hans ⟨op, r⟩ List.mem_cons_self
    have rest := ih hq fun e he => hans e (List.mem_cons_of_mem _ he)
    simpa only [Prog.eval, hfix, hop] using rest

/-- Run a program against answers that need not be given for every call. -/
def Prog.serve (H : σ → (op : Γ.Op) → Option (Γ.Ans op × σ)) : Prog Γ α → σ → Option (α × σ)
  | .ret a, s => some (a, s)
  | .call op k, s => (H s op).bind fun x => (k x.1).serve H x.2

theorem Prog.exec_serve {H : σ → (op : Γ.Op) → Option (Γ.Ans op × σ)}
    (hH : ∀ s op r s', H s op = some (r, s') → S s op r s')
    (h : p.serve H s = some (a, s')) : ∃ t, Exec S s p t s' (.ret a) := by
  induction p generalizing s with
  | ret b =>
    cases h
    exact ⟨[], .refl _ _⟩
  | call op k ih =>
    obtain ⟨x, hx, hrest⟩ := Option.bind_eq_some_iff.1 h
    obtain ⟨t, hrun⟩ := ih x.1 hrest
    exact ⟨⟨op, x.1⟩ :: t, .step (hH s op x.1 x.2 hx) hrun⟩

/-! ## Fixed answers -/

/-- The result of a program when every call receives the answer that `A` fixes for it. -/
def Prog.given (A : (op : Γ.Op) → Γ.Ans op) : Prog Γ α → α
  | .ret a => a
  | .call op k => (k (A op)).given A

section Given

variable {A : (op : Γ.Op) → Γ.Ans op}

@[simp]
theorem Prog.given_ret (a : α) : (.ret a : Prog Γ α).given A = a := rfl

@[simp]
theorem Prog.given_perform (op : Γ.Op) : (Prog.perform op : Prog Γ _).given A = A op := rfl

@[simp]
theorem Prog.given_bind (p : Prog Γ α) (f : α → Prog Γ β) : (p >>= f).given A = (f (p.given A)).given A := by
  induction p with
  | ret a => rfl
  | call op k ih => exact ih (A op)

@[simp]
theorem Act.given_ask (op : Γ.Op) : (Act.ask op : Act Γ ε _).run.given A = .ok (A op) := rfl

@[simp]
theorem Act.given_pure (a : α) : (pure a : Act Γ ε α).run.given A = .ok a := rfl

@[simp]
theorem Act.given_throw (e : ε) : (throw e : Act Γ ε α).run.given A = .error e := rfl

theorem Act.given_require_ok : (Act.require c e : Act Γ ε Unit).run.given A = .ok () ↔ c = true := by
  cases c
  · exact ⟨nofun, nofun⟩
  · exact ⟨fun _ => rfl, fun _ => rfl⟩

@[simp]
theorem Act.given_mapErr (f : ε → ε) (x : Act Γ ε α) : (Act.mapErr f x).run.given A = (x.run.given A).mapError f :=
  Prog.given_bind _ _

@[simp]
theorem Act.given_attempt (x : Act Γ ε α) : (Act.attempt x).run.given A = .ok (x.run.given A) :=
  Prog.given_bind _ _

theorem Act.given_bind_ok :
    (x >>= f).run.given A = .ok b ↔ ∃ a, x.run.given A = .ok a ∧ (f a).run.given A = .ok b := by
  rw [ExceptT.run_bind, Prog.given_bind]
  cases x.run.given A with
  | ok | error => simp

theorem Act.given_bind_of_ok (h : x.run.given A = .ok a) : (x >>= f).run.given A = (f a).run.given A := by
  rw [ExceptT.run_bind, Prog.given_bind, h]

theorem Act.given_forM_ok (xs : List γ) :
    (forM xs body).run.given A = .ok ⟨⟩ ↔ ∀ x ∈ xs, (body x).run.given A = .ok ⟨⟩ := by
  induction xs with
  | nil => exact ⟨fun _ => nofun, fun _ => rfl⟩
  | cons x xs ih =>
    rw [List.forM_cons, Act.given_bind_ok, List.forall_mem_cons, ← ih]
    constructor
    · rintro ⟨_, hx, hxs⟩
      exact ⟨hx, hxs⟩
    · rintro ⟨hx, hxs⟩
      exact ⟨⟨⟩, hx, hxs⟩

theorem Act.given_foldlM_ok {body : β → γ → Act Γ ε β} {f : β → γ → β} (xs : List γ)
    (h : ∀ x ∈ xs, ∀ b, (body b x).run.given A = .ok (f b x)) :
    (xs.foldlM body b).run.given A = .ok (xs.foldl f b) := by
  induction xs generalizing b with
  | nil => rfl
  | cons x xs ih =>
    obtain ⟨hx, hxs⟩ := List.forall_mem_cons.1 h
    exact Act.given_bind_ok.2 ⟨f b x, hx b, ih hxs⟩

/-- A service that may give these answers has a run that returns what they lead to. -/
theorem Prog.exec_given {f : τ → Event Γ → τ} (hA : ∀ op, admitted ⟨op, A op⟩) (p : Prog Γ α) (x : τ) :
    ∃ t y, Exec (tracking f admitted) x p t y (.ret (p.given A)) := by
  induction p generalizing x with
  | ret a => exact ⟨[], x, .refl x _⟩
  | call op k ih =>
    obtain ⟨t, y, hrun⟩ := ih (A op) (f x ⟨op, A op⟩)
    exact ⟨⟨op, A op⟩ :: t, y, .step ⟨hA op, rfl⟩ hrun⟩

end Given

/-- The calls a program makes when every call receives the answer that `A` fixes for it. -/
def Prog.asked (A : (op : Γ.Op) → Γ.Ans op) : Prog Γ α → List Γ.Op
  | .ret _ => []
  | .call op k => op :: (k (A op)).asked A

section Asked

variable {A : (op : Γ.Op) → Γ.Ans op} {op : Γ.Op}

theorem Prog.asked_bind (p : Prog Γ α) (f : α → Prog Γ β) :
    (p >>= f).asked A = p.asked A ++ (f (p.given A)).asked A := by
  induction p with
  | ret a => rfl
  | call op k ih => exact congrArg (op :: ·) (ih (A op))

theorem Prog.mem_asked_perform : op ∈ (Prog.perform op : Prog Γ _).asked A :=
  List.mem_singleton_self op

theorem Prog.asked_bind_left {f : α → Prog Γ β} (h : op ∈ p.asked A) : op ∈ (p >>= f).asked A := by
  rw [asked_bind]
  exact List.mem_append_left _ h

theorem Act.mem_asked_ask : op ∈ (Act.ask op : Act Γ ε _).run.asked A :=
  List.mem_singleton_self op

theorem Act.asked_left (h : op ∈ x.run.asked A) : op ∈ (x >>= f).run.asked A := by
  exact Prog.asked_bind_left h

theorem Act.asked_right (hx : x.run.given A = .ok a) (h : op ∈ (f a).run.asked A) : op ∈ (x >>= f).run.asked A := by
  rw [ExceptT.run_bind, Prog.asked_bind, hx]
  exact List.mem_append_right _ h

theorem Act.asked_mapErr {f : ε → ε} (h : op ∈ x.run.asked A) : op ∈ (Act.mapErr f x).run.asked A :=
  Prog.asked_bind_left h

theorem Act.asked_attempt (h : op ∈ x.run.asked A) : op ∈ (Act.attempt x).run.asked A :=
  Prog.asked_bind_left h

theorem Act.asked_forM {x : γ} (hxs : ∀ y ∈ xs, (body y).run.given A = .ok ⟨⟩) (hx : x ∈ xs)
    (h : op ∈ (body x).run.asked A) : op ∈ (forM xs body).run.asked A := by
  induction xs with
  | nil => cases hx
  | cons y ys ih =>
    obtain rfl | hmem := List.mem_cons.1 hx
    · exact Act.asked_left h
    · exact Act.asked_right (hxs y List.mem_cons_self) (ih (fun z hz => hxs z (List.mem_cons_of_mem _ hz)) hmem)

/-- A service that may give these answers has a run that waits for each call they lead to. -/
theorem Prog.exec_of_asked (hA : ∀ op, S s op (A op) s)
    (h : op ∈ p.asked A) : ∃ t q, Exec S s p t s q ∧ q.next = some op := by
  induction p with
  | ret a => cases h
  | call first k ih =>
    obtain rfl | hmem := List.mem_cons.1 h
    · exact ⟨[], _, .refl s _, rfl⟩
    · obtain ⟨t, q, hrun, hnext⟩ := ih (A first) hmem
      exact ⟨⟨first, A first⟩ :: t, q, .step (hA first) hrun, hnext⟩

/-- A service that may give these answers without a change of its state has a run to the end there. -/
theorem Prog.exec_still (hA : ∀ op, S s op (A op) s) (p : Prog Γ α) : ∃ t, Exec S s p t s (.ret (p.given A)) := by
  induction p with
  | ret a => exact ⟨[], .refl s _⟩
  | call op k ih =>
    obtain ⟨t, hrun⟩ := ih (A op)
    exact ⟨⟨op, A op⟩ :: t, .step (hA op) hrun⟩

end Asked

-- From here on these are known by their rules. Unfolding them would make the elaborator compute the
-- program they are about.
attribute [irreducible] Prog.Issues Ensures Returns

end PodmanApi.Calls
