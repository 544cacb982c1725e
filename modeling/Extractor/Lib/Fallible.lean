import Mathlib.Data.List.Basic

/-!
# Sequences of checks

Code that checks one thing after another and returns early is written with `require` (a
check with its error) and `okOr` (a value that must be present), in any monad with errors.
For `Except` the lemmas below turn a successful sequence into the conjunction of its checks.
-/

universe u v

variable {ε : Type u} {m : Type → Type v} {α β : Type}

/-- Returns early with the error `e` unless `c` holds. -/
def require [Monad m] [MonadExceptOf ε m] (c : Prop) [Decidable c] (e : ε) : m Unit :=
  if c then pure () else throw e

/-- `Option::ok_or`: returns early with the error `e` unless a value is present. -/
def okOr [Monad m] [MonadExceptOf ε m] (o : Option α) (e : ε) : m α :=
  match o with
  | some a => pure a
  | none => throw e

namespace Except

/-- A sequence succeeds when both of its parts do. -/
theorem bind_eq_ok_iff {ε : Type u} {x : Except ε α} {f : α → Except ε β} {b : β} :
    (x >>= f) = .ok b ↔ ∃ a, x = .ok a ∧ f a = .ok b := by
  cases x with
  | error e =>
      refine ⟨fun h => (by cases h), ?_⟩
      rintro ⟨a, h, -⟩
      cases h
  | ok a =>
      refine ⟨fun h => ⟨a, rfl, h⟩, ?_⟩
      rintro ⟨a', h, h'⟩
      cases h
      exact h'

/-- A check succeeds when its condition holds. -/
theorem require_eq_ok_iff {ε : Type u} {c : Prop} [Decidable c] {e : ε} {u : Unit} :
    (require c e : Except ε Unit) = .ok u ↔ c := by
  unfold require
  by_cases h : c
  · simp only [h, if_true, iff_true]
    rfl
  · simp only [h, if_false, iff_false]
    intro heq
    cases heq

/-- A value that must be present is the value that is. -/
theorem okOr_eq_ok_iff {ε : Type u} {o : Option α} {e : ε} {a : α} :
    (okOr o e : Except ε α) = .ok a ↔ o = some a := by
  cases o with
  | none =>
      refine ⟨fun h => (by cases h), fun h => (by cases h)⟩
  | some b =>
      refine ⟨fun h => congrArg some (Except.ok.inj h), fun h => ?_⟩
      rw [Option.some.inj h]
      rfl

/-- Renaming errors does not touch a success. -/
theorem mapError_eq_ok_iff {ε ε' : Type u} {f : ε → ε'} {x : Except ε α} {a : α} :
    x.mapError f = .ok a ↔ x = .ok a := by
  cases x with
  | error e => exact ⟨fun h => (by cases h), fun h => (by cases h)⟩
  | ok b =>
      refine ⟨fun h => congrArg Except.ok (Except.ok.inj h), fun h => ?_⟩
      rw [Except.ok.inj h]
      rfl

/-! ### Errors -/

/-- Every error of a result satisfies `P`. -/
def ErrorsIn {ε : Type u} (P : ε → Prop) (x : Except ε α) : Prop :=
  ∀ e, x = .error e → P e

section Errors

variable {ε : Type u} {P : ε → Prop} {x : Except ε α}

/-- A success has no error. -/
theorem ErrorsIn.ok {a : α} : ErrorsIn P (.ok a : Except ε α) :=
  fun _ h => nomatch h

/-- The rule for an error. -/
theorem ErrorsIn.error {e : ε} (h : P e) : ErrorsIn P (.error e : Except ε α) :=
  fun _ heq => Except.error.inj heq ▸ h

/-- The rule for sequencing. -/
theorem ErrorsIn.bind {f : α → Except ε β} (hx : ErrorsIn P x)
    (hf : ∀ a, x = .ok a → ErrorsIn P (f a)) : ErrorsIn P (x >>= f) := by
  intro e h
  cases x with
  | error e' => exact hx e (congrArg Except.error (Except.error.inj h))
  | ok a => exact hf a rfl e h

/-- The rule for a check. -/
theorem ErrorsIn.check {c : Prop} [Decidable c] {e : ε} (h : ¬ c → P e) :
    ErrorsIn P (require c e : Except ε Unit) := by
  by_cases hc : c
  · rw [require, if_pos hc]
    exact .ok
  · rw [require, if_neg hc]
    exact .error (h hc)

/-- The rule for a value that must be present. -/
theorem ErrorsIn.present {o : Option α} {e : ε} (h : P e) :
    ErrorsIn P (okOr o e : Except ε α) := by
  cases o with
  | none => exact .error h
  | some a => exact .ok

/-- The rule for renamed errors. -/
theorem ErrorsIn.renamed {ε' : Type u} {f : ε' → ε} {y : Except ε' α} (h : ∀ e, P (f e)) :
    ErrorsIn P (y.mapError f) := by
  cases y with
  | error e => exact .error (h e)
  | ok a => exact .ok

end Errors

/-- The value of a successful result. -/
theorem toOption_eq_some_iff {ε : Type u} {x : Except ε α} {a : α} :
    x.toOption = some a ↔ x = .ok a := by
  cases x with
  | error e => exact ⟨fun h => (by cases h), fun h => (by cases h)⟩
  | ok b => exact ⟨fun h => (by cases h; rfl), fun h => (by cases h; rfl)⟩

end Except
