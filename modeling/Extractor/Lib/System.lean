import Mathlib.Data.List.Basic

/-!
# Labelled transition systems

A small library on labelled transition systems over arbitrary state and label types:
runs, reachable states, the invariant rule, the restriction of a system to steps that
meet a condition, and simulations. Nothing here depends on what the states are.

## Main results

* `System.Reachable.invariant`: an assertion that holds initially and is preserved by
  every step out of a reachable state holds in every reachable state.
* `System.Run.invariant`: the same rule along one run.
* `System.Run.preserves`: a reflexive and transitive relation that every step respects
  relates the two ends of a run.
* `System.Simulation.reachable`: the reachable states are related to reachable states of the
  simulating system.
-/

universe u v w x

namespace Labelled

/-- A labelled transition system: the initial states and the labelled steps. -/
structure System (σ : Type u) (α : Type v) where
  /-- The states a run may start in. -/
  init : σ → Prop
  /-- `step s a t` holds when the label `a` can take `s` to `t`. -/
  step : σ → α → σ → Prop

namespace System

variable {σ : Type u} {α : Type v} {τ : Type w} {β : Type x}

/-- The finite runs of a system, with the labels they perform in order. -/
inductive Run (S : System σ α) : σ → List α → σ → Prop
  | nil (s : σ) : Run S s [] s
  | snoc {s t u : σ} {as : List α} {a : α} :
      Run S s as t → S.step t a u → Run S s (as ++ [a]) u

/-- A state is **reachable** when some run from an initial state ends in it. -/
def Reachable (S : System σ α) (t : σ) : Prop :=
  ∃ s as, S.init s ∧ S.Run s as t

/-- The system whose steps additionally meet `C` in the state they start from. Its runs
are the runs of `S` all of whose steps meet `C`. -/
def restrict (S : System σ α) (C : σ → α → Prop) : System σ α where
  init := S.init
  step s a t := S.step s a t ∧ C s a

/-- The deterministic system of a partial step function: a label is enabled where the
function returns a state. -/
def ofStep (init : σ → Prop) (f : σ → α → Option σ) : System σ α where
  init := init
  step s a t := f s a = some t

/-- The state a partial step function ends in after a list of labels. -/
def exec (f : σ → α → Option σ) : σ → List α → Option σ
  | s, [] => some s
  | s, a :: as => (f s a).bind fun t => exec f t as

variable {S : System σ α}

/-! ### Runs and reachability -/

/-- Initial states are reachable. -/
theorem Reachable.init {s : σ} (h : S.init s) : S.Reachable s :=
  ⟨s, [], h, Run.nil s⟩

/-- A step out of a reachable state ends in a reachable state. -/
theorem Reachable.step {s t : σ} {a : α} (h : S.Reachable s) (hst : S.step s a t) :
    S.Reachable t := by
  obtain ⟨s₀, as, h₀, hrun⟩ := h
  exact ⟨s₀, as ++ [a], h₀, Run.snoc hrun hst⟩

/-- A run out of a reachable state ends in a reachable state. -/
theorem Reachable.run {s t : σ} {as : List α} (h : S.Reachable s) (hrun : S.Run s as t) :
    S.Reachable t := by
  induction hrun with
  | nil => exact h
  | snoc _ hst ih => exact ih.step hst

/-- A step followed by a run is a run. -/
theorem Run.cons {s t u : σ} {a : α} {as : List α} (hst : S.step s a t)
    (hrun : S.Run t as u) : S.Run s (a :: as) u := by
  induction hrun with
  | nil => exact (Run.snoc (Run.nil s) hst : S.Run s ([] ++ [a]) _)
  | snoc _ hst' ih => exact Run.snoc ih hst'

/-- Executing a step function gives a run of its system. -/
theorem Run.of_exec {init : σ → Prop} {f : σ → α → Option σ} {s t : σ} {as : List α}
    (h : exec f s as = some t) : (ofStep init f).Run s as t := by
  induction as generalizing s with
  | nil =>
      obtain rfl : s = t := Option.some.inj h
      exact Run.nil s
  | cons a as ih =>
      obtain ⟨u, hu, h⟩ := Option.bind_eq_some_iff.mp h
      exact Run.cons hu (ih h)

/-- **The invariant rule along a run.** -/
theorem Run.invariant {I : σ → Prop} {s t : σ} {as : List α} (hrun : S.Run s as t)
    (h₀ : I s) (hstep : ∀ s a t, I s → S.step s a t → I t) : I t := by
  induction hrun with
  | nil => exact h₀
  | snoc _ hst ih => exact hstep _ _ _ ih hst

/-- **The invariant rule.** The step obligation may use that the source is reachable, so
invariants proved earlier are available when a later one is proved. -/
theorem Reachable.invariant {I : σ → Prop} {t : σ} (h : S.Reachable t)
    (hinit : ∀ s, S.init s → I s)
    (hstep : ∀ s a t, S.Reachable s → I s → S.step s a t → I t) : I t := by
  obtain ⟨s, as, h₀, hrun⟩ := h
  have key : S.Reachable t ∧ I t :=
    hrun.invariant (I := fun x => S.Reachable x ∧ I x) ⟨Reachable.init h₀, hinit s h₀⟩
      fun x a y hx hst => ⟨hx.1.step hst, hstep x a y hx.1 hx.2 hst⟩
  exact key.2

/-- A preorder that every step out of a reachable state respects relates a reachable
state to every state that a run takes it to. -/
theorem Run.preserves {R : σ → σ → Prop} (hrefl : ∀ s, R s s)
    (htrans : ∀ {s t u}, R s t → R t u → R s u) {s t : σ} {as : List α}
    (hrun : S.Run s as t) (hs : S.Reachable s)
    (hstep : ∀ s a t, S.Reachable s → S.step s a t → R s t) : R s t := by
  induction hrun with
  | nil => exact hrefl s
  | snoc hrun hst ih => exact htrans ih (hstep _ _ _ (hs.run hrun) hst)

/-! ### Restricted systems -/

/-- Every run of a restricted system is a run of the system itself. -/
theorem Run.of_restrict {C : σ → α → Prop} {s t : σ} {as : List α}
    (h : (S.restrict C).Run s as t) : S.Run s as t := by
  induction h with
  | nil => exact Run.nil s
  | snoc _ hst ih => exact Run.snoc ih hst.1

/-- A run is a run of the restricted system when its labels meet the condition in every
state. -/
theorem Run.restrict {C : σ → α → Prop} {s t : σ} {as : List α} (h : S.Run s as t)
    (hC : ∀ a ∈ as, ∀ s, C s a) : (S.restrict C).Run s as t := by
  induction h with
  | nil => exact Run.nil s
  | snoc _ hst ih =>
      exact Run.snoc (ih fun a ha => hC a (List.mem_append_left _ ha))
        ⟨hst, hC _ (List.mem_append_right _ (List.mem_singleton_self _)) _⟩

/-- Executing a step function where the condition is met gives a run of the restricted
system. -/
theorem Run.of_exec_restrict {init : σ → Prop} {f : σ → α → Option σ} {C : σ → α → Prop}
    [∀ s a, Decidable (C s a)] {s t : σ} {as : List α}
    (h : exec (fun s a => if C s a then f s a else none) s as = some t) :
    ((ofStep init f).restrict C).Run s as t := by
  induction as generalizing s with
  | nil =>
      obtain rfl : s = t := Option.some.inj h
      exact Run.nil s
  | cons a as ih =>
      obtain ⟨u, hu, h⟩ := Option.bind_eq_some_iff.mp h
      obtain ⟨hC, hu⟩ := Option.ite_none_right_eq_some.mp hu
      exact Run.cons ⟨hu, hC⟩ (ih h)

/-- Every reachable state of a restricted system is reachable in the system itself. -/
theorem Reachable.of_restrict {C : σ → α → Prop} {t : σ} (h : (S.restrict C).Reachable t) :
    S.Reachable t := by
  obtain ⟨s, as, h₀, hrun⟩ := h
  exact ⟨s, as, h₀, hrun.of_restrict⟩

/-! ### Simulations -/

/-- `R` is a **simulation** of `S` by `T`: initial states are related to initial states,
and every step of `S` is matched by one step of `T` or by none. -/
structure Simulation (S : System σ α) (T : System τ β) (R : σ → τ → Prop) : Prop where
  /-- Initial states are matched. -/
  init : ∀ s, S.init s → ∃ t, T.init t ∧ R s t
  /-- Steps are matched by one step or by stuttering. -/
  step : ∀ s a s' t, S.Reachable s → R s t → S.step s a s' →
    R s' t ∨ ∃ b t', T.step t b t' ∧ R s' t'

/-- The states of a simulated system are related to reachable states of the simulating
one. -/
theorem Simulation.reachable {T : System τ β} {R : σ → τ → Prop} (h : Simulation S T R)
    {s : σ} (hs : S.Reachable s) : ∃ t, T.Reachable t ∧ R s t := by
  refine hs.invariant (I := fun s => ∃ t, T.Reachable t ∧ R s t) ?_ ?_
  · intro s₀ h₀
    obtain ⟨t, ht, hR⟩ := h.init s₀ h₀
    exact ⟨t, Reachable.init ht, hR⟩
  · rintro s a s' hreach ⟨t, ht, hR⟩ hst
    rcases h.step s a s' t hreach hR hst with hR' | ⟨b, t', hst', hR'⟩
    · exact ⟨t, ht, hR'⟩
    · exact ⟨t', ht.step hst', hR'⟩

end System

end Labelled
