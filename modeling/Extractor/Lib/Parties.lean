import Mathlib.Logic.Function.Basic
import Extractor.Lib.Program
import Extractor.Lib.System

/-!
# Programs of many parties

Any number of parties run programs over one shared state. A party is started with a task, its
requests are answered one by one and change the shared state, it returns, or it crashes at any
point. The surroundings change the shared state as well; what they do may depend on which parties
are over.

A program is verified beside others (`Program.Beside`). The rule here puts such proofs together:
what one party does is within what each of the others relies on.

## Main results

* `Parties.RelyGuarantee.sound`: in every reachable state the shared state is as the invariant
  says, and every party is where its program, beside the others, may be.
* `Parties.run_alone`: a party that is left alone runs to its end.
* `Parties.Leads.bind`: the rule for sequencing, for programs that are annotated with assertions.
-/

open Labelled

universe u v w

/-- Two runs, one after the other. -/
theorem Labelled.System.Run.append {σ : Type u} {κ : Type v} {S : System σ κ} {s t x : σ}
    {as bs : List κ} (h : S.Run s as t) (h' : S.Run t bs x) : S.Run s (as ++ bs) x := by
  induction h' with
  | nil => rwa [List.append_nil]
  | snoc _ hst ih =>
      rw [← List.append_assoc]
      exact .snoc ih hst

namespace Parties

variable {E : Type → Type} {S : Type u} {τ : Type v} {ν : Type w} {α : Type}

/-- Where a party is. -/
inductive Phase (E : Type → Type) (τ : Type v) (α : Type)
  /-- It was not started. -/
  | idle
  /-- It has still to run `rest`. -/
  | running (task : τ) (rest : Program E α)
  | returned (task : τ) (result : α)
  | crashed (task : τ)

/-- The party is over. -/
def Phase.Over : Phase E τ α → Prop
  | .returned _ _ | .crashed _ => True
  | _ => False

/-- What parties and surroundings do to the shared state. -/
structure Scheme (E : Type → Type) (S : Type u) (τ : Type v) (ν : Type w) (α : Type) where
  program : τ → Program E α
  /-- A request of a party is answered. -/
  effect : ℕ → S → Program.Exchange E → S → Prop
  /-- The surroundings act, where the given parties are over. -/
  surroundings : ν → (ℕ → Prop) → S → S → Prop

/-- The shared state, and where the parties are. -/
structure State (E : Type → Type) (S : Type u) (τ : Type v) (α : Type) where
  shared : S
  phases : ℕ → Phase E τ α

/-- A party moves on. -/
def State.move (s : State E S τ α) (shared : S) (p : ℕ) (phase : Phase E τ α) : State E S τ α :=
  ⟨shared, Function.update s.phases p phase⟩

/-- What takes a step. -/
inductive Label (τ : Type v) (ν : Type w)
  | start (p : ℕ) (task : τ)
  | exchange (p : ℕ)
  | finish (p : ℕ)
  | crash (p : ℕ)
  | surroundings (e : ν)

section System

variable (P : Scheme E S τ ν α) (Enabled : State E S τ α → τ → Prop)

/-- One step; a task is started where it is enabled. -/
inductive Step : State E S τ α → Label τ ν → State E S τ α → Prop
  | start {s : State E S τ α} {p : ℕ} {task : τ} (hidle : s.phases p = .idle)
      (henabled : Enabled s task) :
      Step s (.start p task) (s.move s.shared p (.running task (P.program task)))
  | exchange {s : State E S τ α} {p : ℕ} {task : τ} {β : Type} {e : E β} {k : β → Program E α}
      {x : β} {shared : S} (hrunning : s.phases p = .running task (.ask e k))
      (heffect : P.effect p s.shared ⟨e, x⟩ shared) :
      Step s (.exchange p) (s.move shared p (.running task (k x)))
  | finish {s : State E S τ α} {p : ℕ} {task : τ} {result : α}
      (hrunning : s.phases p = .running task (.done result)) :
      Step s (.finish p) (s.move s.shared p (.returned task result))
  | crash {s : State E S τ α} {p : ℕ} {task : τ} {rest : Program E α}
      (hrunning : s.phases p = .running task rest) :
      Step s (.crash p) (s.move s.shared p (.crashed task))
  | surroundings {s : State E S τ α} {e : ν} {shared : S}
      (hacts : P.surroundings e (fun p => (s.phases p).Over) s.shared shared) :
      Step s (.surroundings e) { s with shared := shared }

/-- **The parties**, from shared states that satisfy `Init` and before any party was started. -/
def parties (Init : S → Prop) : System (State E S τ α) (Label τ ν) where
  init s := Init s.shared ∧ ∀ p, s.phases p = .idle
  step := Step P Enabled

end System

/-- What the parties guarantee each other. -/
structure RelyGuarantee (P : Scheme E S τ ν α) (Inv : S → Prop) (Fresh : ℕ → S → Prop)
    (rely : ℕ → S → S → Prop) (onward : S → S → Prop)
    (Req : ℕ → τ → S → {β : Type} → E β → Prop) (Post : ℕ → τ → S → α → Prop) : Prop where
  refl : ∀ p s, rely p s s
  trans : ∀ p {s t u}, rely p s t → rely p t u → rely p s u
  /-- Before a party is started, the others leave it nothing. -/
  fresh : ∀ {p s t}, Fresh p s → rely p s t → Fresh p t
  /-- Every program keeps its part beside the others. -/
  program : ∀ {p s} task, Fresh p s →
    (P.program task).Beside (rely p) (P.effect p) (Req p task) s (Post p task)
  /-- An answered request keeps the invariant, and is within what the others rely on. -/
  effect : ∀ {p task s t} {β : Type} {e : E β} {x : β}, Inv s → Req p task s e →
    P.effect p s ⟨e, x⟩ t → Inv t ∧ onward s t ∧ ∀ q, q ≠ p → rely q s t
  /-- So do the surroundings, for the parties that are not over. -/
  surroundings : ∀ {e} {gone : ℕ → Prop} {s t}, Inv s → P.surroundings e gone s t →
    Inv t ∧ onward s t ∧ ∀ q, ¬ gone q → rely q s t
  /-- A result stays what it is. -/
  stable : ∀ {p task s t a}, Post p task s a → onward s t → Post p task t a

/-- Where a party may be. -/
def Phase.Sound (P : Scheme E S τ ν α) (Fresh : ℕ → S → Prop) (rely : ℕ → S → S → Prop)
    (Req : ℕ → τ → S → {β : Type} → E β → Prop) (Post : ℕ → τ → S → α → Prop) (p : ℕ) (s : S) :
    Phase E τ α → Prop
  | .idle => Fresh p s
  | .running task rest => rest.Beside (rely p) (P.effect p) (Req p task) s (Post p task)
  | .returned task result => Post p task s result
  | .crashed _ => True

variable {P : Scheme E S τ ν α} {Enabled : State E S τ α → τ → Prop} {Init Inv : S → Prop}
  {Fresh : ℕ → S → Prop} {rely : ℕ → S → S → Prop} {onward : S → S → Prop}
  {Req : ℕ → τ → S → {β : Type} → E β → Prop} {Post : ℕ → τ → S → α → Prop}
  {s t : State E S τ α} {a : Label τ ν}

@[simp] theorem State.move_self (shared : S) (p : ℕ) (phase : Phase E τ α) :
    (s.move shared p phase).phases p = phase :=
  Function.update_self ..

theorem State.move_of_ne {p q : ℕ} (shared : S) (phase : Phase E τ α) (h : q ≠ p) :
    (s.move shared p phase).phases q = s.phases q :=
  Function.update_of_ne h ..

/-- A phase after a party moved on is its new one, or an old one. -/
theorem State.move_cases {p q : ℕ} {shared : S} {phase x : Phase E τ α}
    (h : (s.move shared q phase).phases p = x) : (p = q ∧ phase = x) ∨ s.phases p = x := by
  by_cases hp : p = q
  · subst hp
    rw [State.move_self] at h
    exact Or.inl ⟨rfl, h⟩
  · rw [State.move_of_ne _ _ hp] at h
    exact Or.inr h

/-- A party that is running was running before, or is started. -/
theorem Step.running {p : ℕ} {task : τ} {rest : Program E α} (hst : Step P Enabled s a t)
    (hrunning : t.phases p = .running task rest) :
    (∃ rest', s.phases p = .running task rest') ∨ a = .start p task := by
  cases hst with
  | start hidle henabled =>
      rcases State.move_cases hrunning with ⟨rfl, heq⟩ | hbefore
      · cases heq
        exact Or.inr rfl
      · exact Or.inl ⟨rest, hbefore⟩
  | exchange hrest heffect =>
      rcases State.move_cases hrunning with ⟨rfl, heq⟩ | hbefore
      · cases heq
        exact Or.inl ⟨_, hrest⟩
      · exact Or.inl ⟨rest, hbefore⟩
  | finish hdone =>
      rcases State.move_cases hrunning with ⟨rfl, heq⟩ | hbefore
      · cases heq
      · exact Or.inl ⟨rest, hbefore⟩
  | crash hrest =>
      rcases State.move_cases hrunning with ⟨rfl, heq⟩ | hbefore
      · cases heq
      · exact Or.inl ⟨rest, hbefore⟩
  | surroundings hacts => exact Or.inl ⟨rest, hrunning⟩

/-- **A party that is left alone** runs to its end. -/
theorem run_alone {Init : S → Prop} {p : ℕ} {task : τ} {rest : Program E α} {shared : S}
    {tr : Program.Trace E} {result : α} {x : S}
    (hexec : rest.ExecBeside Eq (P.effect p) x tr shared result)
    (hshared : s.shared = x) (hphase : s.phases p = .running task rest) :
    ∃ as, (parties P Enabled Init).Run s as (s.move shared p (.returned task result)) ∧
      ∀ a ∈ as, a = .exchange p ∨ a = .finish p := by
  induction hexec generalizing s with
  | done result hst =>
      subst hst hshared
      refine ⟨_, .cons (.finish hphase) (.nil _), fun a ha => Or.inr ?_⟩
      exact List.mem_singleton.mp ha
  | ask e k y hst heffect hrest ih =>
      subst hst hshared
      rename_i u v tr' a'
      obtain ⟨as, hrun, hlabels⟩ := ih (s := s.move u p (.running task (k y))) rfl
        (State.move_self ..)
      have hmoved : (s.move u p (.running task (k y))).move v p (.returned task a') =
          s.move v p (.returned task a') := by
        rw [State.move, State.move, State.move, Function.update_idem]
      refine ⟨_, .cons (.exchange hphase heffect) (hmoved ▸ hrun), fun a ha => ?_⟩
      rcases List.mem_cons.mp ha with rfl | ha
      · exact Or.inl rfl
      · exact hlabels a ha

namespace RelyGuarantee

/-- A party that does not move stays where it may be. -/
theorem others (G : RelyGuarantee P Inv Fresh rely onward Req Post) {p : ℕ} {x y : S}
    {phase : Phase E τ α} (h : phase.Sound P Fresh rely Req Post p x)
    (hrely : ¬ phase.Over → rely p x y) (honward : onward x y) :
    phase.Sound P Fresh rely Req Post p y := by
  cases phase with
  | idle => exact G.fresh h (hrely fun hover => hover)
  | running task rest => exact Program.Beside.others (G.trans p) h (hrely fun hover => hover)
  | returned task result => exact G.stable h honward
  | crashed task => trivial

/-- A request of a party is made as it should be. -/
theorem request (G : RelyGuarantee P Inv Fresh rely onward Req Post) {p : ℕ} {task : τ} {β : Type}
    {e : E β} {k : β → Program E α} {x : S}
    (h : (Phase.running task (.ask e k)).Sound P Fresh rely Req Post p x) : Req p task x e :=
  (Program.Beside.ask (G.refl p) h).1

/-- What a step keeps. -/
theorem step (G : RelyGuarantee P Inv Fresh rely onward Req Post) (hinv : Inv s.shared)
    (h : ∀ p, (s.phases p).Sound P Fresh rely Req Post p s.shared)
    (hst : Step P Enabled s a t) :
    Inv t.shared ∧ ∀ p, (t.phases p).Sound P Fresh rely Req Post p t.shared := by
  have hmoved : ∀ {p : ℕ} {phase : Phase E τ α}, phase.Sound P Fresh rely Req Post p s.shared →
      ∀ q, ((s.move s.shared p phase).phases q).Sound P Fresh rely Req Post q s.shared := by
    intro p phase hphase q
    by_cases hq : q = p
    · subst hq
      rwa [State.move_self]
    · rw [State.move_of_ne _ _ hq]
      exact h q
  cases hst with
  | start hidle henabled =>
      rename_i p task
      have hfresh := h p
      rw [hidle] at hfresh
      exact ⟨hinv, hmoved (G.program task hfresh)⟩
  | exchange hrunning heffect =>
      rename_i p task β e k x shared
      have hparty := h p
      rw [hrunning] at hparty
      obtain ⟨hinv', honward, hothers⟩ := G.effect hinv (G.request hparty) heffect
      refine ⟨hinv', fun q => ?_⟩
      by_cases hq : q = p
      · subst hq
        rw [State.move_self]
        exact (Program.Beside.ask (G.refl q) hparty).2 x shared heffect
      · rw [State.move_of_ne _ _ hq]
        exact G.others (h q) (fun _ => hothers q hq) honward
  | finish hrunning =>
      rename_i p task result
      have hparty := h p
      rw [hrunning] at hparty
      have hpost : Post p task s.shared result := hparty s.shared (G.refl p s.shared)
      have hreturned : (Phase.returned task result).Sound P Fresh rely Req Post p s.shared := hpost
      exact ⟨hinv, hmoved hreturned⟩
  | crash hrunning =>
      rename_i p task rest
      have hcrashed : (Phase.crashed task).Sound P Fresh rely Req Post p s.shared := trivial
      exact ⟨hinv, hmoved hcrashed⟩
  | surroundings hacts =>
      obtain ⟨hinv', honward, hothers⟩ := G.surroundings hinv hacts
      exact ⟨hinv', fun q => G.others (h q) (hothers q) honward⟩

/-- **The rule for parties.** -/
theorem sound (G : RelyGuarantee P Inv Fresh rely onward Req Post)
    (hinit : ∀ x, Init x → Inv x ∧ ∀ p, Fresh p x)
    (h : (parties P Enabled Init).Reachable s) :
    Inv s.shared ∧ ∀ p, (s.phases p).Sound P Fresh rely Req Post p s.shared := by
  refine h.invariant (I := fun s => Inv s.shared ∧
    ∀ p, (s.phases p).Sound P Fresh rely Req Post p s.shared) ?_ ?_
  · rintro s ⟨hs, hidle⟩
    refine ⟨(hinit _ hs).1, fun p => ?_⟩
    rw [hidle p]
    exact (hinit _ hs).2 p
  · exact fun s a t _ hI hst => G.step hI.1 hI.2 hst

end RelyGuarantee

/-! ### Programs by their assertions -/

section Outline

variable (rely : S → S → Prop) (effect : S → Program.Exchange E → S → Prop)
  (Req : S → {β : Type} → E β → Prop) {ε β γ : Type}

/-- The others keep an assertion. -/
def Stable (A : S → Prop) : Prop := ∀ s t, A s → rely s t → A t

/-- Where `A` holds, the code makes its requests as it should, beside others, and `B` holds of what
it returns; it may fail. -/
def Leads (A : S → Prop) (q : ExceptT ε (Program E) β) (B : β → S → Prop) : Prop :=
  ∀ s, A s → q.run.Beside rely effect Req s fun t r => ∀ x, r = .ok x → B x t

variable {rely} {effect} {Req} {A A' : S → Prop} {B B' : β → S → Prop} {C : γ → S → Prop}
  {q : ExceptT ε (Program E) β} {f : β → ExceptT ε (Program E) γ}

theorem Leads.imp (h : Leads rely effect Req A q B) (hA : ∀ s, A' s → A s)
    (hB : ∀ x s, B x s → B' x s) : Leads rely effect Req A' q B' :=
  fun s hs => (h s (hA s hs)).imp fun t _ hr x hx => hB x t (hr x hx)

/-- The rule for sequencing. -/
theorem Leads.bind (hrefl : ∀ s, rely s s) (h : Leads rely effect Req A q B)
    (hf : ∀ x, Leads rely effect Req (B x) (f x) C) : Leads rely effect Req A (q >>= f) C := by
  refine fun s hs => Program.Beside.bind_except hrefl ((h s hs).imp ?_)
  rintro t (e | x) hr
  · intro u _ y hy
    cases hy
  · exact hf x t (hr x rfl)

/-- The rule for a value. -/
theorem Leads.value (x : β) (hstable : Stable rely A) :
    Leads rely effect Req A (pure x : ExceptT ε (Program E) β) fun y s => y = x ∧ A s := by
  intro s hs t hst y hy
  exact ⟨(Except.ok.inj hy).symm, hstable s t hs hst⟩

/-- The rules for a list of steps. -/
theorem Leads.forM_nil {κ : Type} {f : κ → ExceptT ε (Program E) Unit} (hstable : Stable rely A) :
    Leads rely effect Req A ([].forM f) fun _ => A :=
  (Leads.value () hstable).imp (fun _ hs => hs) fun _ _ hs => hs.2

theorem Leads.forM_cons {κ : Type} {f : κ → ExceptT ε (Program E) Unit} {a : κ} {l : List κ}
    {D : Unit → S → Prop} (hrefl : ∀ s, rely s s) (h : Leads rely effect Req A (f a) fun _ => A')
    (hl : Leads rely effect Req A' (l.forM f) D) : Leads rely effect Req A ((a :: l).forM f) D :=
  Leads.bind hrefl h fun _ => hl

/-- The rule for a check. -/
theorem Leads.check {c : Prop} [Decidable c] {e : ε} (hstable : Stable rely A) :
    Leads rely effect Req A (require c e : ExceptT ε (Program E) Unit) fun _ s => c ∧ A s := by
  intro s hs
  unfold require
  split
  · next hc => exact fun t hst x _ => ⟨hc, hstable s t hs hst⟩
  · intro t _ x hx
    cases hx

end Outline

end Parties
