import Mathlib.Logic.Function.Basic
import Extractor.Lib.System

/-!
# Transactions under row locks

Transactions of several statements interleave. A transaction here starts with one statement
that finds and locks what the rest of it depends on, under a key; while it is open, no other
transaction can take the same key, and its writes are seen only when it commits. Single
statements run at any time and respect the locks that are held.

The library reduces the interleaved system to the atomic one, in which every transaction
happens at once when it commits: it is enough that a commit under one key, and a single
statement, do not change what a transaction under another key found.

## Main results

* `Protocol.reachable_data`: every state of the interleaved system holds data that the atomic
  system reaches.
* `Protocol.step_data`: a step of the interleaved system is a step of the atomic one on the
  data, or leaves the data alone.
-/

namespace Locking

variable {D κ T C A : Type}

/-- Transactions `T` and single statements `A` over data `D`, with lock keys `κ`. -/
structure Protocol (D κ T C A : Type) where
  /-- The key a transaction locks. -/
  key : T → κ
  /-- What its first statement finds; it takes the lock when it finds something. -/
  enter : T → D → Option C
  /-- The data after the rest of the transaction, given what the first statement found. -/
  effect : T → C → D → D
  /-- A single statement, under the locks that others hold. -/
  act : A → (κ → Prop) → D → D → Prop

/-- The data and the open transactions, by the key they hold. -/
structure State (D κ T C : Type) where
  data : D
  held : κ → Option (T × C)

/-- A state in which no key is held. -/
def State.free (d : D) : State D κ T C := ⟨d, fun _ => none⟩

/-- The steps of the interleaved system. -/
inductive Label (κ T A : Type)
  /-- The first statement of a transaction finds its row and locks it. -/
  | enter (t : T)
  /-- The transaction that holds a key runs to its end. -/
  | commit (k : κ)
  /-- The transaction that holds a key is cut off and rolled back. -/
  | abort (k : κ)
  /-- A single statement. -/
  | act (a : A)

/-- Releasing a key leaves the others as they were. -/
theorem update_none_eq_some {β : Type} [DecidableEq κ] {f : κ → Option β} {k k' : κ} {b : β}
    (h : Function.update f k' none k = some b) : f k = some b := by
  by_cases hk : k = k'
  · subst hk
    rw [Function.update_self] at h
    cases h
  · rwa [Function.update_of_ne hk] at h

namespace Protocol

variable (P : Protocol D κ T C A)

/-- A key is locked. -/
def Locked (s : State D κ T C) (k : κ) : Prop := s.held k ≠ none

/-- One step of the interleaved system. -/
inductive Step [DecidableEq κ] : State D κ T C → Label κ T A → State D κ T C → Prop
  | enter {s : State D κ T C} {t : T} {c : C} (hfree : s.held (P.key t) = none)
      (henter : P.enter t s.data = some c) :
      Step s (.enter t) { s with held := Function.update s.held (P.key t) (some (t, c)) }
  | commit {s : State D κ T C} {k : κ} {t : T} {c : C} (hheld : s.held k = some (t, c)) :
      Step s (.commit k)
        { data := P.effect t c s.data, held := Function.update s.held k none }
  | abort {s : State D κ T C} {k : κ} :
      Step s (.abort k) { s with held := Function.update s.held k none }
  | act {s : State D κ T C} {a : A} {d : D} (hact : P.act a (Locked s) s.data d) :
      Step s (.act a) { s with data := d }

/-- **The interleaved system.** -/
def interleaved [DecidableEq κ] (init : D → Prop) :
    Labelled.System (State D κ T C) (Label κ T A) where
  init s := init s.data ∧ ∀ k, s.held k = none
  step := P.Step

/-- One step of the atomic system: a whole transaction, or a single statement. -/
inductive AtomicStep : D → T ⊕ A → D → Prop
  | transaction {d d' : D} {t : T} {c : C} (henter : P.enter t d = some c)
      (heffect : P.effect t c d = d') : AtomicStep d (.inl t) d'
  | act {d d' : D} {a : A} {locked : κ → Prop} (hact : P.act a locked d d') :
      AtomicStep d (.inr a) d'

/-- **The atomic system.** -/
def atomic (init : D → Prop) : Labelled.System D (T ⊕ A) where
  init := init
  step := P.AtomicStep

/-- What a transaction found under its lock is not changed by others. -/
structure Stable : Prop where
  effect : ∀ {t t' : T} {c c' : C} {d : D}, P.key t ≠ P.key t' → P.enter t d = some c →
    P.enter t' d = some c' → P.enter t (P.effect t' c' d) = some c
  act : ∀ {t : T} {a : A} {c : C} {locked : κ → Prop} {d d' : D}, locked (P.key t) →
    P.enter t d = some c → P.act a locked d d' → P.enter t d' = some c

variable {P}

section Reduction

variable [DecidableEq κ] {init : D → Prop} {s t : State D κ T C}

/-- An open transaction holds its own key, and would find the same again. -/
theorem held_enter (hP : P.Stable) (h : (P.interleaved init).Reachable s) :
    ∀ k x c, s.held k = some (x, c) → P.key x = k ∧ P.enter x s.data = some c := by
  refine h.invariant (I := fun s => ∀ k x c, s.held k = some (x, c) →
    P.key x = k ∧ P.enter x s.data = some c) ?_ ?_
  · rintro s ⟨-, hfree⟩ k x c hk
    rw [hfree k] at hk
    cases hk
  · intro s a s' _ ih hst k x c hk
    cases hst with
    | enter hfree henter =>
        rename_i y c'
        change Function.update s.held (P.key y) _ k = _ at hk
        by_cases hky : k = P.key y
        · subst hky
          rw [Function.update_self] at hk
          cases hk
          exact ⟨rfl, henter⟩
        · rw [Function.update_of_ne hky] at hk
          exact ih k x c hk
    | commit hheld =>
        rename_i k' y c'
        change Function.update s.held k' none k = _ at hk
        have hkk : k ≠ k' := by
          rintro rfl
          rw [Function.update_self] at hk
          cases hk
        obtain ⟨hkey, henter⟩ := ih k x c (update_none_eq_some hk)
        obtain ⟨hkey', henter'⟩ := ih k' y c' hheld
        exact ⟨hkey, hP.effect (by rw [hkey, hkey']; exact hkk) henter henter'⟩
    | abort =>
        rename_i k'
        change Function.update s.held k' none k = _ at hk
        exact ih k x c (update_none_eq_some hk)
    | act hact =>
        obtain ⟨hkey, henter⟩ := ih k x c hk
        refine ⟨hkey, hP.act ?_ henter hact⟩
        rw [hkey, Locked, hk]
        exact Option.some_ne_none _

/-- **A step of the interleaved system** is a step of the atomic one on the data, or leaves
the data alone. -/
theorem step_data (hP : P.Stable) (h : (P.interleaved init).Reachable s) {a : Label κ T A}
    (hst : (P.interleaved init).step s a t) :
    t.data = s.data ∨ ∃ b, (P.atomic init).step s.data b t.data := by
  cases hst with
  | enter hfree henter => exact Or.inl rfl
  | abort => exact Or.inl rfl
  | commit hheld => exact Or.inr ⟨_, .transaction (held_enter hP h _ _ _ hheld).2 rfl⟩
  | act hact => exact Or.inr ⟨_, .act hact⟩

/-- **The interleaved system refines the atomic one.** -/
theorem reachable_data (hP : P.Stable) (h : (P.interleaved init).Reachable s) :
    (P.atomic init).Reachable s.data := by
  have hsim : Labelled.System.Simulation (P.interleaved init) (P.atomic init)
      fun s d => s.data = d := by
    refine ⟨fun s hs => ⟨s.data, hs.1, rfl⟩, ?_⟩
    rintro s a s' d hreach rfl hst
    rcases step_data hP hreach hst with heq | ⟨b, hb⟩
    · exact Or.inl heq
    · exact Or.inr ⟨b, s'.data, hb, rfl⟩
  obtain ⟨d, hd, rfl⟩ := hsim.reachable h
  exact hd

/-- One transaction is open, and no other. -/
def opened (P : Protocol D κ T C A) (x : T) (c : C) (d : D) : State D κ T C :=
  ⟨d, Function.update (fun _ => none) (P.key x) (some (x, c))⟩

theorem held_opened (P : Protocol D κ T C A) (x : T) (c : C) (d : D) :
    (P.opened x c d).held (P.key x) = some (x, c) := by
  change Function.update (fun _ => none) (P.key x) (some (x, c)) (P.key x) = some (x, c)
  rw [Function.update_self]

/-- A transaction starts while no lock is held. -/
theorem step_enter {d : D} {x : T} {c : C} (henter : P.enter x d = some c) :
    P.Step (State.free d) (.enter x) (P.opened x c d) :=
  Step.enter rfl henter

/-- The only open transaction is committed. -/
theorem step_commit (x : T) (c : C) (d : D) :
    P.Step (P.opened x c d) (.commit (P.key x)) (State.free (P.effect x c d)) := by
  have hheld : Function.update (Function.update (fun _ => none) (P.key x) (some (x, c)))
      (P.key x) none = fun _ => none := by
    rw [Function.update_idem]
    exact Function.update_eq_self (P.key x) (fun _ => (none : Option (T × C)))
  have hdone : P.Step (P.opened x c d) (.commit (P.key x))
      ⟨P.effect x c d, Function.update (Function.update (fun _ => none) (P.key x) (some (x, c)))
        (P.key x) none⟩ := Step.commit (held_opened P x c d)
  rw [hheld] at hdone
  exact hdone

/-- A transaction that runs while no lock is held. -/
theorem reachable_transaction {cond : State D κ T C → Label κ T A → Prop} {d : D} {x : T} {c : C}
    (h : ((P.interleaved init).restrict cond).Reachable (State.free d))
    (henter : P.enter x d = some c) (hcond : cond (State.free d) (.enter x))
    (hcommit : ∀ s k, cond s (.commit k)) :
    ((P.interleaved init).restrict cond).Reachable (State.free (P.effect x c d)) := by
  have hopen : ((P.interleaved init).restrict cond).Reachable (P.opened x c d) :=
    h.step ⟨step_enter henter, hcond⟩
  exact hopen.step ⟨step_commit x c d, hcommit _ _⟩

/-- A single statement that runs while no lock is held. -/
theorem reachable_act {cond : State D κ T C → Label κ T A → Prop} {d d' : D} {a : A}
    (h : ((P.interleaved init).restrict cond).Reachable (State.free d))
    (hact : P.act a (Locked (State.free d : State D κ T C)) d d')
    (hcond : cond (State.free d) (.act a)) :
    ((P.interleaved init).restrict cond).Reachable (State.free d') :=
  h.step ⟨Step.act hact, hcond⟩

end Reduction

end Protocol

end Locking
