import Mathlib.Data.List.Sort
import Extractor.Lib.System
import Extractor.Lib.Rows

/-!
# Waiting in line

A small library for services that take what waits in some order. An entry that is passed over by a
service in order sees only entries taken that stand before it, so the number of those that still
stand before it bounds how often it is passed over. The bound is an account along a run: what is
taken is paid from what stands before the entry, and only what gets before it anew adds to that.

## Main results

* `before_of_notMem_next`: who is not among the next `n` has `n` others before them.
* `before_of_findSome?`: the same for the first that is suited.
* `countP_taken`: rows that are taken wait no more.
* `Account.balance`: a potential that pays for every step bounds what a whole run pays.
-/

universe u v

namespace Queue

/-! ### Service in order -/

section Order

variable {ρ : Type u} {β : Type v} (before : ρ → ρ → Prop) [DecidableRel before]

/-- The next `n` of those that wait. -/
def next (n : ℕ) (waiting : List ρ) : List ρ := (waiting.insertionSort before).take n

variable {before} {n : ℕ} {waiting : List ρ} {r : ρ}

theorem mem_of_mem_next {x : ρ} (hx : x ∈ next before n waiting) : x ∈ waiting :=
  (List.mem_insertionSort before).mp (List.mem_of_mem_take hx)

variable [IsTrans ρ before] [Std.Total before]

/-- **Who is not among the next `n`** has `n` others before them. -/
theorem before_of_notMem_next (hr : r ∈ waiting) (hnext : r ∉ next before n waiting) :
    (next before n waiting).length = n ∧ ∀ x ∈ next before n waiting, before x r := by
  have hsorted := List.pairwise_insertionSort before waiting
  rw [← List.take_append_drop n (waiting.insertionSort before)] at hsorted
  have hdrop : r ∈ (waiting.insertionSort before).drop n := by
    have hmem := (List.mem_insertionSort before).mpr hr
    rw [← List.take_append_drop n (waiting.insertionSort before), List.mem_append] at hmem
    exact hmem.resolve_left hnext
  refine ⟨?_, fun x hx => (List.pairwise_append.mp hsorted).2.2 x hx r hdrop⟩
  have hlength := List.length_pos_of_mem hdrop
  rw [List.length_drop] at hlength
  rw [next, List.length_take]
  omega

/-- **Who is suited** has the first that is suited before them, or is the first. -/
theorem before_of_findSome? {f : ρ → Option β} {b : β} (hr : r ∈ waiting)
    (hsuited : (f r).isSome = true)
    (hfirst : (waiting.insertionSort before).findSome? f = some b) :
    ∃ x ∈ waiting, f x = some b ∧ before x r := by
  obtain ⟨first, x, last, hl, hx, hnone⟩ := List.findSome?_eq_some_iff.mp hfirst
  have hmem := (List.mem_insertionSort before).mpr hr
  have hsorted := List.pairwise_insertionSort before waiting
  rw [hl] at hmem hsorted
  refine ⟨x, (List.mem_insertionSort before).mp (hl ▸ List.mem_append_right _
    (List.mem_cons_self ..)), hx, ?_⟩
  rcases List.mem_append.mp hmem with hmem | hmem
  · rw [hnone r hmem] at hsuited
    cases hsuited
  · rcases List.mem_cons.mp hmem with rfl | hmem
    · exact (Std.Total.total (r := before) r r).elim id id
    · exact List.rel_of_pairwise_cons (List.pairwise_append.mp hsorted).2.1 hmem

end Order

/-! ### Who waits in a table -/

section Table

variable {ρ : Type u} {κ : Type v} {p q : ρ → Bool} {f : ρ → ρ} {rows : List ρ}

/-- **Rows that are taken** wait no more, and the others wait as before. -/
theorem countP_taken (rows : List ρ) (h : ∀ x ∈ rows, p x = true → q (f x) = false) :
    (Rows.updateWhere p f rows).countP q + rows.countP (fun x => p x && q x) = rows.countP q := by
  induction rows with
  | nil => rfl
  | cons x rows ih =>
      have ih := ih fun y hy => h y (List.mem_cons_of_mem _ hy)
      rw [Rows.updateWhere, List.map_cons, ← Rows.updateWhere, List.countP_cons, List.countP_cons,
        List.countP_cons]
      cases hp : p x with
      | true =>
          have hq := h x (List.mem_cons_self ..) hp
          rw [if_pos rfl, hq, Bool.true_and, if_neg Bool.false_ne_true]
          omega
      | false =>
          rw [if_neg Bool.false_ne_true, Bool.false_and, if_neg Bool.false_ne_true]
          omega

/-- A change that makes no row wait. -/
theorem countP_updateWhere_le (h : ∀ x ∈ rows, p x = true → q (f x) = true → q x = true) :
    (Rows.updateWhere p f rows).countP q ≤ rows.countP q := by
  rw [Rows.updateWhere, List.countP_map]
  refine List.countP_mono_left fun x hx hq => ?_
  rw [Function.comp_apply] at hq
  cases hp : p x with
  | true => exact h x hx hp (by rwa [hp, if_pos rfl] at hq)
  | false => rwa [hp, if_neg Bool.false_ne_true] at hq

/-- Different rows of a kind are no more than the table has. -/
theorem length_le_countP (key : ρ → κ) {taken : List ρ} (hkey : (taken.map key).Nodup)
    (h : ∀ x ∈ taken, x ∈ rows ∧ q x = true) : taken.length ≤ rows.countP q := by
  rw [List.countP_eq_length_filter]
  exact (List.subperm_of_subset (List.Nodup.of_map key hkey)
    fun x hx => List.mem_filter.mpr (h x hx)).length_le

end Table

/-! ### Accounts -/

section Account

open Labelled

variable {σ : Type u} {α : Type v}

/-- A run from `s` to `t` all of whose states are as `during` says, on which the steps cost `m` and
bring in `n`. -/
inductive Account (S : System σ α) (cost income : σ → α → σ → ℕ) (during : σ → Prop) :
    σ → ℕ → ℕ → σ → Prop
  | nil {s : σ} (h : during s) : Account S cost income during s 0 0 s
  | snoc {s t u : σ} {m n : ℕ} {a : α} (h : Account S cost income during s m n t)
      (hst : S.step t a u) (hu : during u) :
      Account S cost income during s (m + cost t a u) (n + income t a u) u

variable {S : System σ α} {cost income : σ → α → σ → ℕ} {during : σ → Prop} {s t : σ} {m n : ℕ}

/-- A run without steps. -/
theorem Account.start (S : System σ α) (cost income : σ → α → σ → ℕ) (h : during s) :
    Account S cost income during s 0 0 s :=
  .nil h

theorem Account.during_end (h : Account S cost income during s m n t) : during t := by
  cases h with
  | nil h => exact h
  | snoc _ _ hu => exact hu

theorem Account.reachable (h : Account S cost income during s m n t) (hs : S.Reachable s) :
    S.Reachable t := by
  induction h with
  | nil => exact hs
  | snoc _ hst _ ih => exact ih.step hst

/-- **The balance of a run**: where the potential pays for every step, it pays for the run. -/
theorem Account.balance (potential : σ → ℕ) (h : Account S cost income during s m n t)
    (hs : S.Reachable s)
    (hstep : ∀ s a t, S.Reachable s → during s → during t → S.step s a t →
      potential t + cost s a t ≤ potential s + income s a t) :
    potential t + m ≤ potential s + n := by
  induction h with
  | nil => exact Nat.le_refl _
  | snoc h hst hu ih =>
      have := hstep _ _ _ (h.reachable hs) h.during_end hu hst
      omega

end Account

end Queue
