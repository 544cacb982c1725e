import Mathlib.Algebra.GroupWithZero.Nat
import Mathlib.Data.List.AList

/-!
# Tallies

A table that counts the keys of a list: a key that occurs has its number of occurrences, and a key
that does not occur has no entry. The keys are of an arbitrary type with decidable equality.

## Main results

* `Counts.add`, `Counts.remove`: counting one more key and one fewer keep the table exact.
* `Counts.total`: the counts add up to the length of the list.
-/

universe u

namespace Tally

variable {κ : Type u} [DecidableEq κ]

/-- A table of counts. -/
abbrev Table (κ : Type u) := AList fun _ : κ => ℕ

/-- The count of a key. -/
def count (t : Table κ) (k : κ) : ℕ := (t.lookup k).getD 0

/-- One more of a key. -/
def add (k : κ) (t : Table κ) : Table κ := t.insert k (count t k + 1)

/-- One fewer of a key: a count that reaches zero is removed. -/
def remove (k : κ) (t : Table κ) : Table κ :=
  match t.lookup k with
  | none => t
  | some n => if n - 1 = 0 then t.erase k else t.insert k (n - 1)

/-- The sum of all counts. -/
def total (t : Table κ) : ℕ := (t.entries.map Sigma.snd).sum

/-- **The table counts the keys**, and has no entry for any other. -/
def Counts (t : Table κ) (keys : List κ) : Prop :=
  ∀ k, t.lookup k = if k ∈ keys then some (keys.count k) else none

variable {t : Table κ} {keys keys' : List κ} {k : κ} {n : ℕ}

/-! ### Sums -/

/-- Without the entry of a key the sum is smaller by its count. -/
theorem sum_kerase {l : List (Sigma fun _ : κ => ℕ)} (h : l.dlookup k = some n) :
    ((l.kerase k).map Sigma.snd).sum + n = (l.map Sigma.snd).sum := by
  have hmem : k ∈ l.keys := List.dlookup_isSome.mp (h ▸ rfl)
  obtain ⟨m, l₁, l₂, hnot, rfl, herase⟩ := List.exists_of_kerase hmem
  have hm : (l₁ ++ ⟨k, m⟩ :: l₂).dlookup k = some m := by
    rw [List.dlookup_append, List.dlookup_eq_none.mpr hnot, List.dlookup_cons_eq]
    rfl
  obtain rfl : m = n := Option.some.inj (hm.symm.trans h)
  rw [herase, List.map_append, List.map_append, List.map_cons, List.sum_append, List.sum_append,
    List.sum_cons]
  dsimp only
  omega

theorem total_erase (h : t.lookup k = some n) : total (t.erase k) + n = total t :=
  sum_kerase h

theorem total_insert {m : ℕ} (h : t.lookup k = some n) :
    total (t.insert k m) + n = total t + m := by
  have hsum := sum_kerase h
  rw [total, AList.entries_insert, List.map_cons, List.sum_cons, total, ← hsum]
  dsimp only
  omega

/-- One fewer of a key that has an entry makes the sum smaller by one. -/
theorem total_remove (h : t.lookup k = some (n + 1)) : total (remove k t) + 1 = total t := by
  rw [remove, h]
  cases n with
  | zero => exact total_erase h
  | succ n =>
      have htotal := total_insert (m := n + 1) h
      change total (t.insert k (n + 1)) + 1 = total t
      omega

/-! ### Exact tables -/

theorem counts_empty : Counts (∅ : Table κ) [] := fun k => AList.lookup_empty k

theorem Counts.count (h : Counts t keys) (k : κ) : Tally.count t k = keys.count k := by
  rw [Tally.count, h k]
  split
  · rfl
  · next hnot => exact (List.count_eq_zero.mpr hnot).symm

/-- No entry is zero. -/
theorem Counts.positive (h : Counts t keys) (hn : t.lookup k = some n) : 0 < n := by
  rw [h k] at hn
  obtain ⟨hmem, hn⟩ := Option.ite_none_right_eq_some.mp hn
  exact Option.some.inj hn ▸ List.count_pos_iff.mpr hmem

/-- A key that occurs has a positive entry. -/
theorem Counts.lookup_of_mem (h : Counts t keys) (hk : k ∈ keys) :
    ∃ n, t.lookup k = some (n + 1) := by
  have hentry := h k
  rw [if_pos hk] at hentry
  obtain ⟨n, hn⟩ := Nat.exists_eq_add_one.mpr (h.positive hentry)
  exact ⟨n, hn ▸ hentry⟩

/-- The order of the keys does not matter. -/
theorem Counts.perm (h : Counts t keys) (hperm : keys.Perm keys') : Counts t keys' := by
  intro k
  rw [h k, hperm.count_eq k]
  simp only [hperm.mem_iff]

/-- **One more key** is counted. -/
theorem Counts.add (h : Counts t keys) (k : κ) : Counts (Tally.add k t) (k :: keys) := by
  intro k'
  by_cases hk : k' = k
  · subst hk
    rw [Tally.add, AList.lookup_insert, h.count, if_pos List.mem_cons_self, List.count_cons_self]
  · rw [Tally.add, AList.lookup_insert_ne hk, h k', List.count_cons_of_ne (Ne.symm hk)]
    simp only [List.mem_cons, hk, false_or]

/-- **One key fewer** is counted. -/
theorem Counts.remove (h : Counts t (k :: keys)) : Counts (Tally.remove k t) keys := by
  have hentry : t.lookup k = some (keys.count k + 1) := by
    rw [h k, if_pos List.mem_cons_self, List.count_cons_self]
  have hother : ∀ k', k' ≠ k → t.lookup k' = if k' ∈ keys then some (keys.count k') else none := by
    intro k' hk
    rw [h k', List.count_cons_of_ne (Ne.symm hk)]
    simp only [List.mem_cons, hk, false_or]
  intro k'
  rw [Tally.remove, hentry]
  by_cases hzero : keys.count k = 0
  · simp only [hzero, Nat.zero_add, Nat.sub_self, if_true]
    by_cases hk : k' = k
    · subst hk
      rw [AList.lookup_erase, if_neg (List.count_eq_zero.mp hzero)]
    · rw [AList.lookup_erase_ne hk, hother k' hk]
  · simp only [Nat.add_sub_cancel, if_neg hzero]
    by_cases hk : k' = k
    · subst hk
      rw [AList.lookup_insert, if_pos (List.count_pos_iff.mp (Nat.pos_of_ne_zero hzero))]
    · rw [AList.lookup_insert_ne hk, hother k' hk]

/-- **The counts add up** to the number of keys. -/
theorem Counts.total (h : Counts t keys) : Tally.total t = keys.length := by
  induction keys generalizing t with
  | nil =>
      have hnone : ∀ k, k ∉ t.entries.keys := fun k =>
        AList.lookup_eq_none.mp (h k)
      have hnil : t.entries = [] := by
        cases hl : t.entries with
        | nil => rfl
        | cons e rest =>
            have := hnone e.1
            rw [hl] at this
            exact absurd List.mem_cons_self this
      rw [Tally.total, hnil]
      rfl
  | cons k keys ih =>
      have hentry := h k
      rw [if_pos List.mem_cons_self, List.count_cons_self] at hentry
      rw [← total_remove hentry, ih h.remove]
      rfl

end Tally
