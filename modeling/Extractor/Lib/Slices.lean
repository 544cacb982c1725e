import Mathlib.Algebra.Order.Group.Nat
import Mathlib.Data.List.Basic
import Mathlib.Data.Nat.ModEq

/-!
# Cutting a list into even slices

Slice `i` of `count` slices of a list of `n` values holds the values from `n * i / count` up to
`n * (i + 1) / count`. While there are no more slices than values, the slices are consecutive and
non-empty, they are the list, and their lengths differ by at most one.

## Main results

* `Evenly.flatten_slices`: the slices are the list.
* `Evenly.slices_ne_nil`, `Evenly.length_le_of_mem`: no slice is empty, and none is longer than
  another by more than one.
* `Evenly.intercalate_map_intercalate`: joining joined slices joins the list.
-/

namespace Evenly

variable {α : Type*}

/-- The values of one slice. -/
def slice (xs : List α) (count i : ℕ) : List α :=
  (xs.drop (xs.length * i / count)).take (xs.length * (i + 1) / count - xs.length * i / count)

/-- All slices, in their order. -/
def slices (xs : List α) (count : ℕ) : List (List α) :=
  (List.range count).map (slice xs count)

@[simp] theorem length_slices (xs : List α) (count : ℕ) : (slices xs count).length = count := by
  simp [slices]

/-- The bounds of the slices do not fall. -/
theorem bound_mono (n count : ℕ) {i j : ℕ} (h : i ≤ j) : n * i / count ≤ n * j / count :=
  Nat.div_le_div_right (Nat.mul_le_mul_left _ h)

/-- The slices up to one of them are the values up to its bound. -/
theorem flatten_take_slices (xs : List α) (count i : ℕ) :
    ((List.range i).map (slice xs count)).flatten = xs.take (xs.length * i / count) := by
  induction i with
  | zero => simp
  | succ i ih =>
      rw [List.range_succ, List.map_append, List.flatten_append, ih, List.map_singleton,
        List.flatten_singleton, slice, ← List.take_add,
        Nat.add_sub_cancel' (bound_mono _ _ (Nat.le_succ _))]

/-- **The slices are the list**, in its order and without a loss. -/
theorem flatten_slices (xs : List α) {count : ℕ} (h : 0 < count) :
    (slices xs count).flatten = xs := by
  rw [slices, flatten_take_slices, Nat.mul_div_cancel _ h, List.take_length]

/-- The distance of two bounds is the even part, or one more. -/
theorem bound_sub (n i : ℕ) {count : ℕ} (h : 0 < count) :
    n * (i + 1) / count - n * i / count = n / count ∨
      n * (i + 1) / count - n * i / count = n / count + 1 := by
  rw [Nat.mul_succ, Nat.add_div h, Nat.add_assoc, Nat.add_sub_cancel_left]
  split
  · exact .inr rfl
  · exact .inl rfl

theorem length_slice (xs : List α) {count i : ℕ} (h : i < count) :
    (slice xs count i).length = xs.length * (i + 1) / count - xs.length * i / count := by
  have hend : xs.length * (i + 1) / count ≤ xs.length * count / count := bound_mono _ _ h
  rw [Nat.mul_div_cancel _ (by omega)] at hend
  rw [slice, List.length_take, List.length_drop]
  omega

/-- A slice has the even part of the values, or one more. -/
theorem length_of_mem {xs : List α} {count : ℕ} {part : List α} (h : part ∈ slices xs count) :
    part.length = xs.length / count ∨ part.length = xs.length / count + 1 := by
  obtain ⟨i, hi, rfl⟩ := List.mem_map.mp h
  have hlt : i < count := List.mem_range.mp hi
  rw [length_slice xs hlt]
  exact bound_sub _ _ (by omega)

/-- **The slices are even**: none is longer than another by more than one. -/
theorem length_le_of_mem {xs : List α} {count : ℕ} {part other : List α}
    (h : part ∈ slices xs count) (hother : other ∈ slices xs count) :
    part.length ≤ other.length + 1 := by
  have h₁ := length_of_mem h
  have h₂ := length_of_mem hother
  omega

/-- No slice is empty while there are no more slices than values. -/
theorem slices_ne_nil {xs : List α} {count : ℕ} (h : count ≤ xs.length) {part : List α}
    (hmem : part ∈ slices xs count) : part ≠ [] := by
  have hlen := length_of_mem hmem
  have hcount : 0 < count := by
    rw [← length_slices xs count]
    exact List.length_pos_of_mem hmem
  have heven : 0 < xs.length / count := Nat.div_pos h hcount
  rintro rfl
  rw [List.length_nil] at hlen
  omega

/-- As many slices as values are the single values. -/
theorem slices_length (xs : List α) : slices xs xs.length = xs.map fun x => [x] := by
  refine List.ext_getElem (by simp) fun i hi hi' => ?_
  have hlt : i < xs.length := by simpa using hi
  have hpos : 0 < xs.length := by omega
  have hbound : ∀ j, xs.length * j / xs.length = j := fun j => Nat.mul_div_cancel_left j hpos
  simp only [slices, slice, List.getElem_map, List.getElem_range, hbound]
  rw [Nat.add_sub_cancel_left, List.drop_eq_getElem_cons hlt, List.take_succ_cons, List.take_zero]

/-! ### Joining -/

/-- Two lists of parts are joined with one separator between them. -/
theorem intercalate_append (sep : List α) {xs ys : List (List α)} (hx : xs ≠ []) (hy : ys ≠ []) :
    sep.intercalate (xs ++ ys) = sep.intercalate xs ++ sep ++ sep.intercalate ys := by
  induction xs with
  | nil => exact absurd rfl hx
  | cons x xs ih =>
      rcases xs with _ | ⟨x', xs⟩
      · rw [List.singleton_append, List.intercalate_cons_of_ne_nil hy, List.intercalate_singleton]
      · have hih := ih (List.cons_ne_nil _ _)
        rw [List.cons_append, List.intercalate_cons_of_ne_nil (by simp), hih,
          List.intercalate_cons_cons]
        simp only [List.append_assoc]

/-- **Joining joined groups joins everything**, where no group is empty. -/
theorem intercalate_map_intercalate (sep : List α) {groups : List (List (List α))}
    (h : ∀ group ∈ groups, group ≠ []) :
    sep.intercalate (groups.map sep.intercalate) = sep.intercalate groups.flatten := by
  induction groups with
  | nil => rfl
  | cons group groups ih =>
      obtain ⟨hgroup, hgroups⟩ := List.forall_mem_cons.mp h
      rcases groups with _ | ⟨next, groups⟩
      · simp
      · have hflatten : (next :: groups).flatten ≠ [] := by
          have hnext : next ≠ [] := hgroups next (List.mem_cons_self ..)
          simp [hnext]
        have hjoin := intercalate_append sep hgroup hflatten
        rw [List.map_cons, List.intercalate_cons_of_ne_nil (by simp), ih hgroups, ← hjoin]
        rfl

end Evenly
