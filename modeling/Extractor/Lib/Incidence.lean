import Mathlib.Algebra.Order.BigOperators.Group.List
import Mathlib.Algebra.Order.Ring.Nat
import Mathlib.Data.List.Nodup

/-!
# Counting incidences

A small library on two lists and a relation between them: what is summed over the related pairs, by
the elements of one list or of the other, and when every element is counted at most once.

## Main results

* `sum_related_eq`: the two ways of summing.
* `countP_le_one_iff`: when an element is related to at most one other.
* `sum_related_eq_covered_iff`: when the sum counts every related element once.
-/

namespace Incidence

variable {α β γ : Type*}

/-- Where the images under a function are distinct, a predicate holds of at most one element exactly
when all elements that it holds of have the same image. -/
theorem countP_le_one_iff {l : List α} {f : α → γ} (hl : (l.map f).Nodup) {p : α → Bool} :
    l.countP p ≤ 1 ↔ ∀ a ∈ l, ∀ b ∈ l, p a = true → p b = true → f a = f b := by
  rw [List.countP_eq_length_filter]
  have hmem : ∀ a, a ∈ l.filter p ↔ a ∈ l ∧ p a = true := fun a => List.mem_filter
  have hnodup : ((l.filter p).map f).Nodup := hl.sublist (List.filter_sublist.map f)
  constructor
  · intro hlength a ha b hb hpa hpb
    have ha' := (hmem a).mpr ⟨ha, hpa⟩
    have hb' := (hmem b).mpr ⟨hb, hpb⟩
    match hfilter : l.filter p, hlength with
    | [], _ =>
        rw [hfilter] at ha'
        cases ha'
    | [c], _ =>
        rw [hfilter, List.mem_singleton] at ha' hb'
        rw [ha', hb']
  · intro hsame
    match hfilter : l.filter p with
    | [] => exact Nat.zero_le 1
    | [c] => exact Nat.le_refl 1
    | c :: d :: rest =>
        rw [hfilter] at hmem hnodup
        obtain ⟨hc, hpc⟩ := (hmem c).mp List.mem_cons_self
        obtain ⟨hd, hpd⟩ := (hmem d).mp (List.mem_cons_of_mem _ List.mem_cons_self)
        have hne := (List.nodup_cons.mp hnodup).1
        rw [hsame c hc d hd hpc hpd] at hne
        exact absurd List.mem_cons_self hne

variable {B : List α} {S : List β} {r : α → β → Bool} {w : β → ℕ}

/-- One element more. -/
theorem sum_filter_add (p : β → Bool) (n : β → ℕ) (w : β → ℕ) (S : List β) :
    ((S.filter p).map w).sum + (S.map fun s => n s * w s).sum =
      (S.map fun s => (n s + if p s then 1 else 0) * w s).sum := by
  induction S with
  | nil => rfl
  | cons s S ih =>
      rw [List.map_cons, List.sum_cons, List.map_cons, List.sum_cons, ← ih]
      cases hs : p s with
      | false =>
          rw [List.filter_cons_of_neg (Bool.eq_false_iff.mp hs), if_neg Bool.false_ne_true,
            Nat.add_zero]
          exact Nat.add_left_comm ..
      | true =>
          rw [List.filter_cons_of_pos hs, List.map_cons, List.sum_cons, if_pos rfl, Nat.add_mul,
            Nat.one_mul]
          omega

/-- **The two ways of summing** over the related pairs. -/
theorem sum_related_eq (B : List α) (S : List β) (r : α → β → Bool) (w : β → ℕ) :
    (B.map fun b => ((S.filter (r b)).map w).sum).sum =
      (S.map fun s => B.countP (fun b => r b s) * w s).sum := by
  induction B with
  | nil => simp
  | cons b B ih =>
      rw [List.map_cons, List.sum_cons, ih, sum_filter_add]
      refine congrArg List.sum (List.map_congr_left fun s _ => ?_)
      rw [List.countP_cons]

/-- What is summed over the elements that are related to some other. -/
theorem sum_covered_eq (B : List α) (S : List β) (r : α → β → Bool) (w : β → ℕ) :
    ((S.filter fun s => B.any fun b => r b s).map w).sum =
      (S.map fun s => min (B.countP fun b => r b s) 1 * w s).sum := by
  have h := sum_filter_add (fun s => B.any fun b => r b s) (fun _ => 0) w S
  have hzero : (S.map fun s => 0 * w s).sum = 0 := by simp
  rw [hzero, Nat.add_zero] at h
  rw [h]
  refine congrArg List.sum (List.map_congr_left fun s _ => ?_)
  cases hany : B.any fun b => r b s with
  | false =>
      have hzero : B.countP (fun b => r b s) = 0 := by
        rw [List.countP_eq_zero]
        exact fun b hb hr => Bool.eq_false_iff.mp hany (List.any_eq_true.mpr ⟨b, hb, hr⟩)
      rw [hzero]
      rfl
  | true =>
      have hpos : 0 < B.countP (fun b => r b s) := List.countP_pos_iff.mpr (List.any_eq_true.mp hany)
      rw [Nat.min_eq_right hpos]
      rfl

/-- **The sum counts every related element once** exactly when each is related to at most one
other. -/
theorem sum_related_eq_covered_iff (hw : ∀ s ∈ S, 0 < w s) :
    (B.map fun b => ((S.filter (r b)).map w).sum).sum =
        ((S.filter fun s => B.any fun b => r b s).map w).sum ↔
      ∀ s ∈ S, B.countP (fun b => r b s) ≤ 1 := by
  rw [sum_related_eq, sum_covered_eq]
  constructor
  · intro heq s hs
    by_contra hmany
    have hle : ∀ s ∈ S, min (B.countP fun b => r b s) 1 * w s ≤ B.countP (fun b => r b s) * w s :=
      fun s _ => Nat.mul_le_mul_right _ (Nat.min_le_left _ _)
    have hlt : min (B.countP fun b => r b s) 1 * w s < B.countP (fun b => r b s) * w s :=
      Nat.mul_lt_mul_of_pos_right (by omega) (hw s hs)
    exact absurd heq (Nat.ne_of_gt (List.sum_lt_sum _ _ hle ⟨s, hs, hlt⟩))
  · intro hone
    refine congrArg List.sum (List.map_congr_left fun s hs => ?_)
    rw [Nat.min_eq_left (hone s hs)]

/-- What is related is not more than all. -/
theorem sum_covered_le : ((S.filter fun s => B.any fun b => r b s).map w).sum ≤ (S.map w).sum :=
  (List.filter_sublist.map w).sum_le_sum fun _ _ => Nat.zero_le _

end Incidence
