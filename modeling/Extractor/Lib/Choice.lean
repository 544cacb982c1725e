import Mathlib.Data.List.MinMax

/-!
# The first best element

A small library on choosing, from a list, the first element of the highest key among those that
satisfy a predicate. `List.argmax` computes it; the definition here says what it is.

## Main results

* `FirstBest.unique`: there is at most one.
* `argmax_filter_eq_some_iff`: what `List.argmax` chooses.
* `exists_firstBest_iff`: there is one exactly when some element satisfies the predicate.
* `firstBest_iff_getElem?`: the first best element by its place.
* `findSome?_find?_eq_some_iff`: what searching preference by preference finds.
-/

namespace Choice

variable {α β : Type*} [LinearOrder β] {p : α → Bool} {key : α → β} {l : List α} {a b : α}

/-- An element of a list is the **first best** one: it satisfies the predicate, those before it that
do have a lower key, and those after it that do have no higher one. -/
def FirstBest (p : α → Bool) (key : α → β) (l : List α) (a : α) : Prop :=
  p a = true ∧ ∃ pre post, l = pre ++ a :: post ∧
    (∀ x ∈ pre, p x = true → key x < key a) ∧ ∀ x ∈ post, p x = true → key x ≤ key a

theorem FirstBest.mem (h : FirstBest p key l a) : a ∈ l := by
  obtain ⟨-, pre, post, rfl, -, -⟩ := h
  exact List.mem_append_right _ List.mem_cons_self

/-- No other one is better. -/
theorem FirstBest.le (h : FirstBest p key l a) {x : α} (hx : x ∈ l) (hpx : p x = true) :
    key x ≤ key a := by
  obtain ⟨-, pre, post, rfl, hpre, hpost⟩ := h
  rcases List.mem_append.mp hx with hx | hx
  · exact (hpre x hx hpx).le
  · rcases List.mem_cons.mp hx with rfl | hx
    · exact le_rfl
    · exact hpost x hx hpx

/-- The rest of a list, where its head is passed over. -/
theorem FirstBest.cons (h : FirstBest p key l a) (hb : p b = true → key b < key a) :
    FirstBest p key (b :: l) a := by
  obtain ⟨ha, pre, post, rfl, hpre, hpost⟩ := h
  refine ⟨ha, b :: pre, post, rfl, fun x hx hpx => ?_, hpost⟩
  rcases List.mem_cons.mp hx with rfl | hx
  · exact hb hpx
  · exact hpre x hx hpx

/-- The head, where the rest has nothing better. -/
theorem firstBest_head (hb : p b = true) (hl : ∀ x ∈ l, p x = true → key x ≤ key b) :
    FirstBest p key (b :: l) b :=
  ⟨hb, [], l, rfl, List.forall_mem_nil _, hl⟩

/-- **There is at most one.** -/
theorem FirstBest.unique (ha : FirstBest p key l a) (hb : FirstBest p key l b) : a = b := by
  obtain ⟨hpa, pre, post, rfl, hpre, hpost⟩ := ha
  obtain ⟨hpb, pre', post', heq, hpre', hpost'⟩ := hb
  rcases List.append_eq_append_iff.mp heq with ⟨mid, rfl, hmid⟩ | ⟨mid, rfl, hmid⟩
  · cases mid with
    | nil => exact (List.cons.inj hmid).1
    | cons c mid =>
        obtain ⟨rfl, rfl⟩ := List.cons.inj hmid
        have hlt := hpre' a (List.mem_append_right _ List.mem_cons_self) hpa
        have hle := hpost b (List.mem_append_right _ List.mem_cons_self) hpb
        exact absurd hlt (not_lt_of_ge hle)
  · cases mid with
    | nil => exact (List.cons.inj hmid).1.symm
    | cons c mid =>
        obtain ⟨rfl, rfl⟩ := List.cons.inj hmid
        have hlt := hpre b (List.mem_append_right _ List.mem_cons_self) hpb
        have hle := hpost' a (List.mem_append_right _ List.mem_cons_self) hpa
        exact absurd hlt (not_lt_of_ge hle)

theorem firstBest_of_argmax (h : (l.filter p).argmax key = some a) : FirstBest p key l a := by
  induction l generalizing a with
  | nil => cases h
  | cons b l ih =>
      cases hb : p b with
      | false =>
          rw [List.filter_cons_of_neg (Bool.eq_false_iff.mp hb)] at h
          exact (ih h).cons fun htrue => absurd htrue (Bool.eq_false_iff.mp hb)
      | true =>
          rw [List.filter_cons_of_pos hb, List.argmax_cons] at h
          cases hrest : (l.filter p).argmax key with
          | none =>
              rw [hrest] at h
              cases h
              have hnone := List.filter_eq_nil_iff.mp (List.argmax_eq_none.mp hrest)
              exact firstBest_head hb fun x hx hpx => absurd hpx (hnone x hx)
          | some c =>
              have hc := ih hrest
              rw [hrest] at h
              dsimp only at h
              split at h
              · next hlt =>
                  cases h
                  exact hc.cons fun _ => hlt
              · next hlt =>
                  cases h
                  exact firstBest_head hb fun x hx hpx => (hc.le hx hpx).trans (not_lt.mp hlt)

/-- There is one exactly when some element satisfies the predicate. -/
theorem exists_firstBest_iff : (∃ a, FirstBest p key l a) ↔ ∃ a ∈ l, p a = true := by
  constructor
  · rintro ⟨a, ha⟩
    exact ⟨a, ha.mem, ha.1⟩
  · rintro ⟨a, ha, hpa⟩
    cases hbest : (l.filter p).argmax key with
    | none =>
        have hnone := List.filter_eq_nil_iff.mp (List.argmax_eq_none.mp hbest)
        exact absurd hpa (hnone a ha)
    | some b => exact ⟨b, firstBest_of_argmax hbest⟩

/-- **What `List.argmax` chooses** from the elements that satisfy a predicate. -/
theorem argmax_filter_eq_some_iff : (l.filter p).argmax key = some a ↔ FirstBest p key l a := by
  refine ⟨firstBest_of_argmax, fun h => ?_⟩
  cases hbest : (l.filter p).argmax key with
  | none =>
      have hnone := List.filter_eq_nil_iff.mp (List.argmax_eq_none.mp hbest)
      exact absurd h.1 (hnone a h.mem)
  | some b => exact congrArg some ((firstBest_of_argmax hbest).unique h)

/-- The first best element by its place: every other one that satisfies the predicate has a lower
key, or the same key and a later place. -/
theorem firstBest_iff_getElem? : FirstBest p key l a ↔ p a = true ∧ ∃ i : ℕ, l[i]? = some a ∧
    ∀ (j : ℕ) (b : α), l[j]? = some b → p b = true → key b < key a ∨ key b = key a ∧ i ≤ j := by
  constructor
  · rintro ⟨ha, pre, post, rfl, hpre, hpost⟩
    refine ⟨ha, pre.length, by simp, fun j b hj hb => ?_⟩
    rcases Nat.lt_or_ge j pre.length with hlt | hge
    · rw [List.getElem?_append_left hlt] at hj
      exact .inl (hpre b (List.mem_of_getElem? hj) hb)
    · have hle : key b ≤ key a := by
        rw [List.getElem?_append_right hge] at hj
        rcases List.mem_cons.mp (List.mem_of_getElem? hj) with rfl | hmem
        · exact le_rfl
        · exact hpost b hmem hb
      exact hle.lt_or_eq.imp_right fun heq => ⟨heq, hge⟩
  · rintro ⟨ha, i, hi, hbest⟩
    obtain ⟨hlt, hget⟩ := List.getElem?_eq_some_iff.mp hi
    refine ⟨ha, l.take i, l.drop (i + 1), ?_, fun x hx hpx => ?_, fun x hx hpx => ?_⟩
    · rw [← hget, List.getElem_cons_drop, List.take_append_drop]
    · obtain ⟨j, hj, rfl⟩ := List.mem_iff_getElem.mp hx
      rw [List.length_take] at hj
      have hget' : l[j]? = some (l.take i)[j] := by
        rw [List.getElem_take, List.getElem?_eq_getElem (by omega)]
      exact (hbest j _ hget' hpx).resolve_right fun h => by omega
    · obtain ⟨j, hj, rfl⟩ := List.mem_iff_getElem.mp (List.mem_of_mem_drop hx)
      exact (hbest j _ (List.getElem?_eq_getElem hj) hpx).elim le_of_lt fun h => h.1.le

/-- The first best element of a filtered list. -/
theorem firstBest_filter_iff {q : α → Bool} :
    FirstBest p key (l.filter q) a ↔ FirstBest (fun x => p x && q x) key l a := by
  rw [← argmax_filter_eq_some_iff, ← argmax_filter_eq_some_iff, List.filter_filter]

/-- **Searching preference by preference** finds the first element of the best preference. -/
theorem findSome?_find?_eq_some_iff {γ : Type*} [BEq γ] [LawfulBEq γ] {k : α → γ} {prefs : List γ} :
    prefs.findSome? (fun pref => l.find? fun x => k x == pref) = some a ↔
      FirstBest (fun x => decide (k x ∈ prefs))
        (fun x => OrderDual.toDual (prefs.idxOf (k x))) l a := by
  have hfirst : ∀ {b}, prefs.findSome? (fun pref => l.find? fun x => k x == pref) = some b →
      FirstBest (fun x => decide (k x ∈ prefs))
        (fun x => OrderDual.toDual (prefs.idxOf (k x))) l b := by
    intro b h
    obtain ⟨pre, pref, post, rfl, hfind, hpre⟩ := List.findSome?_eq_some_iff.mp h
    obtain ⟨hb, before, after, rfl, hbefore⟩ := List.find?_eq_some_iff_append.mp hfind
    obtain rfl : k b = pref := eq_of_beq hb
    -- nothing in the list has an earlier preference
    have hnot : ∀ x ∈ before ++ b :: after, k x ∉ pre := by
      intro x hx hmem
      exact List.find?_eq_none.mp (hpre (k x) hmem) x hx (by simp)
    have hindex : (pre ++ k b :: post).idxOf (k b) = pre.length := by
      rw [List.idxOf_append_of_notMem (hnot b (by simp)), List.idxOf_cons_self, Nat.add_zero]
    refine ⟨by simp, before, after, rfl, fun x hx _ => ?_, fun x hx _ => ?_⟩
    · have hne : k x ≠ k b := fun heq => by simpa [heq] using hbefore x hx
      rw [OrderDual.toDual_lt_toDual, hindex,
        List.idxOf_append_of_notMem (hnot x (List.mem_append_left _ hx)),
        List.idxOf_cons_ne _ (Ne.symm hne)]
      omega
    · rw [OrderDual.toDual_le_toDual, hindex, List.idxOf_append_of_notMem
        (hnot x (List.mem_append_right _ (List.mem_cons_of_mem _ hx)))]
      exact Nat.le_add_right _ _
  refine ⟨hfirst, fun h => ?_⟩
  cases hsome : prefs.findSome? fun pref => l.find? fun x => k x == pref with
  | none =>
      have hnone := List.findSome?_eq_none_iff.mp hsome (k a) (of_decide_eq_true h.1)
      exact absurd (beq_self_eq_true (k a)) (List.find?_eq_none.mp hnone a h.mem)
  | some b => exact congrArg some ((hfirst hsome).unique h)

/-- A search finds the one element that satisfies the predicate. -/
theorem find?_eq_some_of_unique {α : Type*} {p : α → Bool} {l : List α} {a : α} (ha : a ∈ l)
    (hp : ∀ b ∈ l, p b = true ↔ b = a) : l.find? p = some a := by
  cases hfind : l.find? p with
  | none => exact absurd ((hp a ha).mpr rfl) (List.find?_eq_none.mp hfind a ha)
  | some b =>
      exact congrArg some ((hp b (List.mem_of_find?_eq_some hfind)).mp (List.find?_some hfind))

end Choice
