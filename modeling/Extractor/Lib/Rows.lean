import Mathlib.Data.List.Nodup

/-!
# Tables as lists of rows

A relational table is modelled as the list of its rows, in insertion order. This library
gives the two statements a table is changed by, a guarded update and an insert that
respects a key, with the lemmas proofs about tables need: membership and keys.

## Main results

* `mem_updateWhere`: the rows of an updated table are the images of its rows.
* `map_updateWhere`: an update that keeps a column keeps the whole column.
* `insertKeyed_eq_some_iff`: an insert succeeds exactly when its key is new.
* `exists_around`: a list around one of its positions.
-/

universe u v

namespace Rows

variable {ρ : Type u} {κ : Type v}

/-- `update … set f where p`: the rows that meet `p` are replaced by their image. -/
def updateWhere (p : ρ → Bool) (f : ρ → ρ) (rows : List ρ) : List ρ :=
  rows.map fun r => if p r then f r else r

/-- `insert …` under a unique key: refused when a row with the same key is present. -/
def insertKeyed [DecidableEq κ] (key : ρ → κ) (r : ρ) (rows : List ρ) : Option (List ρ) :=
  if key r ∈ rows.map key then none else some (rows ++ [r])

/-! ### Updates -/

/-- The rows of an updated table are the images of the rows before. -/
theorem mem_updateWhere {p : ρ → Bool} {f : ρ → ρ} {rows : List ρ} {r' : ρ} :
    r' ∈ updateWhere p f rows ↔ ∃ r ∈ rows, (if p r then f r else r) = r' := by
  simp only [updateWhere, List.mem_map]

/-- A row that the update does not address stays in the table. -/
theorem mem_updateWhere_of_not {p : ρ → Bool} {f : ρ → ρ} {rows : List ρ} {r : ρ}
    (hr : r ∈ rows) (hp : p r = false) : r ∈ updateWhere p f rows :=
  mem_updateWhere.mpr ⟨r, hr, by simp [hp]⟩

/-- A row that the update addresses is replaced by its image. -/
theorem mem_updateWhere_of_pos {p : ρ → Bool} {f : ρ → ρ} {rows : List ρ} {r : ρ}
    (hr : r ∈ rows) (hp : p r = true) : f r ∈ updateWhere p f rows :=
  mem_updateWhere.mpr ⟨r, hr, by simp [hp]⟩

/-- An update that keeps a column on the rows it addresses keeps the column. -/
theorem map_updateWhere {p : ρ → Bool} {f : ρ → ρ} {rows : List ρ} (col : ρ → κ)
    (h : ∀ r ∈ rows, p r = true → col (f r) = col r) :
    (updateWhere p f rows).map col = rows.map col := by
  rw [updateWhere, List.map_map]
  refine List.map_congr_left fun r hr => ?_
  by_cases hp : p r = true
  · simp [hp, h r hr hp]
  · simp [hp]

/-- An update that addresses no row changes nothing. -/
theorem updateWhere_eq_self {p : ρ → Bool} {f : ρ → ρ} {rows : List ρ}
    (h : ∀ r ∈ rows, p r = false) : updateWhere p f rows = rows := by
  conv_rhs => rw [← List.map_id rows]
  exact List.map_congr_left fun r hr => by simp [h r hr]

/-- A search that the update does not concern finds the same row as before. -/
theorem find?_updateWhere {p q : ρ → Bool} {f : ρ → ρ} {rows : List ρ}
    (h : ∀ r ∈ rows, p r = true → q r = false ∧ q (f r) = false) :
    (updateWhere p f rows).find? q = rows.find? q := by
  induction rows with
  | nil => rfl
  | cons r rows ih =>
      have ih := ih fun s hs => h s (List.mem_cons_of_mem _ hs)
      rw [updateWhere, List.map_cons, ← updateWhere]
      by_cases hp : p r = true
      · obtain ⟨hq, hq'⟩ := h r (List.mem_cons_self ..) hp
        simp [hp, hq, hq', ih]
      · simp [hp, List.find?_cons, ih]

/-! ### Keys -/

/-- Under a unique key two rows with the same key are the same row. -/
theorem eq_of_key {key : ρ → κ} {rows : List ρ} (hkey : (rows.map key).Nodup) {r s : ρ}
    (hr : r ∈ rows) (hs : s ∈ rows) (h : key r = key s) : r = s :=
  List.inj_on_of_nodup_map hkey hr hs h

/-- A row that is found by its key is in the table and has the key. -/
theorem mem_of_find?_key [DecidableEq κ] {key : ρ → κ} {rows : List ρ} {k : κ} {r : ρ}
    (h : (rows.find? fun r => key r == k) = some r) : r ∈ rows ∧ key r = k := by
  have hk := List.find?_some h
  exact ⟨List.mem_of_find?_eq_some h, beq_iff_eq.mp hk⟩

/-- Under a unique key a row is found by its key. -/
theorem find?_key [DecidableEq κ] {key : ρ → κ} {rows : List ρ} (hkey : (rows.map key).Nodup)
    {r : ρ} (hr : r ∈ rows) : (rows.find? fun s => key s == key r) = some r := by
  cases hfind : rows.find? fun s => key s == key r with
  | none => exact absurd (beq_self_eq_true (key r)) (List.find?_eq_none.mp hfind r hr)
  | some s =>
      obtain ⟨hs, hks⟩ := mem_of_find?_key hfind
      rw [eq_of_key hkey hs hr hks]

/-- Under a unique key a row is the only one with its key. -/
theorem filter_key [DecidableEq κ] {key : ρ → κ} {rows : List ρ} (hkey : (rows.map key).Nodup)
    {r : ρ} (hr : r ∈ rows) : (rows.filter fun s => key s == key r) = [r] := by
  induction rows with
  | nil => cases hr
  | cons s rows ih =>
      rw [List.map_cons, List.nodup_cons] at hkey
      obtain ⟨hnew, hrest⟩ := hkey
      rcases List.mem_cons.mp hr with rfl | hr
      · rw [List.filter_cons_of_pos (by simp), List.filter_eq_nil_iff.mpr]
        intro s hs heq
        exact hnew (List.mem_map.mpr ⟨s, hs, beq_iff_eq.mp heq⟩)
      · rw [List.filter_cons_of_neg, ih hrest hr]
        intro heq
        exact hnew (List.mem_map.mpr ⟨r, hr, (beq_iff_eq.mp heq).symm⟩)

/-- Where a condition holds of one row at most, the rows that meet it are the same row. -/
theorem eq_of_countP_le_one {p : ρ → Bool} {rows : List ρ} (h : rows.countP p ≤ 1) {r s : ρ}
    (hr : r ∈ rows) (hs : s ∈ rows) (hpr : p r = true) (hps : p s = true) : r = s := by
  have hmem : r ∈ rows.filter p ∧ s ∈ rows.filter p :=
    ⟨List.mem_filter.mpr ⟨hr, hpr⟩, List.mem_filter.mpr ⟨hs, hps⟩⟩
  rw [List.countP_eq_length_filter] at h
  cases hrows : rows.filter p with
  | nil => simp [hrows] at hmem
  | cons x rest =>
      rw [hrows, List.length_cons] at h
      obtain rfl : rest = [] := List.length_eq_zero_iff.mp (by omega)
      rw [hrows] at hmem
      exact (List.mem_singleton.mp hmem.1).trans (List.mem_singleton.mp hmem.2).symm

/-- An insert succeeds exactly when its key is new, and then appends the row. -/
theorem insertKeyed_eq_some_iff [DecidableEq κ] {key : ρ → κ} {r : ρ} {rows rows' : List ρ} :
    insertKeyed key r rows = some rows' ↔ key r ∉ rows.map key ∧ rows' = rows ++ [r] := by
  unfold insertKeyed
  by_cases h : key r ∈ rows.map key
  · simp [h]
  · simp [h, eq_comm]

/-- A successful insert keeps the key unique. -/
theorem nodup_of_insertKeyed [DecidableEq κ] {key : ρ → κ} {r : ρ} {rows rows' : List ρ}
    (hkey : (rows.map key).Nodup) (h : insertKeyed key r rows = some rows') :
    (rows'.map key).Nodup := by
  obtain ⟨hnew, rfl⟩ := insertKeyed_eq_some_iff.mp h
  rw [List.map_append, List.map_singleton]
  exact hkey.append (List.nodup_singleton _) fun k hk hk' =>
    hnew (List.mem_singleton.mp hk' ▸ hk)

/-! ### Positions -/

/-- A list around one of its positions, and what replacing and erasing do there. -/
theorem exists_around {rows : List ρ} {i : ℕ} {r : ρ} (h : rows[i]? = some r) :
    ∃ pre post, rows = pre ++ r :: post ∧ rows.eraseIdx i = pre ++ post ∧
      ∀ r', rows.set i r' = pre ++ r' :: post := by
  induction rows generalizing i with
  | nil => cases h
  | cons x rows ih =>
      cases i with
      | zero =>
          rw [List.getElem?_cons_zero] at h
          obtain rfl := Option.some.inj h
          exact ⟨[], rows, rfl, rfl, fun _ => rfl⟩
      | succ i =>
          rw [List.getElem?_cons_succ] at h
          obtain ⟨pre, post, hrows, herase, hset⟩ := ih h
          refine ⟨x :: pre, post, ?_, ?_, fun r' => ?_⟩
          · rw [hrows, List.cons_append]
          · rw [List.eraseIdx_cons_succ, herase, List.cons_append]
          · rw [List.set_cons_succ, hset, List.cons_append]

end Rows
