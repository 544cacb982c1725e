import Mathlib.Data.List.Basic

/-!
# Paths

A small library on paths as texts, with the rules of a Unix system without symbolic links: joining a
path to another one, and the place that a path names, as the names from the root.

## Main results

* `resolve_join`: a plain name that is joined names an entry of the place.
-/

namespace Paths

/-- `Path::join`: an absolute path takes the place of the first one. -/
def join (base path : List Char) : List Char :=
  if path.head? = some '/' then path
  else if base = [] ∨ base.getLast? = some '/' then base ++ path
  else base ++ '/' :: path

/-- One component, from a place. -/
def descend (place : List (List Char)) (component : List Char) : List (List Char) :=
  if component = [] ∨ component = ['.'] then place
  else if component = ['.', '.'] then place.dropLast
  else place ++ [component]

/-- The place that a path names, from a working directory. -/
def resolve (cwd : List (List Char)) (path : List Char) : List (List Char) :=
  (path.splitOn '/').foldl descend (if path.head? = some '/' then [] else cwd)

/-- A name of an entry. -/
structure Plain (name : List Char) : Prop where
  nonempty : name ≠ []
  separator : '/' ∉ name
  dot : name ≠ ['.']
  dots : name ≠ ['.', '.']

variable {cwd : List (List Char)} {base name : List Char}

theorem Plain.descend_eq (h : Plain name) (place : List (List Char)) :
    descend place name = place ++ [name] := by
  rw [descend, if_neg (not_or.mpr ⟨h.nonempty, h.dot⟩), if_neg h.dots]

theorem Plain.head?_ne (h : Plain name) : name.head? ≠ some '/' := by
  intro hhead
  exact h.separator (List.mem_of_mem_head? hhead)

/-- Another component at the end. -/
theorem resolve_append_cons (h : Plain name) (hbase : base ≠ []) :
    resolve cwd (base ++ '/' :: name) = resolve cwd base ++ [name] := by
  obtain ⟨c, rest, rfl⟩ := List.exists_cons_of_ne_nil hbase
  have hsplit : (c :: rest ++ '/' :: name).splitOn '/' = (c :: rest).splitOn '/' ++ [name] := by
    rw [List.splitOn_append_cons_self, List.splitOn_eq_singleton h.separator]
  rw [resolve, hsplit, List.foldl_append, List.foldl_cons, List.foldl_nil, h.descend_eq]
  rfl

/-- **A plain name that is joined** names an entry of the place. -/
theorem resolve_join (h : Plain name) (cwd : List (List Char)) (base : List Char) :
    resolve cwd (join base name) = resolve cwd base ++ [name] := by
  rw [join, if_neg h.head?_ne]
  split
  · next hend =>
      rcases hend with rfl | hlast
      · rw [List.nil_append, resolve, if_neg h.head?_ne, List.splitOn_eq_singleton h.separator,
          List.foldl_cons, List.foldl_nil, h.descend_eq]
        rfl
      · obtain ⟨init, rfl⟩ := List.getLast?_eq_some_iff.mp hlast
        have hempty : ∀ place, descend place [] = place := fun place => if_pos (.inl rfl)
        cases init with
        | nil =>
            rw [List.nil_append, List.singleton_append, resolve, resolve]
            have hsplit : ('/' :: name).splitOn '/' = [[], name] := by
              have := List.splitOn_append_cons_self (a := '/') [] name
              rw [List.nil_append, List.splitOn_eq_singleton h.separator] at this
              exact this
            rw [hsplit]
            exact h.descend_eq []
        | cons c rest =>
            have hbase : (c :: rest ++ ['/']).splitOn '/' = (c :: rest).splitOn '/' ++ [[]] :=
              List.splitOn_append_cons_self (c :: rest) []
            have hjoined : (c :: rest ++ ['/'] ++ name).splitOn '/' =
                (c :: rest).splitOn '/' ++ [name] := by
              rw [List.append_assoc, List.singleton_append, List.splitOn_append_cons_self,
                List.splitOn_eq_singleton h.separator]
            rw [resolve, resolve, hbase, hjoined, List.foldl_append, List.foldl_append,
              List.foldl_cons, List.foldl_nil, List.foldl_cons, List.foldl_nil, hempty, h.descend_eq]
            rfl
  · next hend =>
      exact resolve_append_cons h (not_or.mp hend).1

end Paths
