import Mathlib.Algebra.GroupWithZero.Nat
import Mathlib.Data.List.Basic
import Mathlib.Data.List.TakeWhile
import Mathlib.Algebra.Order.BigOperators.Group.List
import Mathlib.Algebra.Order.Group.Nat

/-!
# Text operations on lists of characters

The string operations of a standard library, on lists of characters, where they can be
reasoned about by structural recursion and evaluated: searching, splitting at the first
occurrence of a pattern, ASCII case folding, and matching host suffixes.
-/

namespace Text

/-- `str::split_once`: the text before and after the first occurrence of `pat`. -/
def splitOnce (pat : List Char) : List Char → Option (List Char × List Char)
  | [] => if pat = [] then some ([], []) else none
  | c :: cs =>
      if pat.isPrefixOf (c :: cs) then some ([], (c :: cs).drop pat.length)
      else (splitOnce pat cs).map fun r => (c :: r.1, r.2)

/-- `str::contains`. -/
def contains (pat text : List Char) : Bool :=
  (splitOnce pat text).isSome

/-- The part of a text before the first of some characters. -/
def before (stops text : List Char) : List Char :=
  text.takeWhile fun c => !stops.contains c

/-- The part of a text after the last occurrence of a character, or all of it. -/
def afterLast (c : Char) (text : List Char) : List Char :=
  (text.reverse.takeWhile fun d => d != c).reverse

/-- `str::strip_suffix`. -/
def stripSuffix (suffix text : List Char) : Option (List Char) :=
  if suffix.isSuffixOf text then some (text.take (text.length - suffix.length)) else none

/-- The value of a text of decimal digits. -/
def decimalValue (digits : List Char) : ℕ :=
  digits.foldl (fun n c => 10 * n + (c.toNat - 48)) 0

/-- `str::parse` to an unsigned integer below `bound`: digits, after an optional plus sign. -/
def parseUnsigned (bound : ℕ) (text : List Char) : Option ℕ :=
  let digits := match text with
    | '+' :: rest => rest
    | _ => text
  if digits ≠ [] ∧ digits.all Char.isDigit ∧ decimalValue digits < bound then
    some (decimalValue digits)
  else none

/-- `str::to_ascii_lowercase`. -/
def asciiLower (text : List Char) : List Char :=
  text.map Char.toLower

/-- `char::to_ascii_lowercase`, on code points. -/
theorem toNat_toLower (c : Char) :
    c.toLower.toNat = if 65 ≤ c.toNat ∧ c.toNat ≤ 90 then c.toNat + 32 else c.toNat := by
  have hletter : (c.val ≥ 'A'.val ∧ c.val ≤ 'Z'.val) ↔ (65 ≤ c.toNat ∧ c.toNat ≤ 90) := by
    rw [ge_iff_le, UInt32.le_iff_toNat_le, UInt32.le_iff_toNat_le]
    exact Iff.rfl
  by_cases h : c.val ≥ 'A'.val ∧ c.val ≤ 'Z'.val
  · have hval : c.toLower.val = c.val + ('a'.val - 'A'.val) := congrArg Char.val (dif_pos h)
    have hrange := hletter.mp h
    rw [if_pos hrange, ← Char.toNat_val, hval, UInt32.toNat_add]
    simp
    omega
  · have hsame : c.toLower = c := dif_neg h
    rw [if_neg (mt hletter.mpr h), hsame]

/-- `char::to_ascii_uppercase`, on code points. -/
theorem toNat_toUpper (c : Char) :
    c.toUpper.toNat = if 97 ≤ c.toNat ∧ c.toNat ≤ 122 then c.toNat - 32 else c.toNat := by
  have hletter : ('a'.val ≤ c.val ∧ c.val ≤ 'z'.val) ↔ (97 ≤ c.toNat ∧ c.toNat ≤ 122) := by
    rw [UInt32.le_iff_toNat_le, UInt32.le_iff_toNat_le]
    exact Iff.rfl
  by_cases h : 'a'.val ≤ c.val ∧ c.val ≤ 'z'.val
  · have hval : c.toUpper.val = c.val + ('A'.val - 'a'.val) := by
      delta Char.toUpper
      rw [dif_pos h]
    have hrange := hletter.mp h
    rw [if_pos hrange, ← Char.toNat_val, hval, UInt32.toNat_add]
    simp
    omega
  · have hsame : c.toUpper = c := dif_neg h
    rw [if_neg (mt hletter.mpr h), hsame]

theorem isAlpha_iff (c : Char) : c.isAlpha = true ↔
    65 ≤ c.toNat ∧ c.toNat ≤ 90 ∨ 97 ≤ c.toNat ∧ c.toNat ≤ 122 := by
  change (decide (c.val ≥ 'A'.val ∧ c.val ≤ 'Z'.val) ||
    (decide (c.val ≥ 'a'.val) && decide (c.val ≤ 'z'.val))) = true ↔ _
  simp [UInt32.le_iff_toNat_le]

/-- Folding a character twice is folding it once. -/
theorem toLower_toLower (c : Char) : c.toLower.toLower = c.toLower := by
  rw [← Char.toNat_inj]
  simp only [toNat_toLower]
  split_ifs <;> omega

/-- A capital letter and its lower-case letter are folded alike. -/
theorem toLower_toUpper (c : Char) : c.toUpper.toLower = c.toLower := by
  rw [← Char.toNat_inj, toNat_toLower, toNat_toLower, toNat_toUpper]
  split_ifs <;> omega

/-- A folded letter is no capital letter. -/
theorem toLower_ne_toUpper {c d : Char} (hc : c.isAlpha = true) : c.toLower ≠ d.toUpper := by
  rw [isAlpha_iff] at hc
  rw [Ne, ← Char.toNat_inj, toNat_toLower, toNat_toUpper]
  split_ifs <;> omega

@[simp]
theorem asciiLower_asciiLower (text : List Char) :
    asciiLower (asciiLower text) = asciiLower text := by
  simp only [asciiLower, List.map_map, Function.comp_def, toLower_toLower]

/-- `str::eq_ignore_ascii_case`. -/
def eqIgnoreAsciiCase (s t : List Char) : Bool :=
  asciiLower s == asciiLower t

/-- A character that is no letter has one case. -/
theorem eq_of_toLower_eq {c d : Char} (h : c.toLower = d.toLower) (hd : d.isAlpha = false) :
    c = d := by
  rw [← Char.toNat_inj, toNat_toLower, toNat_toLower] at h
  rw [← Bool.not_eq_true, isAlpha_iff] at hd
  rw [← Char.toNat_inj]
  split_ifs at h <;> omega

/-- A text without letters is written in one way. -/
theorem eq_of_asciiLower_eq {s t : List Char} (h : asciiLower s = asciiLower t)
    (ht : ∀ c ∈ t, c.isAlpha = false) : s = t := by
  induction s generalizing t with
  | nil =>
      cases t with
      | nil => rfl
      | cons d t => cases h
  | cons c s ih =>
      cases t with
      | nil => cases h
      | cons d t =>
          obtain ⟨hhead, htail⟩ := List.cons.inj h
          rw [List.forall_mem_cons] at ht
          rw [eq_of_toLower_eq hhead ht.1, ih htail ht.2]

/-- `char::is_whitespace`: the Unicode property White_Space. -/
def isWhitespace (c : Char) : Bool :=
  (9 ≤ c.toNat && c.toNat ≤ 13) || (0x2000 ≤ c.toNat && c.toNat ≤ 0x200a) ||
    [0x20, 0x85, 0xa0, 0x1680, 0x2028, 0x2029, 0x202f, 0x205f, 0x3000].contains c.toNat

/-- `str::trim`. -/
def trim (text : List Char) : List Char :=
  ((text.dropWhile isWhitespace).reverse.dropWhile isWhitespace).reverse

/-- `str::split_whitespace`. -/
def splitWhitespace (text : List Char) : List (List Char) :=
  (text.splitOnP isWhitespace).filter fun word => word ≠ []

/-- `str::trim_end_matches` with one character. -/
def trimEndMatches (c : Char) (text : List Char) : List Char :=
  (text.reverse.dropWhile fun d => d == c).reverse

/-- `str::trim_matches` with one character. -/
def trimMatches (c : Char) (text : List Char) : List Char :=
  trimEndMatches c (text.dropWhile fun d => d == c)

/-- What is left of a text is followed by the suffix that was stripped. -/
theorem eq_append_of_stripSuffix {suffix text rest : List Char}
    (h : stripSuffix suffix text = some rest) : text = rest ++ suffix := by
  rw [stripSuffix] at h
  split at h
  · next hsuffix =>
      obtain ⟨pre, rfl⟩ := List.isSuffixOf_iff_suffix.mp hsuffix
      rw [← Option.some.inj h, List.length_append, Nat.add_sub_cancel, List.take_left]
  · cases h

/-- A suffix that is there is taken off. -/
theorem stripSuffix_append (text suffix : List Char) :
    stripSuffix suffix (text ++ suffix) = some text := by
  rw [stripSuffix, if_pos (List.isSuffixOf_iff_suffix.mpr (List.suffix_append _ _)),
    List.length_append, Nat.add_sub_cancel, List.take_left']
  rfl

/-- A text that does not end in the character is left as it is. -/
theorem trimEndMatches_append_singleton {c d : Char} (text : List Char) (h : d ≠ c) :
    trimEndMatches c (text ++ [d]) = text ++ [d] := by
  have hbeq : (d == c) = false := beq_false_of_ne h
  rw [trimEndMatches, List.reverse_append, List.reverse_singleton, List.singleton_append,
    List.dropWhile_cons, hbeq]
  simp

/-- What is before and after an occurrence, with the occurrence, is the text. -/
theorem eq_append_of_splitOnce {pat text a b : List Char} (h : splitOnce pat text = some (a, b)) :
    text = a ++ (pat ++ b) := by
  induction text generalizing a with
  | nil =>
      rw [splitOnce] at h
      split at h
      · next hpat =>
          obtain ⟨rfl, rfl⟩ := Prod.mk.inj (Option.some.inj h)
          rw [hpat]
          rfl
      · cases h
  | cons c cs ih =>
      rw [splitOnce] at h
      split at h
      · next hprefix =>
          obtain ⟨rest, hrest⟩ := List.isPrefixOf_iff_prefix.mp hprefix
          obtain ⟨rfl, rfl⟩ := Prod.mk.inj (Option.some.inj h)
          rw [← hrest, List.drop_left, List.nil_append]
      · obtain ⟨⟨a', b'⟩, hsplit, hcons⟩ := Option.map_eq_some_iff.mp h
        obtain ⟨rfl, rfl⟩ := Prod.mk.inj hcons
        rw [ih hsplit, List.cons_append]

/-- What follows an occurrence of a text is shorter. -/
theorem length_lt_of_splitOnce {pat text a b : List Char} (hpat : pat ≠ [])
    (h : splitOnce pat text = some (a, b)) : b.length < text.length := by
  have hpos : 0 < pat.length := List.length_pos_iff.mpr hpat
  rw [eq_append_of_splitOnce h, List.length_append, List.length_append]
  omega

/-! ### Text that a search passes over -/

/-- A search for the pattern passes over the text, whatever follows it. -/
def PassedOver (pat text : List Char) : Prop :=
  ∀ rest, splitOnce pat (text ++ rest) = (splitOnce pat rest).map fun r => (text ++ r.1, r.2)

theorem PassedOver.nil (pat : List Char) : PassedOver pat [] := fun rest => by simp

theorem PassedOver.append {pat a b : List Char} (ha : PassedOver pat a) (hb : PassedOver pat b) :
    PassedOver pat (a ++ b) := fun rest => by
  rw [List.append_assoc, ha, hb, Option.map_map]
  simp [Function.comp_def]

/-- One character more. -/
theorem PassedOver.cons {pat text : List Char} {c : Char}
    (hc : ∀ rest, ¬ pat <+: c :: (text ++ rest)) (h : PassedOver pat text) :
    PassedOver pat (c :: text) := fun rest => by
  rw [List.cons_append, splitOnce, if_neg (mt List.isPrefixOf_iff_prefix.mp (hc rest)), h,
    Option.map_map]
  rfl

/-- A text without the first character of the pattern is passed over. -/
theorem PassedOver.of_not_mem {c : Char} {text : List Char} (h : c ∉ text) (pat : List Char) :
    PassedOver (c :: pat) text := by
  induction text with
  | nil => exact .nil _
  | cons d text ih =>
      rw [List.mem_cons, not_or] at h
      refine (ih h.2).cons fun rest hprefix => h.1 ?_
      rw [List.cons_prefix_cons] at hprefix
      exact hprefix.1

/-- Where the last character of a pattern ends a text, the pattern does not reach further. -/
theorem prefix_of_prefix_append_cons {p text rest : List Char} {c : Char} (hc : c ∉ p)
    (h : p ++ [c] <+: text ++ c :: rest) : p ++ [c] <+: text ++ [c] := by
  induction p generalizing text with
  | nil =>
      cases text with
      | nil => exact List.prefix_refl _
      | cons d text =>
          obtain ⟨rfl, -⟩ := List.cons_prefix_cons.mp h
          exact List.cons_prefix_cons.mpr ⟨rfl, List.nil_prefix⟩
  | cons e p ih =>
      rw [List.mem_cons, not_or] at hc
      cases text with
      | nil => exact absurd (List.cons_prefix_cons.mp h).1.symm hc.1
      | cons d text =>
          obtain ⟨rfl, htail⟩ := List.cons_prefix_cons.mp h
          exact List.cons_prefix_cons.mpr ⟨rfl, ih hc.2 htail⟩

/-- A text that ends as the pattern does, and does not hold it, is passed over. -/
theorem PassedOver.of_not_occurs {p text : List Char} {c : Char} (hc : c ∉ p)
    (h : ¬ p ++ [c] <:+: text ++ [c]) : PassedOver (p ++ [c]) (text ++ [c]) := by
  induction text with
  | nil =>
      refine (PassedOver.nil _).cons fun rest hprefix => h ?_
      exact (prefix_of_prefix_append_cons hc hprefix : _ <+: [] ++ [c]).isInfix
  | cons d text ih =>
      rw [List.cons_append, List.infix_cons_iff, not_or] at h
      refine (ih h.2).cons fun rest hprefix => h.1 ?_
      have htext : d :: (text ++ [c] ++ rest) = d :: text ++ c :: rest := by simp
      exact prefix_of_prefix_append_cons hc (htext ▸ hprefix)

/-! ### Reading what was written -/

/-- A pattern is found where a text begins with it. -/
theorem splitOnce_self_append {pat : List Char} (hpat : pat ≠ []) (b : List Char) :
    splitOnce pat (pat ++ b) = some ([], b) := by
  obtain ⟨c, pat, rfl⟩ := List.exists_cons_of_ne_nil hpat
  have hprefix : (c :: pat).isPrefixOf (c :: pat ++ b) = true :=
    List.isPrefixOf_iff_prefix.mpr (List.prefix_append _ b)
  rw [List.cons_append, splitOnce, ← List.cons_append, if_pos hprefix, List.drop_left]

/-- The first occurrence of a pattern is found where its first character was not used before. -/
theorem splitOnce_append {c : Char} {a : List Char} (h : c ∉ a) (pat b : List Char) :
    splitOnce (c :: pat) (a ++ ((c :: pat) ++ b)) = some (a, b) := by
  rw [PassedOver.of_not_mem h pat, splitOnce_self_append (List.cons_ne_nil c pat), Option.map_some,
    List.append_nil]

/-- A pattern does not occur where its first character does not. -/
theorem splitOnce_eq_none {c : Char} {text : List Char} (h : c ∉ text) (pat : List Char) :
    splitOnce (c :: pat) text = none := by
  have hpassed := PassedOver.of_not_mem h pat []
  rw [List.append_nil] at hpassed
  exact hpassed

/-- A pattern that does not overlap itself is found where it was put, after a text without it. -/
theorem splitOnce_append_of_unbordered {pat a : List Char} (hpat : pat ≠ [])
    (hborder : ∀ k < pat.length, 0 < k → ¬ pat.drop k <+: pat) (ha : ¬ pat <:+: a) (b : List Char) :
    splitOnce pat (a ++ (pat ++ b)) = some (a, b) := by
  induction a with
  | nil => exact splitOnce_self_append hpat b
  | cons d a ih =>
      rw [List.infix_cons_iff, not_or] at ha
      have hprefix : ¬ pat <+: d :: a ++ (pat ++ b) := by
        intro h
        rcases Nat.le_total pat.length (d :: a).length with hle | hle
        · exact ha.1 (List.prefix_of_prefix_length_le h (List.prefix_append _ _) hle)
        · -- the rest of the occurrence would begin the pattern
          obtain ⟨rest, hrest⟩ := List.prefix_of_prefix_length_le (List.prefix_append _ _) h hle
          have hdrop : pat.drop (d :: a).length = rest := by rw [← hrest, List.drop_left]
          rw [← hrest, List.prefix_append_right_inj] at h
          by_cases hk : (d :: a).length < pat.length
          · refine hborder _ hk (by simp) ?_
            have hlen : rest.length ≤ pat.length := by rw [← hdrop, List.length_drop]; omega
            rw [hdrop]
            rw [hrest] at h
            exact List.prefix_of_prefix_length_le h (List.prefix_append _ _) hlen
          · have heq : pat = d :: a := by
              have hnil : rest = [] := by rw [← hdrop, List.drop_eq_nil_of_le (by omega)]
              rw [← hrest, hnil, List.append_nil]
            exact ha.1 (heq ▸ List.prefix_refl _)
      rw [List.cons_append, splitOnce, ← List.cons_append,
        if_neg (mt List.isPrefixOf_iff_prefix.mp hprefix), ih ha.2]
      rfl

/-- The part before a stop that was not used before. -/
theorem before_append {stops a : List Char} {c : Char} (ha : ∀ d ∈ a, d ∉ stops) (hc : c ∈ stops)
    (b : List Char) : before stops (a ++ c :: b) = a := by
  induction a with
  | nil =>
      rw [List.nil_append, before, List.takeWhile_cons, List.contains_iff_mem.mpr hc]
      rfl
  | cons d a ih =>
      rw [List.forall_mem_cons] at ha
      have hstop : stops.contains d = false := by
        rw [Bool.eq_false_iff, ne_eq, List.contains_iff_mem]
        exact ha.1
      rw [List.cons_append, before, List.takeWhile_cons, hstop]
      exact congrArg (d :: ·) (ih ha.2)

/-- A text that was split at a character does not hold it. -/
theorem not_mem_of_mem_splitOn {c : Char} {text part : List Char} (h : part ∈ text.splitOn c) :
    c ∉ part := by
  induction text generalizing part with
  | nil =>
      rw [List.splitOn_nil, List.mem_singleton] at h
      rw [h]
      exact List.not_mem_nil
  | cons d text ih =>
      rw [List.splitOn_cons_eq_if_modifyHead] at h
      by_cases hd : (d == c) = true
      · rw [if_pos hd] at h
        rcases List.mem_cons.mp h with rfl | h
        · exact List.not_mem_nil
        · exact ih h
      · rw [if_neg hd] at h
        cases hparts : text.splitOn c with
        | nil => exact absurd hparts (List.splitOn_ne_nil c text)
        | cons first rest =>
            rw [hparts] at h ih
            rcases List.mem_cons.mp h with rfl | h
            · have hfirst := ih List.mem_cons_self
              rw [List.mem_cons, not_or]
              exact ⟨fun heq => hd (beq_iff_eq.mpr heq.symm), hfirst⟩
            · exact ih (List.mem_cons_of_mem first h)

/-- A text without the character is what follows its last occurrence. -/
theorem afterLast_eq_self {c : Char} {text : List Char} (h : c ∉ text) :
    afterLast c text = text := by
  have hall : ∀ d ∈ text.reverse, (d != c) = true := fun d hd =>
    bne_iff_ne.mpr fun heq => h (heq ▸ List.mem_reverse.mp hd)
  rw [afterLast, List.takeWhile_eq_self_iff.mpr hall, List.reverse_reverse]

/-- The part before a stop passes over text without one. -/
theorem before_append_of_forall {stops a : List Char} (ha : ∀ c ∈ a, c ∉ stops) (b : List Char) :
    before stops (a ++ b) = a ++ before stops b := by
  refine List.takeWhile_append_of_pos fun c hc => ?_
  simpa using ha c hc

/-- Nothing is before a stop that begins the text. -/
theorem before_eq_nil {stops text : List Char} (h : ∀ c ∈ text.head?, c ∈ stops) :
    before stops text = [] := by
  cases text with
  | nil => rfl
  | cons c text =>
      have hstop : stops.contains c = true := List.contains_iff_mem.mpr (h c rfl)
      rw [before, List.takeWhile_cons, hstop]
      rfl

theorem not_mem_of_mem_before {stops text : List Char} {c : Char} (h : c ∈ before stops text) :
    c ∉ stops := by
  simpa using List.mem_takeWhile_imp h

/-- What is before a stop that follows is before the first one. -/
theorem mem_of_mem_before_append {stops a b : List Char} {c s : Char} (hs : s ∈ stops)
    (h : c ∈ before stops (a ++ s :: b)) : c ∈ a := by
  have hstop : before stops (s :: b) = [] := before_eq_nil fun d hd => by
    rwa [← Option.some.inj hd]
  rw [before, List.takeWhile_append] at h
  split at h
  · rw [← before, hstop, List.append_nil] at h
    exact h
  · exact (List.takeWhile_sublist _).subset h

/-- A text is the part before its first stop, and what begins with that stop. -/
theorem exists_eq_before_append (stops text : List Char) :
    ∃ rest, text = before stops text ++ rest ∧ ∀ c ∈ rest.head?, c ∈ stops := by
  induction text with
  | nil => exact ⟨[], rfl, fun c hc => nomatch hc⟩
  | cons c text ih =>
      by_cases hstop : c ∈ stops
      · have hnil : before stops (c :: text) = [] := before_eq_nil fun d hd => by
          rwa [← Option.some.inj hd]
        exact ⟨c :: text, by rw [hnil]; rfl, fun d hd => by rwa [← Option.some.inj hd]⟩
      · obtain ⟨rest, htext, hrest⟩ := ih
        have hcons : before stops (c :: text) = c :: before stops text :=
          before_append_of_forall (a := [c]) (by simpa using hstop) text
        exact ⟨rest, by rw [hcons, List.cons_append, ← htext], hrest⟩

/-- What follows the last occurrence of a character. -/
theorem afterLast_append_cons {c : Char} {b : List Char} (hb : c ∉ b) (a : List Char) :
    afterLast c (a ++ c :: b) = b := by
  have hall : ∀ d ∈ b.reverse, (d != c) = true := fun d hd =>
    bne_iff_ne.mpr fun heq => hb (heq ▸ List.mem_reverse.mp hd)
  have htext : (a ++ c :: b).reverse = b.reverse ++ (c :: a.reverse) := by simp
  rw [afterLast, htext, List.takeWhile_append_of_pos hall, List.takeWhile_cons]
  simp

/-- A text ends with what follows the last occurrence of a character, and before that stands
nothing or this occurrence. -/
theorem exists_eq_append_afterLast (c : Char) (text : List Char) :
    c ∉ afterLast c text ∧
      ∃ a, text = a ++ afterLast c text ∧ ∀ d ∈ a.getLast?, d = c := by
  by_cases hc : c ∈ text
  · obtain ⟨a, b, rfl, hb⟩ : ∃ a b, text = a ++ c :: b ∧ c ∉ b := by
      obtain ⟨a, b, hab, ha⟩ := List.eq_append_cons_of_mem (List.mem_reverse.mpr hc)
      refine ⟨b.reverse, a.reverse, ?_, fun h => ha (List.mem_reverse.mp h)⟩
      rw [← List.reverse_reverse text, hab]
      simp
    rw [afterLast_append_cons hb]
    exact ⟨hb, a ++ [c], by simp, by simp⟩
  · rw [afterLast_eq_self hc]
    exact ⟨hc, [], rfl, fun d hd => nomatch hd⟩

/-- The part before a character, where the text is split there. -/
theorem before_of_splitOnce {c : Char} {text a b : List Char}
    (h : splitOnce [c] text = some (a, b)) : before [c] text = a := by
  have hmem : c ∈ text := by
    rw [eq_append_of_splitOnce h]
    exact List.mem_append_right a List.mem_cons_self
  obtain ⟨a', b', rfl, ha⟩ := List.eq_append_cons_of_mem hmem
  have hsplit : splitOnce [c] (a' ++ c :: b') = some (a', b') := splitOnce_append ha [] b'
  obtain ⟨rfl, -⟩ := Prod.mk.inj (Option.some.inj (hsplit.symm.trans h))
  refine before_append (fun d hd hstop => ?_) List.mem_cons_self b'
  rw [List.mem_singleton.mp hstop] at hd
  exact ha hd

/-- The part before a character that does not occur. -/
theorem before_of_splitOnce_eq_none {c : Char} {text : List Char}
    (h : splitOnce [c] text = none) : before [c] text = text := by
  refine List.takeWhile_eq_self_iff.mpr fun d hd => ?_
  rw [Bool.not_eq_true', Bool.eq_false_iff, ne_eq, List.contains_iff_mem, List.mem_singleton]
  rintro rfl
  obtain ⟨a, b, rfl, ha⟩ := List.eq_append_cons_of_mem hd
  have hsplit : splitOnce [d] (a ++ d :: b) = some (a, b) := splitOnce_append ha [] b
  cases h.symm.trans hsplit

/-- A decimal digit is not white space. -/
theorem isWhitespace_of_isDigit {c : Char} (h : c.isDigit = true) : isWhitespace c = false := by
  rw [Char.isDigit, Bool.and_eq_true, decide_eq_true_eq, decide_eq_true_eq] at h
  have hlow : 48 ≤ c.toNat := UInt32.le_iff_toNat_le.mp h.1
  have hhigh : c.toNat ≤ 57 := UInt32.le_iff_toNat_le.mp h.2
  simp [isWhitespace]
  omega

theorem dropWhile_isWhitespace_eq_self {text : List Char}
    (h : ∀ c ∈ text, isWhitespace c = false) : text.dropWhile isWhitespace = text := by
  cases text with
  | nil => rfl
  | cons c text =>
      rw [List.dropWhile_cons, h c List.mem_cons_self]
      rfl

/-- A text without white space is its own trimming. -/
theorem trim_eq_self {text : List Char} (h : ∀ c ∈ text, isWhitespace c = false) :
    trim text = text := by
  rw [trim, dropWhile_isWhitespace_eq_self h, dropWhile_isWhitespace_eq_self fun c hc =>
    h c (List.mem_reverse.mp hc), List.reverse_reverse]

/-- White space around a text without any is trimmed. -/
theorem trim_append {lead text trail : List Char} (hlead : ∀ c ∈ lead, isWhitespace c = true)
    (hne : text ≠ []) (htext : ∀ c ∈ text, isWhitespace c = false)
    (htrail : ∀ c ∈ trail, isWhitespace c = true) : trim (lead ++ (text ++ trail)) = text := by
  have hhead : (text ++ trail).dropWhile isWhitespace = text ++ trail := by
    obtain ⟨c, rest, rfl⟩ := List.exists_cons_of_ne_nil hne
    rw [List.cons_append, List.dropWhile_cons, htext c List.mem_cons_self]
    rfl
  rw [trim, List.dropWhile_append_of_pos hlead, hhead, List.reverse_append,
    List.dropWhile_append_of_pos fun c hc => htrail c (List.mem_reverse.mp hc),
    dropWhile_isWhitespace_eq_self fun c hc => htext c (List.mem_reverse.mp hc),
    List.reverse_reverse]

/-- The decimal digits of a number. -/
theorem isDigit_toDigits {n : ℕ} {c : Char} (h : c ∈ Nat.toDigits 10 n) : c.isDigit = true :=
  Nat.isDigit_of_mem_toDigits (by decide) (by decide) h

/-- Decimal digits are parsed to their value. -/
theorem parseUnsigned_of_digits {digits : List Char} {bound : ℕ} (hne : digits ≠ [])
    (hdigits : ∀ c ∈ digits, c.isDigit = true) (h : decimalValue digits < bound) :
    parseUnsigned bound digits = some (decimalValue digits) := by
  have hsign : ∀ rest, digits = '+' :: rest → False := by
    rintro rest rfl
    have hplus : '+'.isDigit = true := hdigits '+' List.mem_cons_self
    cases hplus
  rw [parseUnsigned, if_pos ⟨hne, List.all_eq_true.mpr hdigits, h⟩]
  exact hsign

/-- **A number is parsed from its decimal digits.** -/
theorem parseUnsigned_toDigits {n bound : ℕ} (h : n < bound) :
    parseUnsigned bound (Nat.toDigits 10 n) = some n := by
  have hvalue : decimalValue (Nat.toDigits 10 n) = n := Nat.ofDigitChars_ten_toDigits
  have hparse : parseUnsigned bound (Nat.toDigits 10 n) = some (decimalValue (Nat.toDigits 10 n)) :=
    parseUnsigned_of_digits Nat.toDigits_ne_nil (fun c hc => isDigit_toDigits hc) (by rwa [hvalue])
  rwa [hvalue] at hparse

/-! ### Characters that are not white space -/

theorem mem_dropWhile_iff {p : Char → Bool} {c : Char} (hc : p c = false) (text : List Char) :
    c ∈ text.dropWhile p ↔ c ∈ text := by
  induction text with
  | nil => rfl
  | cons d text ih =>
      rw [List.dropWhile_cons]
      split
      · next hd =>
          have hne : c ≠ d := by
            rintro rfl
            rw [hc] at hd
            cases hd
          rw [ih, List.mem_cons]
          exact ⟨Or.inr, fun h => h.resolve_left hne⟩
      · rfl

/-- Trimming loses white space only. -/
theorem mem_trim_iff {c : Char} (hc : isWhitespace c = false) (text : List Char) :
    c ∈ trim text ↔ c ∈ text := by
  rw [trim, List.mem_reverse, mem_dropWhile_iff hc, List.mem_reverse, mem_dropWhile_iff hc]

theorem mem_flatten_splitOnP_iff {p : Char → Bool} {c : Char} (hc : p c = false)
    (text : List Char) : c ∈ (text.splitOnP p).flatten ↔ c ∈ text := by
  induction text with
  | nil => simp
  | cons d text ih =>
      rw [List.splitOnP_cons_eq_if_modifyHead]
      split
      · next hd =>
          have hne : c ≠ d := by
            rintro rfl
            rw [hc] at hd
            cases hd
          rw [List.flatten_cons, List.nil_append, ih, List.mem_cons]
          exact ⟨Or.inr, fun h => h.resolve_left hne⟩
      · cases hwords : text.splitOnP p with
        | nil => exact absurd hwords (List.splitOnP_ne_nil p text)
        | cons word words =>
            rw [hwords, List.flatten_cons, List.mem_append] at ih
            rw [List.modifyHead_cons, List.flatten_cons, List.cons_append, List.mem_cons,
              List.mem_append, ih, List.mem_cons]

/-- The words of a text lose white space only. -/
theorem mem_flatten_splitWhitespace_iff {c : Char} (hc : isWhitespace c = false)
    (text : List Char) : c ∈ (splitWhitespace text).flatten ↔ c ∈ text := by
  rw [← mem_flatten_splitOnP_iff hc text, splitWhitespace]
  constructor
  · intro h
    obtain ⟨word, hword, hmem⟩ := List.mem_flatten.mp h
    exact List.mem_flatten.mpr ⟨word, List.mem_of_mem_filter hword, hmem⟩
  · intro h
    obtain ⟨word, hword, hmem⟩ := List.mem_flatten.mp h
    have hne : word ≠ [] := List.ne_nil_of_mem hmem
    exact List.mem_flatten.mpr ⟨word, List.mem_filter.mpr ⟨hword, by simpa using hne⟩, hmem⟩

/-- Joining texts adds the characters of the separator only. -/
theorem mem_intercalate_iff {c : Char} {sep : List Char} (hc : c ∉ sep)
    (words : List (List Char)) : c ∈ sep.intercalate words ↔ c ∈ words.flatten := by
  induction words with
  | nil => rfl
  | cons word words ih =>
      cases words with
      | nil => simp
      | cons next words =>
          have hflat : (word :: next :: words).flatten = word ++ (next :: words).flatten := rfl
          rw [List.intercalate_cons_cons, List.append_assoc, List.mem_append, List.mem_append, ih,
            hflat, List.mem_append]
          exact or_congr_right ⟨fun h => h.resolve_left hc, Or.inr⟩

/-- A property of listed characters is checked one by one. -/
theorem forall_mem_of_all {p : Char → Prop} [DecidablePred p] {text : List Char}
    (h : (text.all fun c => p c) = true) : ∀ c ∈ text, p c :=
  fun c hc => of_decide_eq_true (List.all_eq_true.mp h c hc)

/-- What follows a text of some characters, up to the first other one, is unique. -/
theorem append_cons_inj {p : Char → Prop} {a a' b b' : List Char} {c c' : Char}
    (ha : ∀ d ∈ a, p d) (hc : ¬ p c) (ha' : ∀ d ∈ a', p d) (hc' : ¬ p c')
    (h : a ++ c :: b = a' ++ c' :: b') : a = a' ∧ c = c' ∧ b = b' := by
  induction a generalizing a' with
  | nil =>
      cases a' with
      | nil => exact ⟨rfl, List.cons.inj h⟩
      | cons d a' => exact absurd ((List.cons.inj h).1 ▸ ha' d (List.mem_cons_self ..)) hc
  | cons d a ih =>
      cases a' with
      | nil => exact absurd ((List.cons.inj h).1 ▸ ha d (List.mem_cons_self ..)) hc'
      | cons d' a' =>
          rw [List.forall_mem_cons] at ha ha'
          obtain ⟨rfl, htail⟩ := List.cons.inj h
          obtain ⟨rfl, hrest⟩ := ih ha.2 ha'.2 htail
          exact ⟨rfl, hrest⟩

/-! ### Bytes and characters -/

/-- The bytes of a text. -/
def utf8Len (text : List Char) : ℕ := (text.map Char.utf8Size).sum

@[simp] theorem utf8Len_append (a b : List Char) : utf8Len (a ++ b) = utf8Len a + utf8Len b := by
  rw [utf8Len, List.map_append, List.sum_append]
  rfl

/-- The bytes of a string are those of its characters. -/
theorem utf8ByteSize_eq_utf8Len (s : String) : s.utf8ByteSize = utf8Len s.toList := by
  have key : ∀ cs : List Char, (String.ofList cs).utf8ByteSize = utf8Len cs := by
    intro cs
    induction cs with
    | nil => rfl
    | cons c cs ih =>
        have hc : (String.ofList [c]).utf8ByteSize = c.utf8Size := by simp
        rw [← List.singleton_append, String.ofList_append, String.utf8ByteSize_append, hc, ih,
          utf8Len_append]
        rfl
  have h := key s.toList
  rwa [String.ofList_toList] at h

theorem length_le_utf8Len (text : List Char) : text.length ≤ utf8Len text := by
  rw [utf8Len, ← List.length_map Char.utf8Size]
  refine List.length_le_sum_of_one_le _ fun n hn => ?_
  obtain ⟨c, -, rfl⟩ := List.mem_map.mp hn
  exact Char.utf8Size_pos c

/-- A text has no more characters than bytes. -/
theorem length_le_utf8ByteSize (s : String) : s.length ≤ s.utf8ByteSize := by
  rw [utf8ByteSize_eq_utf8Len, ← String.length_toList]
  exact length_le_utf8Len _

/-- A character has at most four bytes. -/
theorem utf8ByteSize_le_mul_length (s : String) : s.utf8ByteSize ≤ 4 * s.length := by
  rw [utf8ByteSize_eq_utf8Len, utf8Len, ← String.length_toList, ← List.length_map Char.utf8Size,
    Nat.mul_comm]
  refine List.sum_le_card_nsmul _ 4 fun n hn => ?_
  obtain ⟨c, -, rfl⟩ := List.mem_map.mp hn
  exact Char.utf8Size_le_four c

/-- Where one measure bounds another on a list, the totals agree only if the measures do. -/
theorem sum_map_eq_sum_map_iff {α : Type*} {f g : α → ℕ} {xs : List α}
    (h : ∀ x ∈ xs, g x ≤ f x) :
    (xs.map f).sum = (xs.map g).sum ↔ ∀ x ∈ xs, f x = g x := by
  induction xs with
  | nil => simp
  | cons x xs ih =>
      have hx : g x ≤ f x := h x (List.mem_cons_self ..)
      have hxs : ∀ y ∈ xs, g y ≤ f y := fun y hy => h y (List.mem_cons_of_mem _ hy)
      have hsum : (xs.map g).sum ≤ (xs.map f).sum := List.sum_le_sum hxs
      rw [List.forall_mem_cons, ← ih hxs, List.map_cons, List.map_cons, List.sum_cons,
        List.sum_cons]
      omega

/-- Bytes and characters agree on the texts of ASCII characters only. -/
theorem utf8ByteSize_eq_length_iff {s : String} :
    s.utf8ByteSize = s.length ↔ ∀ c ∈ s.toList, c.toNat < 128 := by
  have hlength : s.length = (s.toList.map fun _ => 1).sum := by
    rw [List.map_const', List.sum_replicate_nat, Nat.mul_one, String.length_toList]
  rw [utf8ByteSize_eq_utf8Len, utf8Len, hlength,
    sum_map_eq_sum_map_iff fun c _ => Char.utf8Size_pos c]
  refine forall₂_congr fun c _ => ?_
  rw [Char.utf8Size_eq_one_iff, UInt32.le_iff_toNat_le]
  exact Nat.lt_succ_iff.symm

end Text
