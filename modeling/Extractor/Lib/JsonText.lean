import Mathlib.Data.List.Basic

/-!
# JSON texts and the scan for balanced braces

The texts of JSON values, and a scan that reads a text up to the brace that closes its first
object. The scan counts braces outside strings and knows of escapes, so it needs no parser: it
passes over every value inside an object and stops at the end of every object text.

## Main definitions

* `Derives`: the texts of values, of the elements of an array and of the members of an object.
* `ObjectText`: the text of an object.
* `balancedPrefix`: what the scan reads.

## Main results

* `passes_of_derives`: the scan passes over every value.
* `balancedPrefix_objectText`: it stops at the end of an object text and nowhere earlier.
-/

namespace JsonText

/-! ### The grammar -/

/-- White space of JSON. -/
def IsSpace (text : List Char) : Prop :=
  ∀ c ∈ text, c = ' ' ∨ c = '\t' ∨ c = '\n' ∨ c = '\r'

/-- Decimal digits. -/
def IsDigits (text : List Char) : Prop :=
  text ≠ [] ∧ ∀ c ∈ text, c.isDigit = true

/-- Hexadecimal digits. -/
def IsHex (c : Char) : Prop :=
  c.isDigit = true ∨ 'a' ≤ c ∧ c ≤ 'f' ∨ 'A' ≤ c ∧ c ≤ 'F'

/-- A number: a sign, an integer without leading zeros, a fraction and an exponent. -/
def IsNumber (text : List Char) : Prop :=
  ∃ sign int frac exp, text = sign ++ (int ++ (frac ++ exp)) ∧
    (sign = [] ∨ sign = ['-']) ∧
    (int = ['0'] ∨ IsDigits int ∧ int.head? ≠ some '0') ∧
    (frac = [] ∨ ∃ digits, IsDigits digits ∧ frac = '.' :: digits) ∧
    (exp = [] ∨ ∃ e expSign digits, (e = 'e' ∨ e = 'E') ∧
      (expSign = [] ∨ expSign = ['+'] ∨ expSign = ['-']) ∧ IsDigits digits ∧
        exp = e :: (expSign ++ digits))

/-- What stands between the quotes of a string. -/
inductive StringChars : List Char → Prop
  | nil : StringChars []
  | plain {c : Char} {cs : List Char} : c ≠ '"' → c ≠ '\\' → 0x20 ≤ c.toNat →
      StringChars cs → StringChars (c :: cs)
  | escape {c : Char} {cs : List Char} : c ∈ ['"', '\\', '/', 'b', 'f', 'n', 'r', 't'] →
      StringChars cs → StringChars ('\\' :: c :: cs)
  | unicode {a b c d : Char} {cs : List Char} : IsHex a → IsHex b → IsHex c → IsHex d →
      StringChars cs → StringChars ('\\' :: 'u' :: a :: b :: c :: d :: cs)

/-- A string. -/
def IsString (text : List Char) : Prop :=
  ∃ cs, StringChars cs ∧ text = '"' :: (cs ++ ['"'])

/-- What the grammar derives. -/
inductive Part
  | value
  | elements
  | members

/-- The texts of values, of the elements of an array and of the members of an object. -/
inductive Derives : Part → List Char → Prop
  | literal {text : List Char} : text ∈ ["null".toList, "true".toList, "false".toList] →
      Derives .value text
  | number {text : List Char} : IsNumber text → Derives .value text
  | string {text : List Char} : IsString text → Derives .value text
  | emptyArray {w : List Char} : IsSpace w → Derives .value ('[' :: (w ++ [']']))
  | array {es : List Char} : Derives .elements es → Derives .value ('[' :: (es ++ [']']))
  | emptyObject {w : List Char} : IsSpace w → Derives .value ('{' :: (w ++ ['}']))
  | object {ms : List Char} : Derives .members ms → Derives .value ('{' :: (ms ++ ['}']))
  | element {w v w' : List Char} : IsSpace w → Derives .value v → IsSpace w' →
      Derives .elements (w ++ (v ++ w'))
  | moreElements {e es : List Char} : Derives .elements e → Derives .elements es →
      Derives .elements (e ++ ',' :: es)
  | member {w k w' x v x' : List Char} : IsSpace w → IsString k → IsSpace w' → IsSpace x →
      Derives .value v → IsSpace x' →
      Derives .members (w ++ (k ++ (w' ++ ':' :: (x ++ (v ++ x')))))
  | moreMembers {m ms : List Char} : Derives .members m → Derives .members ms →
      Derives .members (m ++ ',' :: ms)

/-- **The text of an object.** -/
def ObjectText (text : List Char) : Prop :=
  (∃ w, IsSpace w ∧ text = '{' :: (w ++ ['}'])) ∨
    ∃ ms, Derives .members ms ∧ text = '{' :: (ms ++ ['}'])

/-! ### The scan -/

/-- What the scan remembers: the open braces, and whether it is in a string or after a
backslash. -/
structure Scan where
  depth : ℕ
  inString : Bool
  escaped : Bool

/-- Outside a string, at a depth. -/
def Scan.outside (depth : ℕ) : Scan := ⟨depth, false, false⟩

/-- Inside a string, at a depth. -/
def Scan.inside (depth : ℕ) : Scan := ⟨depth, true, false⟩

/-- A brace that closes. -/
def Scan.closes (scan : Scan) (c : Char) : Bool :=
  !scan.inString && c == '}'

/-- The scan after a character. -/
def Scan.next (scan : Scan) (c : Char) : Scan :=
  if scan.inString then
    if scan.escaped then { scan with escaped := false }
    else if c = '\\' then { scan with escaped := true }
    else if c = '"' then { scan with inString := false }
    else scan
  else if c = '"' then { scan with inString := true }
  else if c = '{' then { scan with depth := scan.depth + 1 }
  else if c = '}' then { scan with depth := scan.depth - 1 }
  else scan

/-- The text up to the brace that closes the first object; none where a brace closes nothing or
the text ends before. -/
def balancedPrefix : List Char → Scan → Option (List Char)
  | [], _ => none
  | c :: rest, scan =>
      if scan.closes c && scan.depth == 0 then none
      else if scan.closes c && scan.depth == 1 then some [c]
      else (balancedPrefix rest (scan.next c)).map (c :: ·)

/-- **The scan passes over a text**: it goes on behind it, in the state after it. -/
def Passes (text : List Char) (scan scan' : Scan) : Prop :=
  ∀ rest, balancedPrefix (text ++ rest) scan = (balancedPrefix rest scan').map (text ++ ·)

theorem passes_nil (scan : Scan) : Passes [] scan scan := by
  intro rest
  cases h : balancedPrefix rest scan <;> simp [h]

theorem Passes.append {a b : List Char} {scan scan' scan'' : Scan} (ha : Passes a scan scan')
    (hb : Passes b scan' scan'') : Passes (a ++ b) scan scan'' := by
  intro rest
  rw [List.append_assoc, ha, hb, Option.map_map]
  exact congrFun (congrArg Option.map (funext fun text => (List.append_assoc a b text).symm)) _

theorem Passes.cons {c : Char} {text : List Char} {scan scan' scan'' : Scan}
    (hc : Passes [c] scan scan') (h : Passes text scan' scan'') :
    Passes (c :: text) scan scan'' :=
  hc.append h

/-- A character that closes nothing is passed. -/
theorem passes_char {c : Char} {scan : Scan} (h : scan.closes c = false) :
    Passes [c] scan (scan.next c) := by
  intro rest
  rw [List.singleton_append, balancedPrefix, h]
  rfl

/-- A closing brace is passed inside another object. -/
theorem passes_close {depth : ℕ} (h : 0 < depth) :
    Passes ['}'] (.outside (depth + 1)) (.outside depth) := by
  intro rest
  have hzero : ¬ ((Scan.outside (depth + 1)).closes '}' &&
      (Scan.outside (depth + 1)).depth == 0) = true := by simp [Scan.outside]
  have hone : ¬ ((Scan.outside (depth + 1)).closes '}' &&
      (Scan.outside (depth + 1)).depth == 1) = true := by simp [Scan.outside]; omega
  rw [List.singleton_append, balancedPrefix, if_neg hzero, if_neg hone]
  rfl

/-- The brace that closes the first object ends the scan. -/
theorem balancedPrefix_close (rest : List Char) :
    balancedPrefix ('}' :: rest) (.outside 1) = some ['}'] := by
  rw [balancedPrefix]
  rfl

/-! ### What the scan passes over -/

/-- A character that means nothing to the scan. -/
def IsPlain (c : Char) : Prop := c ≠ '"' ∧ c ≠ '{' ∧ c ≠ '}'

instance (c : Char) : Decidable (IsPlain c) :=
  inferInstanceAs (Decidable (c ≠ '"' ∧ c ≠ '{' ∧ c ≠ '}'))

theorem passes_plain_char {c : Char} (h : IsPlain c) (depth : ℕ) :
    Passes [c] (.outside depth) (.outside depth) := by
  have hnext : (Scan.outside depth).next c = .outside depth := by
    simp [Scan.next, Scan.outside, h.1, h.2.1, h.2.2]
  have hpass : Passes [c] (.outside depth) ((Scan.outside depth).next c) :=
    passes_char (by simp [Scan.closes, h.2.2])
  rwa [hnext] at hpass

theorem passes_plain {text : List Char} (h : ∀ c ∈ text, IsPlain c) (depth : ℕ) :
    Passes text (.outside depth) (.outside depth) := by
  induction text with
  | nil => exact passes_nil _
  | cons c text ih =>
      obtain ⟨hc, htext⟩ := List.forall_mem_cons.mp h
      exact (passes_plain_char hc depth).cons (ih htext)

theorem IsSpace.plain {w : List Char} (h : IsSpace w) : ∀ c ∈ w, IsPlain c := by
  intro c hc
  rcases h c hc with rfl | rfl | rfl | rfl <;> decide

theorem isPlain_of_isDigit {c : Char} (h : c.isDigit = true) : IsPlain c := by
  refine ⟨?_, ?_, ?_⟩ <;> rintro rfl <;> exact absurd h (by decide)

theorem IsDigits.plain {text : List Char} (h : IsDigits text) : ∀ c ∈ text, IsPlain c :=
  fun c hc => isPlain_of_isDigit (h.2 c hc)

/-- A number has no quote and no brace. -/
theorem IsNumber.plain {text : List Char} (h : IsNumber text) : ∀ c ∈ text, IsPlain c := by
  obtain ⟨sign, int, frac, exp, rfl, hsign, hint, hfrac, hexp⟩ := h
  have hs : ∀ c ∈ sign, IsPlain c := by
    rcases hsign with rfl | rfl
    · exact List.forall_mem_nil _
    · exact List.forall_mem_singleton.mpr (by decide)
  have hi : ∀ c ∈ int, IsPlain c := by
    rcases hint with rfl | ⟨hdigits, -⟩
    · exact List.forall_mem_singleton.mpr (by decide)
    · exact hdigits.plain
  have hf : ∀ c ∈ frac, IsPlain c := by
    rcases hfrac with rfl | ⟨digits, hdigits, rfl⟩
    · exact List.forall_mem_nil _
    · exact List.forall_mem_cons.mpr ⟨by decide, hdigits.plain⟩
  have he : ∀ c ∈ exp, IsPlain c := by
    rcases hexp with rfl | ⟨e, expSign, digits, he, hexpSign, hdigits, rfl⟩
    · exact List.forall_mem_nil _
    · refine List.forall_mem_cons.mpr ⟨?_, List.forall_mem_append.mpr ⟨?_, hdigits.plain⟩⟩
      · rcases he with rfl | rfl <;> decide
      · rcases hexpSign with rfl | rfl | rfl
        · exact List.forall_mem_nil _
        · exact List.forall_mem_singleton.mpr (by decide)
        · exact List.forall_mem_singleton.mpr (by decide)
  simp only [List.forall_mem_append]
  exact ⟨hs, hi, hf, he⟩

/-- A character inside a string that is neither a quote nor a backslash. -/
theorem passes_inside_char {c : Char} (hquote : c ≠ '"') (hback : c ≠ '\\') (depth : ℕ) :
    Passes [c] (.inside depth) (.inside depth) := by
  have hnext : (Scan.inside depth).next c = .inside depth := by
    simp [Scan.next, Scan.inside, hquote, hback]
  have hpass : Passes [c] (.inside depth) ((Scan.inside depth).next c) := passes_char rfl
  rwa [hnext] at hpass

/-- A backslash takes the character after it along. -/
theorem passes_escape (c : Char) (depth : ℕ) :
    Passes ['\\', c] (.inside depth) (.inside depth) := by
  have hback : Passes ['\\'] (.inside depth) ⟨depth, true, true⟩ := passes_char rfl
  have hnext : Passes [c] ⟨depth, true, true⟩ (.inside depth) := passes_char rfl
  exact hback.cons hnext

theorem IsHex.ne {c : Char} (h : IsHex c) : c ≠ '"' ∧ c ≠ '\\' := by
  constructor <;> rintro rfl <;> revert h <;> unfold IsHex <;> decide

theorem passes_stringChars {cs : List Char} (h : StringChars cs) (depth : ℕ) :
    Passes cs (.inside depth) (.inside depth) := by
  induction h with
  | nil => exact passes_nil _
  | plain hquote hback _ _ ih => exact (passes_inside_char hquote hback depth).cons ih
  | escape _ _ ih => exact (passes_escape _ depth).append ih
  | unicode ha hb hc hd _ ih =>
      have hhex : ∀ {c : Char}, IsHex c → Passes [c] (.inside depth) (.inside depth) :=
        fun hex => passes_inside_char hex.ne.1 hex.ne.2 depth
      exact (passes_escape 'u' depth).append
        ((hhex ha).cons ((hhex hb).cons ((hhex hc).cons ((hhex hd).cons ih))))

theorem passes_string {text : List Char} (h : IsString text) (depth : ℕ) :
    Passes text (.outside depth) (.outside depth) := by
  obtain ⟨cs, hcs, rfl⟩ := h
  have hopen : Passes ['"'] (.outside depth) (.inside depth) := passes_char rfl
  have hclose : Passes ['"'] (.inside depth) (.outside depth) := passes_char rfl
  exact hopen.cons ((passes_stringChars hcs depth).append hclose)

/-- What is passed inside an object may stand in an object inside another. -/
theorem passes_braces {text : List Char} {depth : ℕ} (hdepth : 0 < depth)
    (h : Passes text (.outside (depth + 1)) (.outside (depth + 1))) :
    Passes ('{' :: (text ++ ['}'])) (.outside depth) (.outside depth) := by
  have hopen : Passes ['{'] (.outside depth) (.outside (depth + 1)) := passes_char rfl
  exact hopen.cons (h.append (passes_close hdepth))

theorem passes_brackets {text : List Char} {depth : ℕ}
    (h : Passes text (.outside depth) (.outside depth)) :
    Passes ('[' :: (text ++ [']'])) (.outside depth) (.outside depth) :=
  (passes_plain_char (by decide) depth).cons (h.append (passes_plain_char (by decide) depth))

/-- **The scan passes over every value** inside an object, whatever is in it. -/
theorem passes_of_derives {part : Part} {text : List Char} (h : Derives part text) :
    ∀ {depth : ℕ}, 0 < depth → Passes text (.outside depth) (.outside depth) := by
  induction h with
  | literal hmem =>
      intro depth _
      have hliteral : ∀ text ∈ ["null".toList, "true".toList, "false".toList],
          (text.all fun c => IsPlain c) = true := by decide
      exact passes_plain (fun c hc =>
        of_decide_eq_true (List.all_eq_true.mp (hliteral _ hmem) c hc)) depth
  | number hnumber => exact fun _ => passes_plain hnumber.plain _
  | string hstring => exact fun _ => passes_string hstring _
  | emptyArray hw => exact fun _ => passes_brackets (passes_plain hw.plain _)
  | array _ ih => exact fun hdepth => passes_brackets (ih hdepth)
  | emptyObject hw => exact fun hdepth => passes_braces hdepth (passes_plain hw.plain _)
  | object _ ih => exact fun hdepth => passes_braces hdepth (ih (Nat.succ_pos _))
  | element hw _ hw' ih =>
      exact fun hdepth =>
        (passes_plain hw.plain _).append ((ih hdepth).append (passes_plain hw'.plain _))
  | moreElements _ _ ih ih' =>
      exact fun hdepth =>
        (ih hdepth).append ((passes_plain_char (by decide) _).cons (ih' hdepth))
  | member hw hk hw' hx _ hx' ih =>
      exact fun hdepth => (passes_plain hw.plain _).append ((passes_string hk _).append
        ((passes_plain hw'.plain _).append ((passes_plain_char (by decide) _).cons
          ((passes_plain hx.plain _).append ((ih hdepth).append (passes_plain hx'.plain _))))))
  | moreMembers _ _ ih ih' =>
      exact fun hdepth =>
        (ih hdepth).append ((passes_plain_char (by decide) _).cons (ih' hdepth))

/-- **The scan stops at the end of an object text**, whatever follows it. -/
theorem balancedPrefix_objectText {text : List Char} (h : ObjectText text) (rest : List Char) :
    balancedPrefix (text ++ rest) (.outside 0) = some text := by
  have hinner : ∃ inner, Passes inner (.outside 1) (.outside 1) ∧ text = '{' :: (inner ++ ['}']) := by
    rcases h with ⟨w, hw, rfl⟩ | ⟨ms, hms, rfl⟩
    · exact ⟨w, passes_plain hw.plain 1, rfl⟩
    · exact ⟨ms, passes_of_derives hms Nat.one_pos, rfl⟩
  obtain ⟨inner, hpasses, rfl⟩ := hinner
  have hopen : Passes ['{'] (.outside 0) (.outside 1) := passes_char rfl
  have htext : ('{' :: (inner ++ ['}'])) ++ rest = ('{' :: inner) ++ ('}' :: rest) := by simp
  rw [htext, (hopen.cons hpasses) ('}' :: rest), balancedPrefix_close]
  rfl

end JsonText
