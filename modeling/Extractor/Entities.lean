import Extractor.TrackContent

/-!
# Escaping and decoding

`decode_entities` of `crates/youtube/src/timedtext.rs` read back what was written with references.
A text can be escaped in many ways: each place chooses between the named reference, the decimal and
the hexadecimal one, with or without leading zeros, and a character that is no markup may stand for
itself. Decoding is one pass, so that a text which looks like a reference after decoding stays.

## Main definitions

* `Escape`: a text and one of the ways in which it can be escaped.
* `entityLoop`: the loop of the decoder with its two variables.

## Main results

* `entityLoop_eq`: the loop ends after at most one turn for each ampersand, with `decodeEntities`.
* `Escape.decodeEntities_eq`: whatever the choices, decoding gives the text back.
-/

namespace Extractor

/-! ### Escaping -/

/-- The references that a character can be written as: its name, where it has one, or its number
in at most seven digits. -/
inductive EscapeToken (c : Char) : List Char → Prop
  | named (markup : c ∈ markupChars) : EscapeToken c (namedToken c)
  | decimal {digits : List Char} (ne : digits ≠ []) (short : digits.length ≤ 7)
      (all : ∀ d ∈ digits, d.isDigit = true) (value : Text.decimalValue digits = c.toNat) :
      EscapeToken c ('#' :: digits)
  | hexadecimal {x : Char} {digits : List Char} (hx : x = 'x' ∨ x = 'X') (ne : digits ≠ [])
      (short : digits.length ≤ 7) (all : ∀ d ∈ digits, Xml.isHex d = true)
      (value : digits.foldl (fun n d => 16 * n + Xml.hexValue d) 0 = c.toNat) :
      EscapeToken c ('#' :: x :: digits)

/-- The ways in which a character can be written: markup only as a reference. -/
inductive EscapeChar (c : Char) : List Char → Prop
  | plain (other : c ∉ markupChars) : EscapeChar c [c]
  | reference {token : List Char} (h : EscapeToken c token) : EscapeChar c ('&' :: (token ++ [';']))

/-- The ways in which a text can be escaped, with a choice at each place. -/
inductive Escape : List Char → List Char → Prop
  | nil : Escape [] []
  | cons {c : Char} {written s escaped : List Char} (char : EscapeChar c written)
      (tail : Escape s escaped) : Escape (c :: s) (written ++ escaped)

/-- The decoder knows every reference that escaping writes. -/
theorem EscapeToken.entityChar_eq {c : Char} {token : List Char} (h : EscapeToken c token) :
    entityChar token = some c := by
  cases h with
  | named markup => exact Escaping.named.names c markup
  | decimal ne _ all value => exact entityChar_of_denotes (.decimal ne all value)
  | hexadecimal hx ne _ all value =>
      have hlower := entityChar_of_denotes (.hexadecimal ne all value)
      -- both spellings are parsed by the same code
      rcases hx with rfl | rfl
      · exact hlower
      · exact hlower

/-- It sees the semicolon of each. -/
theorem EscapeToken.length_le {c : Char} {token : List Char} (h : EscapeToken c token) :
    token.length ≤ 9 := by
  cases h with
  | named markup => exact Escaping.named.short c markup
  | decimal _ short => simp; omega
  | hexadecimal _ _ short => simp; omega

theorem EscapeToken.reference_eq {c : Char} {token : List Char} (h : EscapeToken c token)
    (rest : List Char) : reference (token ++ ';' :: rest) = some (c, rest) :=
  reference_eq_some_iff.mpr ⟨token, rfl, h.length_le, h.entityChar_eq⟩

/-- A character is decoded as it was written, whatever follows it. -/
theorem EscapeChar.decodeEntities_append {c : Char} {written : List Char}
    (h : EscapeChar c written) (rest : List Char) :
    decodeEntities (written ++ rest) = c :: decodeEntities rest := by
  cases h with
  | plain other =>
      refine decodeEntities_cons_of_ne ?_
      rintro rfl
      exact other (by decide)
  | @reference token h =>
      have htext : '&' :: (token ++ [';']) ++ rest = '&' :: (token ++ ';' :: rest) := by simp
      rw [htext, decodeEntities_of_reference (h.reference_eq rest)]

/-- **Decoding undoes escaping**, whatever the choices. -/
theorem Escape.decodeEntities_eq {s escaped : List Char} (h : Escape s escaped) :
    decodeEntities escaped = s := by
  induction h with
  | nil => exact decodeEntities.eq_1
  | cons char tail ih => rw [char.decodeEntities_append, ih]

/-! ### The loop -/

/-- The loop of `decode_entities` with its variables `output` and `rest`: what is before the next
ampersand is kept, and the search goes on after the reference or after the ampersand. -/
def entityLoop : ℕ → List Char → List Char → Option (List Char)
  | 0, _, _ => none
  | fuel + 1, output, rest =>
      match Text.splitOnce ['&'] rest with
      | none => some (output ++ rest)
      | some (skipped, after) =>
          match reference after with
          | some (character, rest) => entityLoop fuel (output ++ skipped ++ [character]) rest
          | none => entityLoop fuel (output ++ skipped ++ ['&']) after

/-- **The loop ends.** Each turn passes an ampersand, so one turn more than there are ampersands is
enough. -/
theorem entityLoop_eq {fuel : ℕ} {rest : List Char} (h : rest.count '&' < fuel)
    (output : List Char) :
    entityLoop fuel output rest = some (output ++ decodeEntities rest) := by
  induction fuel generalizing output rest with
  | zero => omega
  | succ fuel ih =>
      by_cases hmem : '&' ∈ rest
      · obtain ⟨skipped, after, rfl, hskipped⟩ := List.eq_append_cons_of_mem hmem
        have hsplit : Text.splitOnce ['&'] (skipped ++ '&' :: after) = some (skipped, after) :=
          Text.splitOnce_append hskipped [] after
        have hcount : after.count '&' < fuel := by
          rw [List.count_append, List.count_cons_self] at h
          omega
        rw [entityLoop, hsplit, decodeEntities_append_of_not_mem hskipped]
        cases href : reference after with
        | none =>
            have hrest := ih hcount (output ++ skipped ++ ['&'])
            rw [decodeEntities_of_no_reference href]
            simpa [href] using hrest
        | some found =>
            obtain ⟨character, rest⟩ := found
            obtain ⟨token, rfl, -⟩ := reference_eq_some_iff.mp href
            have hfewer : rest.count '&' < fuel := by
              rw [List.count_append, List.count_cons] at hcount
              omega
            have hrest := ih hfewer (output ++ skipped ++ [character])
            rw [decodeEntities_of_reference href]
            simpa [href] using hrest
      · rw [entityLoop, Text.splitOnce_eq_none hmem, decodeEntities_of_not_mem hmem]

/-! ### One pass -/

/-- An ampersand that begins no reference is kept, and the text is decoded on both sides of it. -/
theorem decodeEntities_append_amp {before after : List Char} (h : reference after = none) :
    decodeEntities (before ++ '&' :: after) =
      decodeEntities before ++ '&' :: decodeEntities after := by
  rw [decodeEntities_append (by decide) (by decide), decodeEntities_of_no_reference h]

/-- A reference is replaced once: decoding goes on behind it. -/
theorem decodeEntities_append_reference {before token rest : List Char} {c : Char}
    (hc : entityChar token = some c) (hlength : token.length ≤ 9) :
    decodeEntities (before ++ '&' :: (token ++ ';' :: rest)) =
      decodeEntities before ++ c :: decodeEntities rest := by
  have href : reference (token ++ ';' :: rest) = some (c, rest) :=
    reference_eq_some_iff.mpr ⟨token, rfl, hlength, hc⟩
  rw [decodeEntities_append (by decide) (by decide), decodeEntities_of_reference href]

/-- **Entity decoding inverts escaping**: every escaped text is decoded to the text that it was
written from, an ampersand is a reference exactly where a known one ends within ten bytes, the
others are kept, a replacement is not decoded again, and the loop ends on every input. -/
theorem entity_decoding_inverts_escaping :
    (∀ s escaped, Escape s escaped → decodeEntities escaped = s) ∧
    (∀ before after, (¬ ∃ token rest c, after = token ++ ';' :: rest ∧ token.length ≤ 9 ∧
        entityChar token = some c) →
      decodeEntities (before ++ '&' :: after) =
        decodeEntities before ++ '&' :: decodeEntities after) ∧
    (∀ before token rest c, token.length ≤ 9 → entityChar token = some c →
      decodeEntities (before ++ '&' :: (token ++ ';' :: rest)) =
        decodeEntities before ++ c :: decodeEntities rest) ∧
    ∀ input, entityLoop (input.count '&' + 1) [] input = some (decodeEntities input) := by
  refine ⟨fun s escaped h => h.decodeEntities_eq, fun before after h => ?_,
    fun before token rest c hlength hc => decodeEntities_append_reference hc hlength,
    fun input => entityLoop_eq (Nat.lt_succ_self _) []⟩
  refine decodeEntities_append_amp (Option.eq_none_iff_forall_ne_some.mpr ?_)
  rintro ⟨c, rest⟩ href
  obtain ⟨token, heq, hlength, hc⟩ := reference_eq_some_iff.mp href
  exact h ⟨token, rest, c, heq, hlength, hc⟩

/-- A text that looks like a reference after decoding is not decoded again. -/
example : entityLoop 5 [] "&amp;lt; & &#0038;&#X3c;".toList = some "&lt; & &<".toList := by
  decide +kernel

end Extractor
