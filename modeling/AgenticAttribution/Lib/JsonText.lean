import AgenticAttribution.Lib.PrefixCode
import AgenticAttribution.Lib.Digits
import AgenticAttribution.Lib.Utf8
import Mathlib.Tactic.IntervalCases

/-!
# Lib.JsonText — the string literals of two JSON encoders

`jsQuote` is the string literal of ECMAScript's `JSON.stringify`, `goQuote` that of Go's `encoding/json` with
HTML escaping switched off.  Both work on the runes of a string; Go's also meets bytes that are not UTF-8
(`none`) and writes them as `\ufffd`.  Both are prefix codes, so a literal can be cut out of a document again.
-/

namespace JsonText

/-- `\uXXXX`, with lower-case digits. -/
def escapeUnit (n : ℕ) : List Char :=
  ['\\', 'u', (n / 4096 % 16).digitChar, (n / 256 % 16).digitChar, (n / 16 % 16).digitChar, (n % 16).digitChar]

/-- The characters that have a two-character escape, with it. -/
def shortEscape (c : Char) : Option Char :=
  if c = '"' then some '"'
  else if c = '\\' then some '\\'
  else if c = '\x08' then some 'b'
  else if c = '\x0c' then some 'f'
  else if c = '\n' then some 'n'
  else if c = '\r' then some 'r'
  else if c = '\t' then some 't'
  else none

/-- One code point inside a `JSON.stringify` string literal. -/
def jsEscape (c : Char) : List Char :=
  match shortEscape c with
  | some e => ['\\', e]
  | none => if c.toNat < 0x20 then escapeUnit c.toNat else [c]

/-- LINE SEPARATOR and PARAGRAPH SEPARATOR, which Go escapes whatever its HTML setting. -/
def isLineSeparator (c : Char) : Bool := c = '\u2028' || c = '\u2029'

/-- One rune inside an `encoding/json` string literal; `none` is a byte that is not part of any rune. -/
def goEscape : Option Char → List Char
  | none => escapeUnit 0xFFFD
  | some c =>
    match shortEscape c with
    | some e => ['\\', e]
    | none => if c.toNat < 0x20 || isLineSeparator c then escapeUnit c.toNat else [c]

/-- A string literal of `JSON.stringify`. -/
def jsQuote (cs : List Char) : List Char := '"' :: cs.flatMap jsEscape ++ ['"']

/-- A string literal of `encoding/json`. -/
def goQuote (rs : List (Option Char)) : List Char := '"' :: rs.flatMap goEscape ++ ['"']

/-- A Go string as `encoding/json` writes it. -/
def goString (s : Bytes) : List Char := goQuote (Utf8.decode s)

/-! ## Reading a Go literal back -/

section Read

/-- The value of a lower-case hexadecimal digit. -/
def hexVal (c : Char) : ℕ := if c.isDigit then c.toNat - 48 else c.toNat - 87

theorem hexVal_digitChar {n : ℕ} (h : n < 16) : hexVal n.digitChar = n := by
  interval_cases n <;> rfl

/-- The character behind a two-character escape. -/
def shortUnescape (e : Char) : Char :=
  if e = 'b' then '\x08' else if e = 'f' then '\x0c' else if e = 'n' then '\n'
  else if e = 'r' then '\r' else if e = 't' then '\t' else e

/-- The four hexadecimal digits behind `\u`. -/
def readUnit : List Char → Option (Option Char × List Char)
  | a :: b :: c :: d :: x =>
    let n := hexVal a * 4096 + hexVal b * 256 + hexVal c * 16 + hexVal d
    some (if n = 0xFFFD then none else some (Char.ofNat n), x)
  | _ => none

/-- What stands behind a backslash. -/
def readEscape : List Char → Option (Option Char × List Char)
  | [] => none
  | e :: x => if e = 'u' then readUnit x else some (some (shortUnescape e), x)

/-- Takes one rune off the front of the body of a Go literal. -/
def readRune : List Char → Option (Option Char × List Char)
  | [] => none
  | c :: x => if c = '\\' then readEscape x else some (some c, x)

theorem readRune_escapeUnit {n : ℕ} (h : n < 65536) (x : List Char) :
    readRune (escapeUnit n ++ x) = some (if n = 0xFFFD then none else some (Char.ofNat n), x) := by
  have hn : n / 4096 % 16 * 4096 + n / 256 % 16 * 256 + n / 16 % 16 * 16 + n % 16 = n := by omega
  simp only [escapeUnit, List.cons_append, List.nil_append, readRune, readEscape, readUnit, if_true,
    hexVal_digitChar (Nat.mod_lt _ (by decide : 0 < 16)), hn]

theorem shortEscape_spec {c e : Char} (h : shortEscape c = some e) : e ≠ 'u' ∧ shortUnescape e = c := by
  unfold shortEscape at h
  split_ifs at h <;> cases h <;> subst c <;> exact ⟨by decide, by decide⟩

theorem shortEscape_backslash : shortEscape '\\' = some '\\' := rfl

theorem readRune_goEscape (r : Option Char) (x : List Char) : readRune (goEscape r ++ x) = some (r, x) := by
  cases r with
  | none => exact readRune_escapeUnit (by decide) x
  | some c =>
    cases hs : shortEscape c with
    | some e =>
      obtain ⟨hu, hc⟩ := shortEscape_spec hs
      simp only [goEscape, hs, List.cons_append, List.nil_append, readRune, readEscape, if_true, if_neg hu, hc]
    | none =>
      have hb : c ≠ '\\' := by rintro rfl; rw [shortEscape_backslash] at hs; cases hs
      simp only [goEscape, hs]
      split_ifs with h
      · have hlt : c.toNat < 65536 ∧ c.toNat ≠ 0xFFFD := by
          rcases Bool.or_eq_true_iff.mp h with h | h
          · have := of_decide_eq_true h
            omega
          · rcases Bool.or_eq_true_iff.mp h with h | h <;> rw [of_decide_eq_true h] <;> decide
        rw [readRune_escapeUnit hlt.1, if_neg hlt.2, Char.ofNat_toNat]
      · simp only [List.cons_append, List.nil_append, readRune, if_neg hb]

theorem isPrefixCode_goEscape : PrefixCode.IsPrefixCode goEscape :=
  PrefixCode.isPrefixCode_of_reader readRune readRune_goEscape

theorem avoids_goEscape : PrefixCode.Avoids goEscape '"' := by
  intro r
  cases r with
  | none => exact ⟨_, _, rfl, by decide⟩
  | some c =>
    cases hs : shortEscape c with
    | some e => exact ⟨'\\', [e], by simp only [goEscape, hs], by decide⟩
    | none =>
      have hc : c ≠ '"' := by rintro rfl; cases hs
      by_cases h : (decide (c.toNat < 0x20) || isLineSeparator c) = true
      · exact ⟨'\\', _, by simp only [goEscape, hs, if_pos h]; rfl, by decide⟩
      · exact ⟨c, [], by simp only [goEscape, hs, if_neg h], hc⟩

/-- **A Go string literal ends where it says it ends**: the runes and the rest of the document are determined. -/
theorem goQuote_append_inj {rs ss : List (Option Char)} {x y : List Char}
    (h : goQuote rs ++ x = goQuote ss ++ y) : rs = ss ∧ x = y := by
  simp only [goQuote, List.cons_append, List.append_assoc, List.nil_append, List.cons.injEq, true_and] at h
  exact PrefixCode.flatMap_closed isPrefixCode_goEscape avoids_goEscape h

end Read

/-! ## The two encoders on the same text -/

section Compare

theorem goEscape_of_not_separator {c : Char} (h : isLineSeparator c = false) :
    goEscape (some c) = jsEscape c := by
  simp only [goEscape, jsEscape, h, Bool.or_false, decide_eq_true_eq]

theorem goEscape_separator {c : Char} (h : isLineSeparator c = true) :
    (goEscape (some c)).length = 6 ∧ (jsEscape c).length = 1 := by
  rcases Bool.or_eq_true_iff.mp h with h | h <;> rw [of_decide_eq_true h] <;> exact ⟨rfl, rfl⟩

theorem jsEscape_length_le (c : Char) : (jsEscape c).length ≤ (goEscape (some c)).length := by
  cases h : isLineSeparator c with
  | false => rw [goEscape_of_not_separator h]
  | true =>
    obtain ⟨hg, hj⟩ := goEscape_separator h
    omega

theorem jsQuote_length_le (cs : List Char) : (jsQuote cs).length ≤ (goQuote (cs.map some)).length := by
  suffices h : (cs.flatMap jsEscape).length ≤ ((cs.map some).flatMap goEscape).length by
    simp only [jsQuote, goQuote, List.length_append, List.length_cons, List.length_nil]
    omega
  induction cs with
  | nil => exact le_rfl
  | cons c cs ih =>
    have hc := jsEscape_length_le c
    simp only [List.flatMap_cons, List.map_cons, List.length_append]
    omega

/-- Without a separator the two literals agree. -/
theorem goQuote_eq_jsQuote {cs : List Char} (h : ∀ c ∈ cs, isLineSeparator c = false) :
    goQuote (cs.map some) = jsQuote cs := by
  suffices hs : (cs.map some).flatMap goEscape = cs.flatMap jsEscape by
    rw [goQuote, hs, jsQuote]
  induction cs with
  | nil => rfl
  | cons c cs ih =>
    rw [List.map_cons, List.flatMap_cons, List.flatMap_cons, goEscape_of_not_separator (h c (by simp)),
      ih fun d hd => h d (by simp [hd])]

/-- A separator makes Go's literal longer. -/
theorem jsQuote_length_lt {cs : List Char} {c : Char} (hc : c ∈ cs) (h : isLineSeparator c = true) :
    (jsQuote cs).length < (goQuote (cs.map some)).length := by
  obtain ⟨l, r, rfl⟩ := List.append_of_mem hc
  have hl := jsQuote_length_le l
  have hr := jsQuote_length_le r
  obtain ⟨hg, hj⟩ := goEscape_separator h
  simp only [jsQuote, goQuote, List.map_append, List.map_cons, List.flatMap_append, List.flatMap_cons,
    List.length_append, List.length_cons, List.length_nil] at hl hr ⊢
  omega

end Compare

end JsonText
