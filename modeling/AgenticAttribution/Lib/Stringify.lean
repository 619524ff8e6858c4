import AgenticAttribution.Lib.GoQuote
import AgenticAttribution.Lib.JsonPrefix

/-!
# Lib.Stringify — what `JSON.stringify` writes is read back

The literals of `JSON.stringify` are JSON whatever is in them, so its text of a value whose numbers are finite is
one that the reader knows (`parse_stringify`).
-/

namespace Json

open JsonText GoQuote

theorem reads_jsEscape (c : Char) : Reads jsEscape c := by
  cases hs : shortEscape c with
  | some e =>
    have hshort : jsEscape c = ['\\', e] := by simp only [jsEscape, hs]
    have hread : e ≠ 'u' ∧ unescape e = some c := by
      unfold shortEscape at hs
      split_ifs at hs <;> cases hs <;> subst c <;> exact ⟨by decide, rfl⟩
    exact reads_short hshort hread.1 hread.2
  | none =>
    have hne : c ≠ '"' ∧ c ≠ '\\' := by
      constructor <;> rintro rfl <;> cases hs
    by_cases hunit : c.toNat < 0x20
    · exact reads_unit (by simp only [jsEscape, hs, if_pos hunit]) (by omega)
    · exact reads_self (by simp only [jsEscape, hs, if_neg hunit]) hne.1 hne.2 (by omega)

theorem readsBack_jsQuote (cs : List Char) : ReadsBack jsQuote cs := readsBack_literal fun c _ => reads_jsEscape c

/-- A numeral is written as it is. -/
theorem stringifyNum_of_isNumber {text : List Char} (h : IsNumber text) : stringifyNum text = text := by
  obtain ⟨c, r, rfl, hc⟩ := h.head
  refine if_neg ?_
  rintro (heq | heq | heq)
  · obtain ⟨rfl, -⟩ := List.cons.inj heq
    rcases hc with hc | hc <;> exact absurd hc (by decide)
  · rw [heq] at h
    exact absurd h (by decide)
  · obtain ⟨rfl, -⟩ := List.cons.inj heq
    rcases hc with hc | hc <;> exact absurd hc (by decide)

mutual

/-- `JSON.stringify` writes compactly. -/
theorem stringify_eq_write : ∀ v : Json, Legible jsQuote v → stringify v = write jsQuote v
  | null, _ => rfl
  | bool _, _ => rfl
  | num text, h => stringifyNum_of_isNumber h
  | str _, _ => rfl
  | arr elems, h => by rw [stringify, write, stringifyAll_eq_writeAll elems h]
  | obj members, h => by rw [stringify, write, stringifyMembers_eq_writeMembers members h]

theorem stringifyAll_eq_writeAll : ∀ vs : List Json, LegibleAll jsQuote vs → stringifyAll vs = writeAll jsQuote vs
  | [], _ => rfl
  | v :: vs, h => by rw [stringifyAll, writeAll, stringify_eq_write v h.1, stringifyAll_eq_writeAll vs h.2]

theorem stringifyMembers_eq_writeMembers : ∀ ms : List (List Char × Json), LegibleMembers jsQuote ms →
    stringifyMembers ms = writeMembers jsQuote ms
  | [], _ => rfl
  | (key, v) :: ms, h => by
    rw [stringifyMembers, writeMembers, stringify_eq_write v h.2.1, stringifyMembers_eq_writeMembers ms h.2.2]
    rfl

end

/-- An object of texts and truth values. -/
theorem legible_flat {ms : List (List Char × Json)} (h : ∀ m ∈ ms, (∃ cs, m.2 = str cs) ∨ ∃ b, m.2 = bool b) :
    Legible jsQuote (obj ms) := by
  induction ms with
  | nil => trivial
  | cons m ms ih =>
    obtain ⟨key, v⟩ := m
    refine ⟨readsBack_jsQuote key, ?_, ih fun m hm => h m (List.mem_cons_of_mem _ hm)⟩
    rcases h (key, v) List.mem_cons_self with ⟨cs, hv⟩ | ⟨b, hv⟩
    · obtain rfl : v = str cs := hv
      exact readsBack_jsQuote cs
    · obtain rfl : v = bool b := hv
      trivial

/-- **The round trip through `JSON.stringify`.** -/
theorem parse_stringify {v : Json} (h : Legible jsQuote v) : parse (stringify v) = some v := by
  rw [stringify_eq_write v h, parse_write h]

end Json
