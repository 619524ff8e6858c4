import AgenticAttribution.Lib.Digits
import Mathlib.Algebra.Order.Ring.Int
import Mathlib.Data.List.TakeWhile

/-!
# Dashboard.Money — amounts as a page shows them

`app/src/Money.php`.  `format` groups the units by thousands and writes two places of cents behind them; what is shown
can be read back to the cent (`readCents_format`), so no two amounts look the same.
-/

namespace Dashboard

open Digits

/-! ## number_format -/

section Grouping

/-- A comma behind every third digit, the last digit first. -/
def commas : List Char → List Char
  | a :: b :: c :: d :: ds => a :: b :: c :: ',' :: commas (d :: ds)
  | ds => ds

/-- `number_format` of a natural number, which it takes as the integer that it is (PHP 8.3). -/
def grouped (n : ℕ) : List Char := (commas (natChars n).reverse).reverse

/-- `number_format` of an integer. -/
def numberFormat : ℤ → List Char
  | .ofNat n => grouped n
  | .negSucc n => '-' :: grouped (n + 1)

theorem filter_commas : ∀ {ds : List Char}, (∀ d ∈ ds, d.isDigit = true) → (commas ds).filter Char.isDigit = ds
  | a :: b :: c :: d :: ds, h => by
    have ih := @filter_commas (d :: ds) fun x hx => h x (by simp only [List.mem_cons] at hx ⊢; tauto)
    have hcomma : Char.isDigit ',' = false := rfl
    simp only [commas, List.filter_cons, h a (by simp), h b (by simp), h c (by simp), hcomma, ih, if_true]
    rfl
  | [], _ => rfl
  | [_], h => List.filter_eq_self.mpr h
  | [_, _], h => List.filter_eq_self.mpr h
  | [_, _, _], h => List.filter_eq_self.mpr h

theorem mem_commas : ∀ {ds : List Char} {x : Char}, x ∈ commas ds → x ∈ ds ∨ x = ','
  | a :: b :: c :: d :: ds, x, h => by
    simp only [commas, List.mem_cons] at h
    rcases h with h | h | h | h | h
    · exact Or.inl (by simp [h])
    · exact Or.inl (by simp [h])
    · exact Or.inl (by simp [h])
    · exact Or.inr h
    · refine (mem_commas h).imp_left fun hx => ?_
      simp only [List.mem_cons] at hx ⊢
      tauto
  | [], _, h => Or.inl h
  | [_], _, h => Or.inl h
  | [_, _], _, h => Or.inl h
  | [_, _, _], _, h => Or.inl h

/-- The digits of a grouped number are those of the number. -/
theorem filter_grouped (n : ℕ) : (grouped n).filter Char.isDigit = natChars n := by
  rw [grouped, List.filter_reverse, filter_commas, List.reverse_reverse]
  intro d hd
  exact isDigit_of_mem_natChars (List.mem_reverse.mp hd)

theorem mem_grouped {n : ℕ} {c : Char} (h : c ∈ grouped n) : c.isDigit = true ∨ c = ',' :=
  (mem_commas (List.mem_reverse.mp h)).imp_left fun hd => isDigit_of_mem_natChars (List.mem_reverse.mp hd)

end Grouping

/-! ## The formats -/

section Formats

def centsPerUnit : ℕ := 100

def symbol (currency : List Char) : List Char :=
  if currency = "USD".toList then ['$'] else if currency = "EUR".toList then ['€']
  else if currency = "GBP".toList then ['£'] else []

/-- `Money::format`; `none` where `abs` leaves the integers, which `intdiv` does not take. -/
def format (cents : ℤ) (currency : List Char) : Option (List Char) :=
  if cents = -2 ^ 63 then none
  else
    let sign := if cents < 0 then ['-'] else []
    let absolute := cents.natAbs
    let formatted := grouped (absolute / centsPerUnit) ++ '.' :: padNat 2 (absolute % centsPerUnit)
    some (sign ++ symbol currency ++ formatted ++ if symbol currency = [] then ' ' :: currency else [])

/-- `rtrim` of one character. -/
def rtrim (c : Char) (cs : List Char) : List Char := (cs.reverse.dropWhile (· = c)).reverse

/-- `number_format($bps / 100, 2)`. -/
def percent (bps : ℤ) : List Char :=
  (if bps < 0 then ['-'] else []) ++ grouped (bps.natAbs / 100) ++ '.' :: padNat 2 (bps.natAbs % 100)

/-- `Money::basisPoints`. -/
def basisPoints (bps : ℤ) : List Char := rtrim '.' (rtrim '0' (percent bps)) ++ ['%']

example : format 123456789 "USD".toList = some "$1,234,567.89".toList := by decide +kernel

example : basisPoints 1250 = "12.5%".toList := by decide +kernel

end Formats

/-! ## Reading an amount -/

section Reading

/-- The cents of an amount on a page: its digits up to the currency behind it, and its sign. -/
def readCents (shown : List Char) : ℤ :=
  let n : ℤ := Nat.ofDigitChars 10 ((shown.takeWhile (· ≠ ' ')).filter Char.isDigit) 0
  if shown.head? = some '-' then -n else n

theorem filter_padNat (w n : ℕ) : (padNat w n).filter Char.isDigit = padNat w n :=
  List.filter_eq_self.mpr fun _ hc => isDigit_of_mem_padNat hc

theorem ofDigitChars_split {a b : ℕ} (h : b < centsPerUnit) :
    Nat.ofDigitChars 10 (natChars a ++ padNat 2 b) 0 = a * centsPerUnit + b := by
  have ha : Nat.ofDigitChars 10 (natChars a) 0 = a := Nat.ofDigitChars_ten_toDigits
  have hb : Nat.ofDigitChars 10 (padNat 2 b) 0 = b := ofDigitChars_padNat 2 b
  have hlen : (padNat 2 b).length = 2 := length_padNat h (by decide)
  rw [Nat.ofDigitChars_append, ha, Nat.ofDigitChars_eq_ofDigitChars_zero, hb, hlen, centsPerUnit]
  omega

theorem symbol_cases (currency : List Char) :
    symbol currency = ['$'] ∨ symbol currency = ['€'] ∨ symbol currency = ['£'] ∨ symbol currency = [] := by
  unfold symbol
  split_ifs <;> simp

/-- The sign and the symbol hold no digit and no blank. -/
theorem lead_plain (cents : ℤ) (currency : List Char) :
    ∀ c ∈ (if cents < 0 then ['-'] else []) ++ symbol currency, c.isDigit = false ∧ c ≠ ' ' := by
  intro c hc
  rcases List.mem_append.mp hc with hc | hc
  · split_ifs at hc with hneg
    · rw [List.mem_singleton.mp hc]
      decide
    · cases hc
  · rcases symbol_cases currency with h | h | h | h <;> rw [h] at hc
    · rw [List.mem_singleton.mp hc]
      decide
    · rw [List.mem_singleton.mp hc]
      decide
    · rw [List.mem_singleton.mp hc]
      decide
    · cases hc

theorem formatted_plain (whole fraction : ℕ) : ∀ c ∈ grouped whole ++ '.' :: padNat 2 fraction, c ≠ ' ' := by
  intro c hc hblank
  subst hblank
  rcases List.mem_append.mp hc with hc | hc
  · rcases mem_grouped hc with h | h
    · cases h
    · exact absurd h (by decide)
  · rcases List.mem_cons.mp hc with h | h
    · exact absurd h (by decide)
    · exact absurd (isDigit_of_mem_padNat h) (by decide)

theorem takeWhile_blank {cs suffix : List Char} (hcs : ∀ c ∈ cs, c ≠ ' ')
    (hsuffix : suffix = [] ∨ ∃ rest, suffix = ' ' :: rest) : (cs ++ suffix).takeWhile (· ≠ ' ') = cs := by
  have hall : ∀ c ∈ cs, decide (c ≠ ' ') = true := fun c hc => decide_eq_true (hcs c hc)
  rcases hsuffix with rfl | ⟨rest, rfl⟩
  · rw [List.append_nil]
    exact List.takeWhile_eq_self_iff.mpr hall
  · rw [List.takeWhile_append_of_pos hall, List.takeWhile_cons_of_neg (by simp), List.append_nil]

/-- An amount begins with `-` exactly if it is negative. -/
theorem head_lead (cents : ℤ) (currency rest : List Char) (hrest : rest.head? ≠ some '-') :
    (((if cents < 0 then ['-'] else []) ++ symbol currency ++ rest).head? = some '-') ↔ cents < 0 := by
  by_cases hneg : cents < 0
  · simp [hneg]
  · rcases symbol_cases currency with h | h | h | h <;> simp [hneg, h, hrest]

/-- **What is shown of an amount can be read back to the cent.** -/
theorem readCents_format {cents : ℤ} {currency shown : List Char} (h : format cents currency = some shown) :
    readCents shown = cents := by
  by_cases hmin : cents = -2 ^ 63
  · rw [format, if_pos hmin] at h
    cases h
  rw [format, if_neg hmin] at h
  obtain rfl := Option.some.inj h
  set whole := cents.natAbs / centsPerUnit with hwhole
  set fraction := cents.natAbs % centsPerUnit with hfraction
  set lead := (if cents < 0 then ['-'] else []) ++ symbol currency with hlead
  set suffix := if symbol currency = [] then ' ' :: currency else [] with hsuf
  have hsuffix : suffix = [] ∨ ∃ rest, suffix = ' ' :: rest := by
    rw [hsuf]
    split_ifs
    · exact Or.inr ⟨currency, rfl⟩
    · exact Or.inl rfl
  have htake : (lead ++ (grouped whole ++ '.' :: padNat 2 fraction) ++ suffix).takeWhile (· ≠ ' ')
      = lead ++ (grouped whole ++ '.' :: padNat 2 fraction) := by
    refine takeWhile_blank (fun c hc => ?_) hsuffix
    rcases List.mem_append.mp hc with hc | hc
    · exact (lead_plain cents currency c hc).2
    · exact formatted_plain whole fraction c hc
  have hdigits : (lead ++ (grouped whole ++ '.' :: padNat 2 fraction)).filter Char.isDigit
      = natChars whole ++ padNat 2 fraction := by
    have hplain : lead.filter Char.isDigit = [] :=
      List.filter_eq_nil_iff.mpr fun c hc => by simp [(lead_plain cents currency c hc).1]
    have hdot : Char.isDigit '.' = false := rfl
    rw [List.filter_append, hplain, List.nil_append, List.filter_append, filter_grouped, List.filter_cons, hdot,
      filter_padNat]
    rfl
  have hvalue : Nat.ofDigitChars 10 (natChars whole ++ padNat 2 fraction) 0 = cents.natAbs :=
    (ofDigitChars_split (Nat.mod_lt _ (by decide))).trans (Nat.div_add_mod' _ _)
  have hhead : (lead ++ (grouped whole ++ '.' :: padNat 2 fraction) ++ suffix).head? = some '-' ↔ cents < 0 := by
    rw [List.append_assoc, hlead]
    refine head_lead cents currency _ ?_
    obtain ⟨c, ds, hds⟩ := List.exists_cons_of_ne_nil (l := grouped whole) fun hnil => by
      have hdig := filter_grouped whole
      rw [hnil] at hdig
      exact natChars_ne_nil whole hdig.symm
    rw [hds]
    intro hc
    have hmem : c ∈ grouped whole := hds ▸ List.mem_cons_self
    rw [Option.some.inj hc] at hmem
    rcases mem_grouped hmem with hd | hd
    · cases hd
    · exact absurd hd (by decide)
  unfold readCents
  simp only [htake, hdigits, hhead, hvalue]
  split_ifs <;> omega

theorem readCents_format_sample : readCents "-$1,234,567.89".toList = -123456789 :=
  readCents_format (by decide +kernel : format (-123456789) "USD".toList = some "-$1,234,567.89".toList)

end Reading

end Dashboard
