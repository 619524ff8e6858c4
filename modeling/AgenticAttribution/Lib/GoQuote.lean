import AgenticAttribution.Lib.JsonRead

/-!
# Lib.GoQuote — two literals of Go, as JSON

`quote` is what `fmt` prints for `%q` (`strconv.Quote`), and `jsonString` is the string literal of `json.Marshal`,
with its HTML escaping.  `jsonString` is JSON for every text.  `quote` is JSON only where it needs no escape that JSON
does not have: `\a`, `\v`, `\xNN` and `\UNNNNNNNN` (`spoils_quoteRune`).
-/

namespace GoQuote

open Json
open JsonText (escapeUnit goEscape shortEscape isLineSeparator)

/-- `strconv.IsPrint`, which goes by the Unicode tables.  Of ASCII it takes what is visible, and the space. -/
structure PrintTable where
  isPrint : Char → Bool
  ascii : ∀ {c : Char}, c.toNat < 128 → (isPrint c = true ↔ 0x20 ≤ c.toNat ∧ c.toNat ≠ 0x7f)

/-- The table of ASCII alone. -/
def asciiTable : PrintTable where
  isPrint c := 0x20 ≤ c.toNat && c.toNat < 0x7f
  ascii {c} h := by
    rw [Bool.and_eq_true, decide_eq_true_eq, decide_eq_true_eq]
    omega

/-- `\xNN`. -/
def escapeByte (n : ℕ) : List Char := ['\\', 'x', (n / 16 % 16).digitChar, (n % 16).digitChar]

/-- `\UNNNNNNNN`. -/
def escapeLong (n : ℕ) : List Char :=
  ['\\', 'U', (n / 268435456 % 16).digitChar, (n / 16777216 % 16).digitChar, (n / 1048576 % 16).digitChar,
    (n / 65536 % 16).digitChar, (n / 4096 % 16).digitChar, (n / 256 % 16).digitChar, (n / 16 % 16).digitChar,
    (n % 16).digitChar]

section Quote

variable (t : PrintTable)

/-- `appendEscapedRune`, between double quotes. -/
def quoteRune (c : Char) : List Char :=
  if c = '"' ∨ c = '\\' then ['\\', c]
  else if t.isPrint c then [c]
  else if c = '\x07' then ['\\', 'a']
  else if c = '\x08' then ['\\', 'b']
  else if c = '\x0c' then ['\\', 'f']
  else if c = '\n' then ['\\', 'n']
  else if c = '\r' then ['\\', 'r']
  else if c = '\t' then ['\\', 't']
  else if c = '\x0b' then ['\\', 'v']
  else if c.toNat < 0x20 ∨ c.toNat = 0x7f then escapeByte c.toNat
  else if c.toNat < 0x10000 then escapeUnit c.toNat
  else escapeLong c.toNat

/-- The runes of a string, and the bytes that are part of none; with a bound on their number. -/
def quoteRunes : ℕ → Bytes → List Char
  | 0, _ => []
  | _ + 1, [] => []
  | n + 1, b :: bs =>
    match Utf8.decodeRune (b :: bs) with
    | some c => quoteRune t c ++ quoteRunes n ((b :: bs).drop (String.utf8EncodeChar c).length)
    | none => escapeByte b.toNat ++ quoteRunes n bs

/-- `%q`. -/
def quote (s : Bytes) : List Char := '"' :: quoteRunes t s.length s ++ ['"']

/-- A text is quoted character by character. -/
theorem quote_encode (cs : List Char) : quote t (Utf8.encode cs) = literal (quoteRune t) cs := by
  suffices h : ∀ (cs : List Char) (n : ℕ), (Utf8.encode cs).length ≤ n →
      quoteRunes t n (Utf8.encode cs) = cs.flatMap (quoteRune t) by
    rw [quote, h cs _ le_rfl, literal]
  intro cs
  induction cs with
  | nil =>
    intro n _
    cases n <;> rfl
  | cons c cs ih =>
    intro n hn
    have hread := Utf8.decodeRune_encode_append c (Utf8.encode cs)
    have hpos := Utf8.utf8EncodeChar_length_pos c
    rw [Utf8.encode_cons] at hn ⊢
    rw [List.length_append] at hn
    obtain ⟨b, w, hb⟩ := List.exists_cons_of_ne_nil (String.utf8EncodeChar_ne_nil (c := c))
    cases n with
    | zero => omega
    | succ n =>
      have hdrop : (b :: (w ++ Utf8.encode cs)).drop (String.utf8EncodeChar c).length = Utf8.encode cs := by
        rw [hb, ← List.cons_append, List.drop_left]
      rw [hb, List.cons_append] at hread
      have hhead : quoteRunes t (n + 1) (b :: (w ++ Utf8.encode cs)) =
          quoteRune t c ++ quoteRunes t n (Utf8.encode cs) := by
        simp only [quoteRunes, hread, hdrop]
      rw [hb, List.cons_append, hhead, ih n (by omega), List.flatMap_cons]

end Quote

/-! ## The literal of `json.Marshal` -/

section Marshal

/-- A character that HTML gives a meaning. -/
def isHtml (c : Char) : Bool := c = '<' || c = '>' || c = '&'

def htmlEscape : Option Char → List Char
  | some c => if isHtml c then escapeUnit c.toNat else goEscape (some c)
  | none => goEscape none

/-- A string literal of `json.Marshal`. -/
def jsonString (s : Bytes) : List Char := '"' :: (Utf8.decode s).flatMap htmlEscape ++ ['"']

/-- The escape of a character. -/
def marshalRune (c : Char) : List Char := htmlEscape (some c)

theorem jsonString_encode (cs : List Char) : jsonString (Utf8.encode cs) = literal marshalRune cs := by
  rw [jsonString, Utf8.decode_encode, List.flatMap_map]
  rfl

end Marshal

/-! ## What the reader makes of them -/

section Read

theorem hexDigit_digitChar {n : ℕ} (h : n < 16) : hexDigit n.digitChar = some n := by
  interval_cases n <;> rfl

theorem readUnit_hex {n : ℕ} (h : n < 65536) (x : List Char) :
    readUnit ((n / 4096 % 16).digitChar :: (n / 256 % 16).digitChar :: (n / 16 % 16).digitChar ::
      (n % 16).digitChar :: x) = some (n, x) := by
  have hn : n / 4096 % 16 * 4096 + n / 256 % 16 * 256 + n / 16 % 16 * 16 + n % 16 = n := by omega
  have hlt : ∀ k, k % 16 < 16 := fun k => Nat.mod_lt k (by decide)
  simp only [readUnit, hexDigit_digitChar (hlt _), Option.bind_eq_bind, Option.bind_some, hn]
  rfl

theorem not_surrogate (c : Char) : isSurrogate c.toNat = false := by
  have hvalid := c.valid
  have hval : c.toNat = c.val.toNat := rfl
  rw [isSurrogate, Bool.and_eq_false_iff, decide_eq_false_iff_not, decide_eq_false_iff_not]
  rcases hvalid with h | ⟨h, -⟩
  · exact Or.inl (by omega)
  · exact Or.inr (by omega)

theorem readChar_escapeUnit {c : Char} (h : c.toNat < 0x10000) (x : List Char) :
    readChar (escapeUnit c.toNat ++ x) = some (c, x) := by
  have hunit := readUnit_hex h x
  simp only [escapeUnit, List.cons_append, List.nil_append, readChar, readEscape, readUnicode, if_true, hunit,
    Option.bind_eq_bind, Option.bind_some, not_surrogate, Bool.false_eq_true, if_false]
  rw [Char.ofNat_toNat]
  rfl

theorem reads_unit {c : Char} {escape : Char → List Char} (he : escape c = escapeUnit c.toNat)
    (h : c.toNat < 0x10000) : Reads escape c :=
  ⟨⟨'\\', _, by rw [he]; rfl, by decide⟩, fun x => by rw [he, readChar_escapeUnit h]⟩

theorem reads_short {c e : Char} {escape : Char → List Char} (he : escape c = ['\\', e]) (hu : e ≠ 'u')
    (h : unescape e = some c) : Reads escape c := by
  refine ⟨⟨'\\', [e], he, by decide⟩, fun x => ?_⟩
  rw [he]
  simp only [List.cons_append, List.nil_append, readChar, readEscape, if_true, if_neg hu, h, Option.map_some]

theorem reads_self {c : Char} {escape : Char → List Char} (he : escape c = [c]) (hquote : c ≠ '"')
    (hback : c ≠ '\\') (h : 0x20 ≤ c.toNat) : Reads escape c := by
  refine ⟨⟨c, [], he, hquote⟩, fun x => ?_⟩
  rw [he]
  simp only [List.cons_append, List.nil_append, readChar, if_neg hback, if_neg (not_lt.mpr h)]

/-- An escape that JSON does not have. -/
theorem spoils_escape {c e : Char} {w : List Char} {escape : Char → List Char} (he : escape c = '\\' :: e :: w)
    (hu : e ≠ 'u') (h : unescape e = none) : Spoils escape c := by
  refine ⟨⟨'\\', _, he, by decide⟩, fun x => ?_⟩
  rw [he]
  simp only [List.cons_append, readChar, readEscape, if_true, if_neg hu, h, Option.map_none]

/-- **The literal of `json.Marshal` is JSON**, whatever is in it. -/
theorem reads_marshalRune (c : Char) : Reads marshalRune c := by
  by_cases hhtml : isHtml c = true
  · have he : marshalRune c = escapeUnit c.toNat := if_pos hhtml
    refine reads_unit he ?_
    simp only [isHtml, Bool.or_eq_true, decide_eq_true_eq] at hhtml
    rcases hhtml with (rfl | rfl) | rfl <;> decide
  · have he : marshalRune c = goEscape (some c) := if_neg hhtml
    cases hs : shortEscape c with
    | some e =>
      have hshort : goEscape (some c) = ['\\', e] := by simp only [goEscape, hs]
      have hread : e ≠ 'u' ∧ unescape e = some c := by
        unfold shortEscape at hs
        split_ifs at hs <;> cases hs <;> subst c <;> exact ⟨by decide, rfl⟩
      exact reads_short (he.trans hshort) hread.1 hread.2
    | none =>
      have hne : c ≠ '"' ∧ c ≠ '\\' := by
        constructor <;> rintro rfl <;> cases hs
      by_cases hunit : (decide (c.toNat < 0x20) || isLineSeparator c) = true
      · refine reads_unit (he.trans (by simp only [goEscape, hs, if_pos hunit])) ?_
        simp only [isLineSeparator, Bool.or_eq_true, decide_eq_true_eq] at hunit
        rcases hunit with h | rfl | rfl
        · omega
        · decide
        · decide
      · refine reads_self (he.trans (by simp only [goEscape, hs, if_neg hunit])) hne.1 hne.2 ?_
        simp only [Bool.or_eq_true, decide_eq_true_eq, not_or] at hunit
        omega

theorem newline_notMem_hex {n : ℕ} : (n % 16).digitChar ≠ '\n' := by
  have h : n % 16 < 16 := Nat.mod_lt n (by decide)
  interval_cases n % 16 <;> decide

theorem newline_notMem_escapeUnit (n : ℕ) : '\n' ∉ escapeUnit n := by
  simp only [escapeUnit, List.mem_cons, List.not_mem_nil, or_false, not_or]
  exact ⟨by decide, by decide, newline_notMem_hex.symm, newline_notMem_hex.symm, newline_notMem_hex.symm,
    newline_notMem_hex.symm⟩

/-- No newline is left in a literal of `json.Marshal`. -/
theorem newline_notMem_marshalRune (c : Char) : '\n' ∉ marshalRune c := by
  unfold marshalRune htmlEscape goEscape
  simp only
  split_ifs with hhtml hunit
  · exact newline_notMem_escapeUnit _
  · cases hs : shortEscape c with
    | some e =>
      unfold shortEscape at hs
      split_ifs at hs <;> cases hs <;> simp
    | none => exact newline_notMem_escapeUnit _
  · cases hs : shortEscape c with
    | some e =>
      unfold shortEscape at hs
      split_ifs at hs <;> cases hs <;> simp
    | none =>
      simp only [List.mem_singleton]
      rintro rfl
      cases hs

/-- What `%q` writes as JSON does: all but the control characters that JSON has no letter for, and what is neither
printed nor fits into four digits. -/
def Quotable (t : PrintTable) (c : Char) : Prop :=
  (c.toNat < 0x20 → c = '\x08' ∨ c = '\x0c' ∨ c = '\n' ∨ c = '\r' ∨ c = '\t') ∧ c.toNat ≠ 0x7f ∧
    (0x10000 ≤ c.toNat → t.isPrint c = true)

instance (t : PrintTable) (c : Char) : Decidable (Quotable t c) := inferInstanceAs (Decidable (_ ∧ _))

variable {t : PrintTable} {c : Char}

theorem quotable_of_letter (h : c = '\x08' ∨ c = '\x0c' ∨ c = '\n' ∨ c = '\r' ∨ c = '\t') : Quotable t c := by
  have hlow : c.toNat < 0x20 := by
    rcases h with rfl | rfl | rfl | rfl | rfl <;> decide
  refine ⟨fun _ => h, ?_, fun hlong => ?_⟩
  · omega
  · omega

theorem reads_quoteRune (h : Quotable t c) : Reads (quoteRune t) c := by
  obtain ⟨hcontrol, hdelete, hlong⟩ := h
  by_cases hquote : c = '"' ∨ c = '\\'
  · have he : quoteRune t c = ['\\', c] := if_pos hquote
    rcases hquote with rfl | rfl
    · exact reads_short he (by decide) rfl
    · exact reads_short he (by decide) rfl
  obtain ⟨hq, hb⟩ := not_or.mp hquote
  by_cases hprint : t.isPrint c = true
  · refine reads_self (by simp only [quoteRune, if_neg hquote, if_pos hprint]) hq hb ?_
    by_contra hlow
    have := (t.ascii (c := c) (by omega)).mp hprint
    omega
  by_cases hlow : c.toNat < 0x20
  · have hshort : ∀ e : Char, quoteRune t c = ['\\', e] → e ≠ 'u' → unescape e = some c → Reads (quoteRune t) c :=
      fun e he hu hun => reads_short he hu hun
    rcases hcontrol hlow with rfl | rfl | rfl | rfl | rfl
    · exact hshort 'b' ((if_neg hquote).trans (if_neg hprint)) (by decide) rfl
    · exact hshort 'f' ((if_neg hquote).trans (if_neg hprint)) (by decide) rfl
    · exact hshort 'n' ((if_neg hquote).trans (if_neg hprint)) (by decide) rfl
    · exact hshort 'r' ((if_neg hquote).trans (if_neg hprint)) (by decide) rfl
    · exact hshort 't' ((if_neg hquote).trans (if_neg hprint)) (by decide) rfl
  · have hbmp : c.toNat < 0x10000 := by
      by_contra hbig
      exact hprint (hlong (by omega))
    refine reads_unit ?_ hbmp
    have hne : ∀ d : Char, d.toNat < 0x20 → c ≠ d := by
      rintro d hd rfl
      exact hlow hd
    simp only [quoteRune, if_neg hquote, if_neg hprint, if_neg (hne '\x07' (by decide)),
      if_neg (hne '\x08' (by decide)),
      if_neg (hne '\x0c' (by decide)), if_neg (hne '\n' (by decide)), if_neg (hne '\r' (by decide)),
      if_neg (hne '\t' (by decide)), if_neg (hne '\x0b' (by decide)), if_neg (not_or.mpr ⟨hlow, hdelete⟩),
      if_pos hbmp]

/-- **What is not quotable is written in a way that JSON does not have.** -/
theorem spoils_quoteRune (h : ¬Quotable t c) : Spoils (quoteRune t) c := by
  have hascii : ∀ {d : Char}, d.toNat < 0x20 ∨ d.toNat = 0x7f → t.isPrint d = false ∧ d ≠ '"' ∧ d ≠ '\\' := by
    intro d hd
    refine ⟨?_, ?_, ?_⟩
    · rw [← Bool.not_eq_true]
      intro hp
      have := (t.ascii (c := d) (by omega)).mp hp
      omega
    · rintro rfl
      exact absurd hd (by decide)
    · rintro rfl
      exact absurd hd (by decide)
  by_cases hlow : c.toNat < 0x20 ∨ c.toNat = 0x7f
  · obtain ⟨hprint, hq, hb⟩ := hascii hlow
    have hhead : quoteRune t c = if c = '\x07' then ['\\', 'a'] else if c = '\x0b' then ['\\', 'v']
        else escapeByte c.toNat := by
      have hletters : ¬(c = '\x08' ∨ c = '\x0c' ∨ c = '\n' ∨ c = '\r' ∨ c = '\t') := mt quotable_of_letter h
      simp only [not_or] at hletters
      obtain ⟨hbs, hff, hnl, hcr, htab⟩ := hletters
      simp only [quoteRune, hq, hb, hprint, hbs, hff, hnl, hcr, htab, or_self, if_false, Bool.false_eq_true,
        if_pos hlow]
    by_cases hbell : c = '\x07'
    · exact spoils_escape (hhead.trans (if_pos hbell)) (by decide) rfl
    by_cases htab : c = '\x0b'
    · exact spoils_escape (hhead.trans ((if_neg hbell).trans (if_pos htab))) (by decide) rfl
    · exact spoils_escape (hhead.trans ((if_neg hbell).trans (if_neg htab))) (by decide) rfl
  · have hlong : 0x10000 ≤ c.toNat ∧ t.isPrint c = false := by
      by_contra hnot
      refine h ⟨fun hc => absurd (Or.inl hc) hlow, fun hc => hlow (Or.inr hc), fun hc => ?_⟩
      rw [← Bool.not_eq_false]
      exact fun hp => hnot ⟨hc, hp⟩
    have hne : ∀ d : Char, d.toNat < 0x10000 → c ≠ d := by
      rintro d hd rfl
      omega
    have he : quoteRune t c = escapeLong c.toNat := by
      simp only [quoteRune, hne '"' (by decide), hne '\\' (by decide), hlong.2, hne '\x07' (by decide),
        hne '\x08' (by decide), hne '\x0c' (by decide), hne '\n' (by decide), hne '\r' (by decide),
        hne '\t' (by decide), hne '\x0b' (by decide), or_self, if_false, Bool.false_eq_true, if_neg hlow,
        if_neg (not_lt.mpr hlong.1)]
    exact spoils_escape he (by decide) rfl

theorem notMem_ite {p : Prop} [Decidable p] {x : Char} {xs ys : List Char} (hxs : p → x ∉ xs) (hys : x ∉ ys) :
    x ∉ if p then xs else ys := by
  by_cases hp : p
  · rw [if_pos hp]
    exact hxs hp
  · rwa [if_neg hp]

/-- No newline is left in what `%q` writes. -/
theorem newline_notMem_quoteRune (t : PrintTable) (c : Char) : '\n' ∉ quoteRune t c := by
  unfold quoteRune
  refine notMem_ite (fun hquote => ?_) (notMem_ite (fun hprint => ?_) ?_)
  · rcases hquote with rfl | rfl <;> simp
  · rw [List.mem_singleton]
    rintro rfl
    exact absurd ((t.ascii (c := '\n') (by decide)).mp hprint) (by decide)
  · -- the letters, then the three numbers
    iterate 7 refine notMem_ite (fun _ => by decide) ?_
    refine notMem_ite (fun _ => ?_) (notMem_ite (fun _ => newline_notMem_escapeUnit _) ?_)
    · simp [escapeByte, newline_notMem_hex.symm]
    · simp [escapeLong, newline_notMem_hex.symm]

/-- What is printed and needs no backslash stands for itself. -/
theorem literal_quoteRune {cs : List Char}
    (h : ∀ c ∈ cs, (0x20 ≤ c.toNat ∧ c.toNat < 0x7f) ∧ c ≠ '"' ∧ c ≠ '\\') :
    literal (quoteRune t) cs = '"' :: cs ++ ['"'] := by
  have hself : cs.flatMap (quoteRune t) = cs := by
    induction cs with
    | nil => rfl
    | cons c cs ih =>
      obtain ⟨hc, hq, hb⟩ := h c List.mem_cons_self
      have hprint : t.isPrint c = true := (t.ascii (by omega)).mpr ⟨hc.1, by omega⟩
      have he : quoteRune t c = [c] := by simp only [quoteRune, hq, hb, or_self, if_false, hprint, if_true]
      rw [List.flatMap_cons, he, ih fun d hd => h d (List.mem_cons_of_mem _ hd), List.singleton_append]
  rw [literal, hself]

end Read

end GoQuote
