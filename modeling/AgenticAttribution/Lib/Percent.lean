import AgenticAttribution.Lib.JsonRead
import AgenticAttribution.Lib.Utf8

/-!
# Lib.Percent — percent-encoding

`encode keep` writes a byte string as ASCII text: a byte that `keep` has stands for itself, any other is `%` and two
digits.  `decode` reads such a text the way PHP's `urldecode` does, which lets a stray `%` stand, and `decode?` the way
Go's `url.PathUnescape` does, which refuses one.  Both read back what was written (`decode_encode`,
`decode?_encode`), and what was written holds no character that `keep` leaves out (`mem_encode`).
-/

namespace Percent

open Json

/-- `ALPHA / DIGIT / "-" / "." / "_" / "~"`. -/
def unreserved (b : UInt8) : Bool :=
  (48 ≤ b && b ≤ 57) || (65 ≤ b && b ≤ 90) || (97 ≤ b && b ≤ 122) || b = 45 || b = 46 || b = 95 || b = 126

/-- The capital digit of `n`. -/
def hexUpper (n : ℕ) : Char := n.digitChar.toUpper

def encodeByte (keep : UInt8 → Bool) (b : UInt8) : List Char :=
  if keep b then [Char.ofNat b.toNat] else ['%', hexUpper (b.toNat / 16), hexUpper (b.toNat % 16)]

def encode (keep : UInt8 → Bool) (bs : Bytes) : List Char := bs.flatMap (encodeByte keep)

/-- The byte of two digits. -/
def octet (h l : Char) : Option UInt8 := do
  let h ← hexDigit h
  let l ← hexDigit l
  return UInt8.ofNat (h * 16 + l)

/-- `urldecode`. -/
def decode : List Char → Bytes
  | [] => []
  | '%' :: h :: l :: cs =>
    match octet h l with
    | some b => b :: decode cs
    | none => 37 :: decode (h :: l :: cs)
  | c :: cs => (if c = '+' then [32] else String.utf8EncodeChar c) ++ decode cs

/-- `url.PathUnescape`; `none` is an error. -/
def decode? : List Char → Option Bytes
  | [] => some []
  | '%' :: h :: l :: cs => do
    let b ← octet h l
    let bs ← decode? cs
    return b :: bs
  | '%' :: _ => none
  | c :: cs => do
    let bs ← decode? cs
    return String.utf8EncodeChar c ++ bs

/-! ## What is written -/

section Encode

variable {keep : UInt8 → Bool}

/-- What may be kept: ASCII, and neither the `%` nor the `+` that `urldecode` reads as something else. -/
def Plain (keep : UInt8 → Bool) : Prop := ∀ b, keep b = true → b.toNat < 128 ∧ b ≠ 37 ∧ b ≠ 43

theorem plain_unreserved : Plain unreserved := by
  intro b hb
  simp only [unreserved, Bool.or_eq_true, Bool.and_eq_true, decide_eq_true_eq, UInt8.le_iff_toNat_le,
    ← UInt8.toNat_inj, UInt8.toNat_ofNat] at hb
  simp only [ne_eq, ← UInt8.toNat_inj, UInt8.toNat_ofNat]
  omega

theorem hexDigit_hexUpper {n : ℕ} (h : n < 16) : hexDigit (hexUpper n) = some n := by
  interval_cases n <;> rfl

theorem octet_hexUpper (b : UInt8) : octet (hexUpper (b.toNat / 16)) (hexUpper (b.toNat % 16)) = some b := by
  have hb := b.toNat_lt
  have hsplit : b.toNat / 16 * 16 + b.toNat % 16 = b.toNat := by omega
  simp only [octet, hexDigit_hexUpper (show b.toNat / 16 < 16 by omega),
    hexDigit_hexUpper (show b.toNat % 16 < 16 by omega), Option.bind_eq_bind, Option.bind_some, hsplit,
    UInt8.ofNat_toNat]
  rfl

theorem encode_cons (b : UInt8) (bs : Bytes) : encode keep (b :: bs) = encodeByte keep b ++ encode keep bs := rfl

/-- A kept byte as a character. -/
theorem toNat_ofNat_byte {b : UInt8} (h : b.toNat < 128) : (Char.ofNat b.toNat).toNat = b.toNat := by
  have hvalid : b.toNat.isValidChar := Or.inl (by omega)
  rw [Char.ofNat, dif_pos hvalid]
  rfl

theorem encodeChar_ofNat_byte {b : UInt8} (h : b.toNat < 128) :
    String.utf8EncodeChar (Char.ofNat b.toNat) = [b] := by
  rw [Utf8.utf8EncodeChar_of_lt (by rw [toNat_ofNat_byte h]; exact h), toNat_ofNat_byte h]
  simp

/-- The characters of an encoding. -/
theorem mem_encode {bs : Bytes} {c : Char} (h : c ∈ encode keep bs) :
    (∃ b, keep b = true ∧ c = Char.ofNat b.toNat) ∨ c = '%' ∨ ∃ n, n < 16 ∧ c = hexUpper n := by
  obtain ⟨b, -, hc⟩ := List.mem_flatMap.mp h
  have hb := b.toNat_lt
  unfold encodeByte at hc
  split_ifs at hc with hk
  · exact Or.inl ⟨b, hk, List.mem_singleton.mp hc⟩
  · simp only [List.mem_cons, List.not_mem_nil, or_false] at hc
    rcases hc with rfl | rfl | rfl
    · exact Or.inr (Or.inl rfl)
    · exact Or.inr (Or.inr ⟨_, by omega, rfl⟩)
    · exact Or.inr (Or.inr ⟨_, by omega, rfl⟩)

theorem encode_ne_nil {bs : Bytes} (h : bs ≠ []) : encode keep bs ≠ [] := by
  obtain ⟨b, bs, rfl⟩ := List.exists_cons_of_ne_nil h
  rw [encode_cons]
  unfold encodeByte
  split_ifs <;> simp

/-- A character that is neither kept nor a digit nor `%` does not occur. -/
theorem notMem_encode {c : Char} (hkeep : ∀ b, keep b = true → c ≠ Char.ofNat b.toNat) (hc : c ≠ '%')
    (hhex : ∀ n, n < 16 → c ≠ hexUpper n) (bs : Bytes) : c ∉ encode keep bs := by
  intro h
  rcases mem_encode h with ⟨b, hb, rfl⟩ | rfl | ⟨n, hn, rfl⟩
  · exact hkeep b hb rfl
  · exact hc rfl
  · exact hhex n hn rfl

end Encode

/-! ## What is read back -/

section Decode

variable {keep : UInt8 → Bool}

theorem decode_cons {c : Char} (h : c ≠ '%') (cs : List Char) :
    decode (c :: cs) = (if c = '+' then [32] else String.utf8EncodeChar c) ++ decode cs := by
  conv_lhs => unfold decode
  split
  · rename_i he
    cases he
  · rename_i he
    exact absurd (List.cons.inj he).1 h
  · rename_i c' cs' _ he
    obtain ⟨rfl, rfl⟩ := List.cons.inj he
    rfl

theorem decode?_cons {c : Char} (h : c ≠ '%') (cs : List Char) :
    decode? (c :: cs) = (decode? cs).map (String.utf8EncodeChar c ++ ·) := by
  have hmap : ∀ o : Option Bytes, (do let bs ← o; return String.utf8EncodeChar c ++ bs)
      = o.map (String.utf8EncodeChar c ++ ·) := by
    intro o
    cases o <;> rfl
  rw [← hmap]
  conv_lhs => unfold decode?
  split
  · rename_i he
    cases he
  · rename_i he
    exact absurd (List.cons.inj he).1 h
  · rename_i he
    exact absurd (List.cons.inj he).1 h
  · rename_i c' cs' _ _ he
    obtain ⟨rfl, rfl⟩ := List.cons.inj he
    rfl

/-- A kept byte is neither of the characters that are read as something else. -/
theorem Plain.char_ne (hp : Plain keep) {b : UInt8} (hb : keep b = true) :
    Char.ofNat b.toNat ≠ '%' ∧ Char.ofNat b.toNat ≠ '+' := by
  obtain ⟨hlt, hpercent, hplus⟩ := hp b hb
  have hne : ∀ c : Char, Char.ofNat b.toNat = c → b.toNat = c.toNat := fun c hc => by
    rw [← toNat_ofNat_byte hlt, hc]
  constructor
  · intro hc
    exact hpercent (UInt8.toNat_inj.mp (hne _ hc))
  · intro hc
    exact hplus (UInt8.toNat_inj.mp (hne _ hc))

theorem decode_encodeByte (hp : Plain keep) (b : UInt8) (cs : List Char) :
    decode (encodeByte keep b ++ cs) = b :: decode cs := by
  unfold encodeByte
  split_ifs with hk
  · obtain ⟨hpercent, hplus⟩ := hp.char_ne hk
    rw [List.singleton_append, decode_cons hpercent, if_neg hplus, encodeChar_ofNat_byte (hp b hk).1]
    rfl
  · rw [List.cons_append, List.cons_append, List.cons_append, List.nil_append, decode, octet_hexUpper]

theorem decode?_encodeByte (hp : Plain keep) (b : UInt8) (cs : List Char) :
    decode? (encodeByte keep b ++ cs) = (decode? cs).map (b :: ·) := by
  unfold encodeByte
  split_ifs with hk
  · rw [List.singleton_append, decode?_cons (hp.char_ne hk).1, encodeChar_ofNat_byte (hp b hk).1]
    rfl
  · rw [List.cons_append, List.cons_append, List.cons_append, List.nil_append, decode?, octet_hexUpper]
    cases decode? cs <;> rfl

/-- **`urldecode` reads back what was written.** -/
theorem decode_encode (hp : Plain keep) (bs : Bytes) : decode (encode keep bs) = bs := by
  induction bs with
  | nil => rfl
  | cons b bs ih => rw [encode_cons, decode_encodeByte hp, ih]

/-- **`PathUnescape` reads back what was written.** -/
theorem decode?_encode (hp : Plain keep) (bs : Bytes) : decode? (encode keep bs) = some bs := by
  induction bs with
  | nil => rfl
  | cons b bs ih => rw [encode_cons, decode?_encodeByte hp, ih, Option.map_some]

theorem encode_injective (hp : Plain keep) : Function.Injective (encode keep) := by
  intro bs cs h
  rw [← decode_encode hp bs, h, decode_encode hp]

end Decode

/-! ## Paths -/

section Paths

/-- A path of segments. -/
def pathOf (segs : List (List Char)) : List Char := segs.flatMap fun s => '/' :: s

theorem pathOf_cons (s : List Char) (segs : List (List Char)) : pathOf (s :: segs) = '/' :: (s ++ pathOf segs) := by
  simp [pathOf]

/-- **The segments of a path are found at its slashes.** -/
theorem splitOn_pathOf {s : List Char} {segs : List (List Char)} (hs : '/' ∉ s) (hsegs : ∀ t ∈ segs, '/' ∉ t) :
    (s ++ pathOf segs).splitOn '/' = s :: segs := by
  induction segs generalizing s with
  | nil => rw [pathOf, List.flatMap_nil, List.append_nil, List.splitOn_eq_singleton hs]
  | cons t segs ih =>
    rw [pathOf_cons, List.splitOn_append_cons_self, List.splitOn_eq_singleton hs,
      ih (hsegs t List.mem_cons_self) fun u hu => hsegs u (List.mem_cons_of_mem _ hu)]
    rfl

/-- A character that unreserved bytes, `%` and digits leave out. -/
theorem notMem_unreserved {c : Char} (h : c = '/' ∨ c = '?') (bs : Bytes) : c ∉ encode unreserved bs := by
  refine notMem_encode ?_ ?_ ?_ bs
  · intro b hb he
    have hb' : b.toNat = c.toNat := by rw [he, toNat_ofNat_byte (plain_unreserved b hb).1]
    simp only [unreserved, Bool.or_eq_true, Bool.and_eq_true, decide_eq_true_eq, UInt8.le_iff_toNat_le,
      ← UInt8.toNat_inj, UInt8.toNat_ofNat] at hb
    rcases h with rfl | rfl
    · have : '/'.toNat = 47 := rfl
      omega
    · have : '?'.toNat = 63 := rfl
      omega
  · rcases h with rfl | rfl <;> decide
  · intro n hn
    rcases h with rfl | rfl <;> interval_cases n <;> decide

/-- A value whose encoding is dots is those dots. -/
theorem encode_ne_dots {bs : Bytes} (h : bs ≠ [46] ∧ bs ≠ [46, 46]) :
    encode unreserved bs ≠ ['.'] ∧ encode unreserved bs ≠ ['.', '.'] :=
  ⟨fun he => h.1 (encode_injective plain_unreserved (show encode unreserved bs = encode unreserved [46] from he)),
    fun he => h.2 (encode_injective plain_unreserved (show encode unreserved bs = encode unreserved [46, 46] from he))⟩

end Paths

end Percent
