import Mathlib.Data.List.Basic
import Mathlib.Data.Option.Basic

/-!
# Lib.Utf8 — byte strings and their UTF-8 reading

A `Bytes` is what Go calls a string and Postgres a text value: any sequence of bytes.  `decode` reads it rune by
rune, the way Go ranges over a string: a byte that starts no well-formed sequence is one error of width one
(`none`), and the reading goes on behind it.  `decode_encode` and `decode_eq_some_iff` say that the byte strings
with no error in them are the encodings of texts.
-/

/-- A byte string. -/
abbrev Bytes := List UInt8

instance : LawfulBEq Bytes := inferInstance

namespace Utf8

/-- The UTF-8 encoding of a text. -/
def encode (cs : List Char) : Bytes := cs.flatMap String.utf8EncodeChar

/-- The bytes of a string literal. -/
def str (s : String) : Bytes := encode s.toList

@[simp] theorem encode_nil : encode [] = [] := rfl

@[simp] theorem encode_cons (c : Char) (cs : List Char) :
    encode (c :: cs) = String.utf8EncodeChar c ++ encode cs := rfl

@[simp] theorem encode_append (cs ds : List Char) : encode (cs ++ ds) = encode cs ++ encode ds :=
  List.flatMap_append

/-- The character that the first bytes of `bs` encode, if they are well formed. -/
def decodeRune (bs : Bytes) : Option Char := bs.toByteArray.utf8DecodeChar? 0

theorem decodeRune_encode_append (c : Char) (bs : Bytes) :
    decodeRune (String.utf8EncodeChar c ++ bs) = some c := by
  unfold decodeRune
  rw [List.toByteArray_append]
  exact ByteArray.utf8DecodeChar?_utf8EncodeChar_append

theorem decodeRune_eq_some {bs : Bytes} {c : Char} (h : decodeRune bs = some c) :
    ∃ rest, bs = String.utf8EncodeChar c ++ rest := by
  obtain ⟨l, hl⟩ := ByteArray.exists_of_utf8DecodeChar?_eq_some h
  refine ⟨l.data.toList, List.toByteArray_inj.mp ?_⟩
  rw [hl, List.toByteArray_append]
  congr 1
  apply ByteArray.ext
  rw [List.data_toByteArray]

theorem utf8EncodeChar_inj {c d : Char} {x y : Bytes}
    (h : String.utf8EncodeChar c ++ x = String.utf8EncodeChar d ++ y) : c = d ∧ x = y := by
  have hc := decodeRune_encode_append c x
  rw [h, decodeRune_encode_append, Option.some.injEq] at hc
  subst hc
  exact ⟨rfl, List.append_cancel_left h⟩

/-! ## Reading rune by rune -/

/-- `decode` with a bound on the number of runes read. -/
def runes : ℕ → Bytes → List (Option Char)
  | 0, _ => []
  | _ + 1, [] => []
  | n + 1, b :: bs =>
    match decodeRune (b :: bs) with
    | some c => some c :: runes n ((b :: bs).drop (String.utf8EncodeChar c).length)
    | none => none :: runes n bs

/-- The runes of a byte string in order, `none` for each byte that is part of no well-formed sequence. -/
def decode (bs : Bytes) : List (Option Char) := runes bs.length bs

/-- A string without an ill-formed byte (`utf8.ValidString`). -/
def valid (bs : Bytes) : Bool := (decode bs).all Option.isSome

theorem utf8EncodeChar_length_pos (c : Char) : 0 < (String.utf8EncodeChar c).length :=
  List.length_pos_iff.mpr String.utf8EncodeChar_ne_nil

theorem runes_of_le : ∀ {n : ℕ} {bs : Bytes}, bs.length ≤ n → runes n bs = decode bs := by
  have key : ∀ (m n : ℕ) (bs : Bytes), bs.length ≤ m → bs.length ≤ n → runes m bs = runes n bs := by
    intro m
    induction m with
    | zero =>
      intro n bs hm _
      rw [List.length_eq_zero_iff.mp (Nat.le_zero.mp hm)]
      cases n <;> rfl
    | succ m ih =>
      intro n bs hm hn
      cases bs with
      | nil => cases n <;> rfl
      | cons b bs =>
        obtain ⟨n, rfl⟩ : ∃ k, n = k + 1 := ⟨n - 1, by simp only [List.length_cons] at hn; omega⟩
        simp only [runes]
        cases hd : decodeRune (b :: bs) with
        | none =>
          simp only [List.length_cons] at hm hn
          simp only [ih n bs (by omega) (by omega)]
        | some c =>
          have hpos := utf8EncodeChar_length_pos c
          simp only [List.length_cons] at hm hn
          simp only
          rw [ih n _ (by simp only [List.length_drop, List.length_cons]; omega)
            (by simp only [List.length_drop, List.length_cons]; omega)]
  intro n bs h
  exact key n bs.length bs h (Nat.le_refl _)

@[simp] theorem decode_nil : decode [] = [] := rfl

theorem decode_encodeChar_append (c : Char) (bs : Bytes) :
    decode (String.utf8EncodeChar c ++ bs) = some c :: decode bs := by
  obtain ⟨b, rest, hb⟩ : ∃ b rest, String.utf8EncodeChar c = b :: rest :=
    List.exists_cons_of_ne_nil String.utf8EncodeChar_ne_nil
  have hd := decodeRune_encode_append c bs
  rw [hb, List.cons_append] at hd
  rw [hb, List.cons_append]
  show runes (rest ++ bs).length.succ (b :: (rest ++ bs)) = _
  simp only [runes, hd]
  have hdrop : (b :: (rest ++ bs)).drop (String.utf8EncodeChar c).length = bs := by
    rw [hb, ← List.cons_append, List.drop_left]
  rw [hdrop, runes_of_le (by simp)]

theorem decode_encode (cs : List Char) : decode (encode cs) = cs.map some := by
  induction cs with
  | nil => rfl
  | cons c cs ih => rw [encode_cons, decode_encodeChar_append, ih, List.map_cons]

theorem decode_cons_none {b : UInt8} {bs : Bytes} (h : decodeRune (b :: bs) = none) :
    decode (b :: bs) = none :: decode bs := by
  show runes bs.length.succ (b :: bs) = _
  simp only [runes, h]
  rfl

/-- A byte string that reads without an error is the encoding of the text read. -/
theorem decode_eq_some_iff {bs : Bytes} {cs : List Char} : decode bs = cs.map some ↔ bs = encode cs := by
  refine ⟨fun h => ?_, fun h => h ▸ decode_encode cs⟩
  induction cs generalizing bs with
  | nil =>
    cases bs with
    | nil => rfl
    | cons b bs =>
      exfalso
      cases hd : decodeRune (b :: bs) with
      | none => rw [decode_cons_none hd] at h; cases h
      | some c =>
        obtain ⟨rest, hr⟩ := decodeRune_eq_some hd
        rw [hr, decode_encodeChar_append] at h
        cases h
  | cons d cs ih =>
    cases bs with
    | nil => cases h
    | cons b bs =>
      cases hd : decodeRune (b :: bs) with
      | none => rw [decode_cons_none hd] at h; cases h
      | some c =>
        obtain ⟨rest, hr⟩ := decodeRune_eq_some hd
        rw [hr, decode_encodeChar_append, List.map_cons, List.cons.injEq, Option.some.injEq] at h
        obtain ⟨rfl, h⟩ := h
        rw [hr, ih h, encode_cons]

theorem exists_map_some : ∀ {rs : List (Option Char)}, (∀ r ∈ rs, r.isSome = true) →
    ∃ cs : List Char, rs = cs.map some
  | [], _ => ⟨[], rfl⟩
  | r :: rs, h => by
    obtain ⟨c, rfl⟩ := Option.isSome_iff_exists.mp (h r (by simp))
    obtain ⟨cs, rfl⟩ := exists_map_some fun x hx => h x (List.mem_cons_of_mem _ hx)
    exact ⟨c :: cs, rfl⟩

theorem valid_iff {bs : Bytes} : valid bs = true ↔ ∃ cs, bs = encode cs := by
  unfold valid
  rw [List.all_eq_true]
  constructor
  · intro h
    obtain ⟨cs, hcs⟩ := exists_map_some h
    exact ⟨cs, decode_eq_some_iff.mp hcs⟩
  · rintro ⟨cs, rfl⟩ x hx
    rw [decode_encode] at hx
    obtain ⟨c, -, rfl⟩ := List.mem_map.mp hx
    rfl

theorem valid_encode (cs : List Char) : valid (encode cs) = true := valid_iff.mpr ⟨cs, rfl⟩

/-- The text of a string, with U+FFFD for every byte that is part of no rune. -/
def text (bs : Bytes) : List Char := (decode bs).map fun r => r.getD '\ufffd'

@[simp] theorem text_encode (cs : List Char) : text (encode cs) = cs := by
  rw [text, decode_encode, List.map_map]
  exact List.map_id cs

theorem encode_text {bs : Bytes} (h : valid bs = true) : encode (text bs) = bs := by
  obtain ⟨cs, rfl⟩ := valid_iff.mp h
  rw [text_encode]

theorem encode_injective : Function.Injective encode := by
  intro cs ds h
  have hd := decode_encode cs
  rw [h, decode_encode] at hd
  exact (List.map_injective_iff.mpr (Option.some_injective Char) hd).symm

/-- A text starts with another exactly if its bytes do. -/
theorem encode_prefix_iff {ps cs : List Char} : encode ps <+: encode cs ↔ ps <+: cs := by
  constructor
  · intro h
    induction ps generalizing cs with
    | nil => exact List.nil_prefix
    | cons p ps ih =>
      obtain ⟨rest, hrest⟩ := h
      rw [encode_cons, List.append_assoc] at hrest
      cases cs with
      | nil =>
        have hne := utf8EncodeChar_length_pos p
        have hlen := congrArg List.length hrest
        simp only [List.length_append, encode_nil, List.length_nil] at hlen
        omega
      | cons c cs =>
        obtain ⟨rfl, hcs⟩ := utf8EncodeChar_inj hrest
        exact List.cons_prefix_cons.mpr ⟨rfl, ih ⟨rest, hcs⟩⟩
  · rintro ⟨rest, rfl⟩
    rw [encode_append]
    exact List.prefix_append _ _

/-! ## Boundaries -/

section Boundary

/-- The bytes can be cut between two runes at `k`. -/
def Boundary (bs : Bytes) (k : ℕ) : Prop := ∃ cs ds, bs = encode cs ++ encode ds ∧ (encode cs).length = k

theorem boundary_zero (cs : List Char) : Boundary (encode cs) 0 := ⟨[], cs, rfl, rfl⟩

theorem Boundary.cons {cs : List Char} {k : ℕ} (h : Boundary (encode cs) k) (c : Char) :
    Boundary (encode (c :: cs)) ((String.utf8EncodeChar c).length + k) := by
  obtain ⟨ps, qs, hcs, rfl⟩ := h
  refine ⟨c :: ps, qs, ?_, ?_⟩
  · rw [encode_cons, encode_cons, hcs, List.append_assoc]
  · rw [encode_cons, List.length_append]

/-- What stands in front of a boundary is UTF-8. -/
theorem Boundary.valid_take {bs : Bytes} {k : ℕ} (h : Boundary bs k) : valid (bs.take k) = true := by
  obtain ⟨cs, ds, rfl, rfl⟩ := h
  rw [List.take_left]
  exact valid_encode cs

theorem utf8EncodeChar_length_le (c : Char) : (String.utf8EncodeChar c).length ≤ 4 := by
  unfold String.utf8EncodeChar
  dsimp only
  split_ifs <;> simp

/-- A boundary is at most three bytes away. -/
theorem exists_boundary_near {cs : List Char} {k : ℕ} (h : k ≤ (encode cs).length) :
    ∃ j, Boundary (encode cs) j ∧ j ≤ k ∧ k ≤ j + 3 := by
  induction cs generalizing k with
  | nil =>
    rw [encode_nil, List.length_nil] at h
    exact ⟨0, boundary_zero [], Nat.zero_le k, by omega⟩
  | cons c cs ih =>
    have hlen := utf8EncodeChar_length_le c
    rw [encode_cons, List.length_append] at h
    by_cases hk : k < (String.utf8EncodeChar c).length
    · exact ⟨0, boundary_zero (c :: cs), Nat.zero_le k, by omega⟩
    · obtain ⟨j, hj, hle, hnear⟩ := ih (k := k - (String.utf8EncodeChar c).length) (by omega)
      exact ⟨(String.utf8EncodeChar c).length + j, hj.cons c, by omega, by omega⟩

/-- A boundary inside the first rune is the one in front of it. -/
theorem Boundary.of_cons {c : Char} {cs : List Char} {k : ℕ} (h : Boundary (encode (c :: cs)) k) :
    k = 0 ∨ ∃ j, k = (String.utf8EncodeChar c).length + j ∧ Boundary (encode cs) j := by
  obtain ⟨ps, qs, hcs, rfl⟩ := h
  rw [← encode_append] at hcs
  have hcs : c :: cs = ps ++ qs := encode_injective hcs
  cases ps with
  | nil => exact Or.inl rfl
  | cons p ps =>
    obtain ⟨rfl, rfl⟩ := List.cons.inj hcs
    refine Or.inr ⟨(encode ps).length, ?_, ps, qs, encode_append ps qs, rfl⟩
    rw [encode_cons, List.length_append]

/-- The first byte of a rune is below 128 or from 192 on, the others lie between. -/
theorem utf8EncodeChar_bytes (c : Char) : ∃ b rest, String.utf8EncodeChar c = b :: rest ∧
    (b.toNat < 128 ∨ 192 ≤ b.toNat) ∧ ∀ t ∈ rest, 128 ≤ t.toNat ∧ t.toNat < 192 := by
  unfold String.utf8EncodeChar
  dsimp only
  split_ifs with h1 h2 h3
  · refine ⟨_, _, rfl, Or.inl ?_, fun t ht => absurd ht List.not_mem_nil⟩
    rw [UInt8.toNat_ofNat']
    omega
  all_goals
    refine ⟨_, _, rfl, Or.inr ?_, ?_⟩
    · rw [UInt8.toNat_ofNat']
      omega
    · intro t ht
      simp only [List.mem_cons, List.not_mem_nil, or_false] at ht
      rcases ht with rfl | rfl | rfl <;> rw [UInt8.toNat_ofNat'] <;> omega

/-- Bytes that no rune begins with. -/
theorem decode_continuation {bs : Bytes} (h : ∀ b ∈ bs, 128 ≤ b.toNat ∧ b.toNat < 192) :
    decode bs = bs.map fun _ => none := by
  induction bs with
  | nil => rfl
  | cons b bs ih =>
    have hnone : decodeRune (b :: bs) = none := by
      by_contra hsome
      obtain ⟨d, hd⟩ := Option.ne_none_iff_exists'.mp hsome
      obtain ⟨r, hr⟩ := decodeRune_eq_some hd
      obtain ⟨b', rest, hb', hfirst, -⟩ := utf8EncodeChar_bytes d
      rw [hb', List.cons_append] at hr
      obtain ⟨rfl, -⟩ := List.cons.inj hr
      have hb := h b List.mem_cons_self
      omega
    rw [decode_cons_none hnone, ih fun t ht => h t (List.mem_cons_of_mem b ht), List.map_cons]

/-- A rune that is cut off is none. -/
theorem decode_take_rune {c : Char} {k : ℕ} (h : k < (String.utf8EncodeChar c).length) :
    decode ((String.utf8EncodeChar c).take k) = ((String.utf8EncodeChar c).take k).map fun _ => none := by
  cases k with
  | zero => rfl
  | succ k =>
    obtain ⟨b, rest, hc, -, hrest⟩ := utf8EncodeChar_bytes c
    have hnone : decodeRune ((String.utf8EncodeChar c).take (k + 1)) = none := by
      by_contra hsome
      obtain ⟨d, hd⟩ := Option.ne_none_iff_exists'.mp hsome
      obtain ⟨r, hr⟩ := decodeRune_eq_some hd
      have hwhole := List.take_append_drop (k + 1) (String.utf8EncodeChar c)
      rw [hr, List.append_assoc, ← List.append_nil (String.utf8EncodeChar c)] at hwhole
      obtain ⟨rfl, -⟩ := utf8EncodeChar_inj hwhole
      have hlen := congrArg List.length hr
      rw [List.length_take, List.length_append] at hlen
      omega
    rw [hc, List.take_succ_cons] at hnone ⊢
    rw [decode_cons_none hnone, decode_continuation fun t ht => hrest t (List.mem_of_mem_take ht), List.map_cons]

/-- **A text that is cut off** reads as what stands in front of the cut, with replacements for the rune that is
cut. -/
theorem text_take {cs : List Char} {k : ℕ} (h : k < (encode cs).length) : ∃ ps ws,
    text ((encode cs).take k) = ps ++ ws ∧ ps <+: cs ∧ ps ≠ cs ∧ k < (encode ps).length + 4 ∧
      ∀ w ∈ ws, w = '\ufffd' := by
  induction cs generalizing k with
  | nil => exact absurd h (Nat.not_lt_zero k)
  | cons c cs ih =>
    rw [encode_cons, List.length_append] at h
    rw [encode_cons]
    by_cases hk : k < (String.utf8EncodeChar c).length
    · have hlen := utf8EncodeChar_length_le c
      refine ⟨[], text ((String.utf8EncodeChar c ++ encode cs).take k), rfl, List.nil_prefix,
        (List.cons_ne_nil c cs).symm, by rw [encode_nil, List.length_nil]; omega, ?_⟩
      intro w hw
      rw [List.take_append_of_le_length (Nat.le_of_lt hk), text, decode_take_rune hk, List.map_map, List.mem_map] at hw
      obtain ⟨b, -, rfl⟩ := hw
      rfl
    · obtain ⟨ps, ws, htext, hprefix, hne, hnear, hws⟩ :=
        ih (k := k - (String.utf8EncodeChar c).length) (by omega)
      refine ⟨c :: ps, ws, ?_, List.cons_prefix_cons.mpr ⟨rfl, hprefix⟩, ?_, ?_, hws⟩
      · rw [List.take_append, List.take_of_length_le (Nat.le_of_not_lt hk), text, decode_encodeChar_append,
          List.map_cons]
        exact congrArg (c :: ·) htext
      · intro heq
        exact hne (List.cons.inj heq).2
      · rw [encode_cons, List.length_append]
        omega

end Boundary

/-! ## ASCII -/

section Ascii

theorem utf8EncodeChar_of_lt {c : Char} (h : c.toNat < 128) :
    String.utf8EncodeChar c = [UInt8.ofNat c.toNat] := by
  have hc : c.val.toNat ≤ 0x7f := by
    have : c.toNat = c.val.toNat := rfl
    omega
  simp only [String.utf8EncodeChar, if_pos hc]
  rfl

theorem le_of_mem_utf8EncodeChar {c : Char} {b : UInt8} (h : 128 ≤ c.toNat) (hb : b ∈ String.utf8EncodeChar c) :
    128 ≤ b.toNat := by
  have hc : ¬c.val.toNat ≤ 0x7f := by
    have : c.toNat = c.val.toNat := rfl
    omega
  simp only [String.utf8EncodeChar, if_neg hc] at hb
  split_ifs at hb <;> simp only [List.mem_cons, List.not_mem_nil, or_false] at hb <;>
    rcases hb with rfl | rfl | rfl | rfl <;> simp only [UInt8.toNat_ofNat'] <;> omega

/-- The byte of an ASCII character stands for it and nothing else. -/
theorem ascii_mem_utf8EncodeChar {a c : Char} (ha : a.toNat < 128) :
    UInt8.ofNat a.toNat ∈ String.utf8EncodeChar c ↔ c = a := by
  have hnat : (UInt8.ofNat a.toNat).toNat = a.toNat := by
    rw [UInt8.toNat_ofNat']
    omega
  by_cases hc : c.toNat < 128
  · rw [utf8EncodeChar_of_lt hc, List.mem_singleton]
    constructor
    · intro h
      have hbytes : (UInt8.ofNat a.toNat).toNat = (UInt8.ofNat c.toNat).toNat := congrArg UInt8.toNat h
      rw [hnat, UInt8.toNat_ofNat'] at hbytes
      apply Char.ext
      apply UInt32.toNat_inj.mp
      show c.toNat = a.toNat
      omega
    · rintro rfl
      rfl
  · constructor
    · intro h
      have := le_of_mem_utf8EncodeChar (Nat.le_of_not_lt hc) h
      omega
    · rintro rfl
      exact absurd ha hc

theorem ascii_mem_encode {a : Char} {cs : List Char} (ha : a.toNat < 128) :
    UInt8.ofNat a.toNat ∈ encode cs ↔ a ∈ cs := by
  unfold encode
  rw [List.mem_flatMap]
  constructor
  · rintro ⟨c, hc, h⟩
    rwa [(ascii_mem_utf8EncodeChar ha).mp h] at hc
  · exact fun h => ⟨a, h, (ascii_mem_utf8EncodeChar ha).mpr rfl⟩

/-- A zero byte stands for a NUL and nothing else. -/
theorem zero_mem_encode {cs : List Char} : 0 ∈ encode cs ↔ '\x00' ∈ cs := ascii_mem_encode (a := '\x00') (by decide)

/-- The characters that the single bytes of a string stand for; a byte behind ASCII stands for no ASCII one. -/
def latin1 (bs : Bytes) : List Char := bs.map fun b => Char.ofNat b.toNat

theorem latin1_encode {cs : List Char} (h : ∀ c ∈ cs, c.toNat < 128) : latin1 (encode cs) = cs := by
  induction cs with
  | nil => rfl
  | cons c cs ih =>
    have hc := h c List.mem_cons_self
    have htail := ih fun d hd => h d (List.mem_cons_of_mem _ hd)
    have hn : (UInt8.ofNat c.toNat).toNat = c.toNat := by
      rw [UInt8.toNat_ofNat']
      omega
    rw [encode_cons, utf8EncodeChar_of_lt hc, latin1, List.map_append, List.map_singleton, hn, Char.ofNat_toNat]
    exact congrArg (c :: ·) htail

end Ascii

end Utf8
