import AgenticAttribution.Lib.Utf8

/-!
# Lib.TextDecoder — the UTF-8 decoder of the Encoding standard

`readText` is the standard's state machine, byte by byte, with U+FFFD for every error; `decode` is what
`new TextDecoder().decode(bytes)` makes of it, which drops a byte order mark.  A text is read back
(`readText_encode`).  So the bytes that survive being decoded and encoded again are the UTF-8 ones without a mark
(`encode_decode_iff`).
-/

namespace TextDecoder

/-- Where the decoder stands: the sequence that it is in, and the bounds of the next byte. -/
structure State where
  codePoint : ℕ := 0
  bytesSeen : ℕ := 0
  bytesNeeded : ℕ := 0
  lowerBoundary : ℕ := 0x80
  upperBoundary : ℕ := 0xBF
  deriving DecidableEq

/-- REPLACEMENT CHARACTER. -/
def replacement : Char := '\ufffd'

/-- A byte that opens a sequence, or is one. -/
def opening (byte : ℕ) : List Char × State :=
  if byte ≤ 0x7F then ([Char.ofNat byte], {})
  else if 0xC2 ≤ byte ∧ byte ≤ 0xDF then ([], { codePoint := byte % 0x20, bytesNeeded := 1 })
  else if 0xE0 ≤ byte ∧ byte ≤ 0xEF then
    ([], { codePoint := byte % 0x10
           bytesNeeded := 2
           lowerBoundary := if byte = 0xE0 then 0xA0 else 0x80
           upperBoundary := if byte = 0xED then 0x9F else 0xBF })
  else if 0xF0 ≤ byte ∧ byte ≤ 0xF4 then
    ([], { codePoint := byte % 0x08
           bytesNeeded := 3
           lowerBoundary := if byte = 0xF0 then 0x90 else 0x80
           upperBoundary := if byte = 0xF4 then 0x8F else 0xBF })
  else ([replacement], {})

/-- The handler of the UTF-8 decoder. -/
def handler (s : State) (byte : ℕ) : List Char × State :=
  if s.bytesNeeded = 0 then opening byte
  else if byte < s.lowerBoundary ∨ s.upperBoundary < byte then
    -- the byte goes back to the queue, behind the error
    (replacement :: (opening byte).1, (opening byte).2)
  else if s.bytesSeen + 1 = s.bytesNeeded then ([Char.ofNat (s.codePoint * 64 + byte % 64)], {})
  else
    ([], { codePoint := s.codePoint * 64 + byte % 64
           bytesSeen := s.bytesSeen + 1
           bytesNeeded := s.bytesNeeded })

def process (s : State) : Bytes → List Char
  | [] => if s.bytesNeeded = 0 then [] else [replacement]
  | b :: bs => (handler s b.toNat).1 ++ process (handler s b.toNat).2 bs

/-- The text of a byte sequence. -/
def readText (bs : Bytes) : List Char := process {} bs

/-- `new TextDecoder().decode(bytes)`. -/
def decode : Bytes → List Char
  | 0xEF :: 0xBB :: 0xBF :: bs => readText bs
  | bs => readText bs

/-! ## A text is read back -/

section Read

variable {s : State} {byte : ℕ}

theorem handler_last (hneeded : s.bytesSeen + 1 = s.bytesNeeded) (hlo : s.lowerBoundary ≤ byte)
    (hhi : byte ≤ s.upperBoundary) : handler s byte = ([Char.ofNat (s.codePoint * 64 + byte % 64)], {}) := by
  rw [handler, if_neg (by omega), if_neg (by omega), if_pos hneeded]

theorem handler_more (hneeded : s.bytesSeen + 1 < s.bytesNeeded) (hlo : s.lowerBoundary ≤ byte)
    (hhi : byte ≤ s.upperBoundary) : handler s byte = ([],
      { codePoint := s.codePoint * 64 + byte % 64
        bytesSeen := s.bytesSeen + 1
        bytesNeeded := s.bytesNeeded }) := by
  rw [handler, if_neg (by omega), if_neg (by omega), if_neg (by omega)]

/-- A byte between 0x80 and 0xBF, which goes on with a sequence. -/
structure Trails (b : UInt8) : Prop where
  lower : 0x80 ≤ b.toNat
  upper : b.toNat ≤ 0xBF

theorem process_one {a : UInt8} (ha : a.toNat ≤ 0x7F) (bs : Bytes) :
    process {} (a :: bs) = Char.ofNat a.toNat :: process {} bs := by
  rw [process, handler, if_pos rfl, opening, if_pos ha]
  rfl

theorem process_two {a b : UInt8} (ha : 0xC2 ≤ a.toNat ∧ a.toNat ≤ 0xDF) (hb : Trails b) (bs : Bytes) :
    process {} (a :: b :: bs) = Char.ofNat (a.toNat % 0x20 * 64 + b.toNat % 64) :: process {} bs := by
  have hopen : handler {} a.toNat = ([], { codePoint := a.toNat % 0x20, bytesNeeded := 1 }) := by
    rw [handler, if_pos rfl, opening, if_neg (by omega), if_pos ha]
  rw [process, hopen, process, handler_last rfl hb.lower hb.upper]
  rfl

theorem process_three {a b c : UInt8} (ha : 0xE0 ≤ a.toNat ∧ a.toNat ≤ 0xEF) (hb : Trails b)
    (hlo : a.toNat = 0xE0 → 0xA0 ≤ b.toNat) (hhi : a.toNat = 0xED → b.toNat ≤ 0x9F) (hc : Trails c) (bs : Bytes) :
    process {} (a :: b :: c :: bs) =
      Char.ofNat ((a.toNat % 0x10 * 64 + b.toNat % 64) * 64 + c.toNat % 64) :: process {} bs := by
  have hopen : handler {} a.toNat = ([],
      { codePoint := a.toNat % 0x10
        bytesNeeded := 2
        lowerBoundary := if a.toNat = 0xE0 then 0xA0 else 0x80
        upperBoundary := if a.toNat = 0xED then 0x9F else 0xBF }) := by
    rw [handler, if_pos rfl, opening, if_neg (by omega), if_neg (by omega), if_pos ha]
  have hblo : (if a.toNat = 0xE0 then 0xA0 else 0x80) ≤ b.toNat := by
    split_ifs with h
    · exact hlo h
    · exact hb.lower
  have hbhi : b.toNat ≤ if a.toNat = 0xED then 0x9F else 0xBF := by
    split_ifs with h
    · exact hhi h
    · exact hb.upper
  rw [process, hopen, process, handler_more (show 0 + 1 < 2 by decide) hblo hbhi, process,
    handler_last rfl hc.lower hc.upper]
  rfl

theorem process_four {a b c d : UInt8} (ha : 0xF0 ≤ a.toNat ∧ a.toNat ≤ 0xF4) (hb : Trails b)
    (hlo : a.toNat = 0xF0 → 0x90 ≤ b.toNat) (hhi : a.toNat = 0xF4 → b.toNat ≤ 0x8F) (hc : Trails c) (hd : Trails d)
    (bs : Bytes) : process {} (a :: b :: c :: d :: bs) =
      Char.ofNat (((a.toNat % 0x08 * 64 + b.toNat % 64) * 64 + c.toNat % 64) * 64 + d.toNat % 64) ::
        process {} bs := by
  have hopen : handler {} a.toNat = ([],
      { codePoint := a.toNat % 0x08
        bytesNeeded := 3
        lowerBoundary := if a.toNat = 0xF0 then 0x90 else 0x80
        upperBoundary := if a.toNat = 0xF4 then 0x8F else 0xBF }) := by
    rw [handler, if_pos rfl, opening, if_neg (by omega), if_neg (by omega), if_neg (by omega), if_pos ha]
  have hblo : (if a.toNat = 0xF0 then 0x90 else 0x80) ≤ b.toNat := by
    split_ifs with h
    · exact hlo h
    · exact hb.lower
  have hbhi : b.toNat ≤ if a.toNat = 0xF4 then 0x8F else 0xBF := by
    split_ifs with h
    · exact hhi h
    · exact hb.upper
  rw [process, hopen, process, handler_more (show 0 + 1 < 3 by decide) hblo hbhi, process,
    handler_more (show 1 + 1 < 3 by decide) hc.lower hc.upper, process, handler_last rfl hd.lower hd.upper]
  rfl

theorem toNat_ofNat {n : ℕ} (h : n < 256) : (UInt8.ofNat n).toNat = n := by
  rw [UInt8.toNat_ofNat']
  exact Nat.mod_eq_of_lt h

theorem trails_ofNat (n : ℕ) : Trails (UInt8.ofNat (n % 0x40 + 0x80)) := by
  have h := toNat_ofNat (n := n % 0x40 + 0x80) (by omega)
  constructor
  · omega
  · omega

/-- **One character is read back**, whatever follows it. -/
theorem process_utf8EncodeChar (c : Char) (bs : Bytes) :
    process {} (String.utf8EncodeChar c ++ bs) = c :: process {} bs := by
  have hself : ∀ n, n = c.val.toNat → Char.ofNat n = c := by
    rintro n rfl
    exact Char.ofNat_toNat c
  have hrange : c.val.toNat < 0xD800 ∨ (0xDFFF < c.val.toNat ∧ c.val.toNat < 0x110000) := c.valid
  unfold String.utf8EncodeChar
  dsimp only
  split_ifs with h1 h2 h3
  · have ha := toNat_ofNat (n := c.val.toNat) (by omega)
    refine (process_one (by omega) bs).trans ?_
    rw [hself _ ha]
  · have ha := toNat_ofNat (n := c.val.toNat / 64 % 0x20 + 0xc0) (by omega)
    have hb := toNat_ofNat (n := c.val.toNat % 0x40 + 0x80) (by omega)
    refine (process_two (by omega) (trails_ofNat _) bs).trans ?_
    rw [ha, hb, hself _ (by omega)]
  · have ha := toNat_ofNat (n := c.val.toNat / 4096 % 0x10 + 0xe0) (by omega)
    have hb := toNat_ofNat (n := c.val.toNat / 64 % 0x40 + 0x80) (by omega)
    have hc := toNat_ofNat (n := c.val.toNat % 0x40 + 0x80) (by omega)
    refine (process_three (by omega) (trails_ofNat _) (by omega) (by omega) (trails_ofNat _) bs).trans ?_
    rw [ha, hb, hc, hself _ (by omega)]
  · have ha := toNat_ofNat (n := c.val.toNat / 262144 % 0x08 + 0xf0) (by omega)
    have hb := toNat_ofNat (n := c.val.toNat / 4096 % 0x40 + 0x80) (by omega)
    have hc := toNat_ofNat (n := c.val.toNat / 64 % 0x40 + 0x80) (by omega)
    have hd := toNat_ofNat (n := c.val.toNat % 0x40 + 0x80) (by omega)
    refine (process_four (by omega) (trails_ofNat _) (by omega) (by omega) (trails_ofNat _) (trails_ofNat _)
      bs).trans ?_
    rw [ha, hb, hc, hd, hself _ (by omega)]

theorem readText_encode (cs : List Char) : readText (Utf8.encode cs) = cs := by
  unfold readText
  induction cs with
  | nil => rfl
  | cons c cs ih => rw [Utf8.encode_cons, process_utf8EncodeChar, ih]

-- a sequence that breaks off is one error, and the byte that breaks it is read again
example : readText [0xE2, 0x82, 0x41, 0xFF] = ['\ufffd', 'A', '\ufffd'] := by decide

/-- The mark is dropped. -/
theorem decode_mark (bs : Bytes) : decode (0xEF :: 0xBB :: 0xBF :: bs) = readText bs := rfl

theorem decode_of_no_mark {bs : Bytes} (h : ∀ rest, bs ≠ 0xEF :: 0xBB :: 0xBF :: rest) : decode bs = readText bs := by
  unfold decode
  split
  · exact absurd rfl (h _)
  · rfl

/-- **What survives decoding and encoding** is UTF-8 without a byte order mark. -/
theorem encode_decode_iff (bs : Bytes) : Utf8.encode (decode bs) = bs ↔
    Utf8.valid bs = true ∧ ∀ rest, bs ≠ 0xEF :: 0xBB :: 0xBF :: rest := by
  constructor
  · intro h
    have hvalid : Utf8.valid bs = true := h ▸ Utf8.valid_encode (decode bs)
    refine ⟨hvalid, ?_⟩
    rintro rest rfl
    have hmark : readText (0xEF :: 0xBB :: 0xBF :: rest) = '\ufeff' :: readText rest :=
      process_utf8EncodeChar '\ufeff' rest
    obtain ⟨cs, hcs⟩ := Utf8.valid_iff.mp hvalid
    have hread : cs = '\ufeff' :: readText rest := by rw [← hmark, hcs, readText_encode]
    have hlen := congrArg List.length (hcs.trans (congrArg Utf8.encode hread))
    have hsame := congrArg List.length h
    rw [decode_mark] at hsame
    rw [Utf8.encode_cons, List.length_append] at hlen
    have hpos := Utf8.utf8EncodeChar_length_pos '\ufeff'
    omega
  · rintro ⟨hvalid, hmark⟩
    obtain ⟨cs, rfl⟩ := Utf8.valid_iff.mp hvalid
    rw [decode_of_no_mark hmark, readText_encode]

end Read

end TextDecoder
