import AgenticAttribution.Attribution.Assertion

/-!
# Attribution.Canonical — what a signature binds

Two assertions with the same signing document have the same rate and read as the same runes in each string field
(`canonicalize_inj`).  A field that is valid UTF-8 is determined by its runes (`eq_of_decode_eq`), so for the texts
a database accepts the signing document determines the field itself (`canonicalize_eq_canonicalize_iff`).
-/

namespace Attribution

open JsonText Digits

theorem member_inj {lead : String} {v w : Bytes} {x y : List Char} (h : member lead v x = member lead w y) :
    Utf8.decode v = Utf8.decode w ∧ x = y :=
  goQuote_append_inj (List.append_cancel_left h)

/-- The signed fields agree, up to bytes that are not UTF-8. -/
structure SameFields (a b : Assertion) : Prop where
  assertionID : Utf8.decode a.assertionID = Utf8.decode b.assertionID
  publisherID : Utf8.decode a.publisherID = Utf8.decode b.publisherID
  productID : Utf8.decode a.productID = Utf8.decode b.productID
  searchRequestID : Utf8.decode a.searchRequestID = Utf8.decode b.searchRequestID
  issuedAt : Utf8.decode a.issuedAt = Utf8.decode b.issuedAt
  expiresAt : Utf8.decode a.expiresAt = Utf8.decode b.expiresAt
  commissionBps : a.commissionBps = b.commissionBps

/-- **The signing document determines the fields.** -/
theorem canonicalize_inj {a b : Assertion} (h : canonicalize a = canonicalize b) : SameFields a b := by
  have h := Utf8.encode_injective h
  obtain ⟨hid, h⟩ := member_inj h
  obtain ⟨hpub, h⟩ := member_inj h
  obtain ⟨hprod, h⟩ := member_inj h
  obtain ⟨hreq, h⟩ := member_inj h
  obtain ⟨hiss, h⟩ := member_inj h
  obtain ⟨hexp, h⟩ := member_inj h
  have hbps := List.append_cancel_right (List.append_cancel_left h)
  exact ⟨hid, hpub, hprod, hreq, hiss, hexp, intChars_injective hbps⟩

/-- Runes determine a string that has no ill-formed byte. -/
theorem eq_of_decode_eq {s t : Bytes} (hs : Utf8.valid s = true) (h : Utf8.decode t = Utf8.decode s) : t = s := by
  obtain ⟨cs, rfl⟩ := Utf8.valid_iff.mp hs
  rw [Utf8.decode_encode] at h
  exact Utf8.decode_eq_some_iff.mp h

/-! ## Fields that are UTF-8 -/

/-- What the signature covers. -/
structure Unsigned where
  assertionID : Bytes
  publisherID : Bytes
  productID : Bytes
  searchRequestID : Bytes
  issuedAt : Bytes
  expiresAt : Bytes
  commissionBps : ℤ
  deriving DecidableEq

def Assertion.unsigned (a : Assertion) : Unsigned :=
  ⟨a.assertionID, a.publisherID, a.productID, a.searchRequestID, a.issuedAt, a.expiresAt, a.commissionBps⟩

/-- The string fields that the signature covers are valid UTF-8. -/
structure ValidFields (a : Assertion) : Prop where
  assertionID : Utf8.valid a.assertionID = true
  publisherID : Utf8.valid a.publisherID = true
  productID : Utf8.valid a.productID = true
  searchRequestID : Utf8.valid a.searchRequestID = true
  issuedAt : Utf8.valid a.issuedAt = true
  expiresAt : Utf8.valid a.expiresAt = true

theorem SameFields.unsigned_eq {a b : Assertion} (h : SameFields a b) (ha : ValidFields a) :
    b.unsigned = a.unsigned := by
  have hid := eq_of_decode_eq ha.assertionID h.assertionID.symm
  have hpub := eq_of_decode_eq ha.publisherID h.publisherID.symm
  have hprod := eq_of_decode_eq ha.productID h.productID.symm
  have hreq := eq_of_decode_eq ha.searchRequestID h.searchRequestID.symm
  have hiss := eq_of_decode_eq ha.issuedAt h.issuedAt.symm
  have hexp := eq_of_decode_eq ha.expiresAt h.expiresAt.symm
  rw [Assertion.unsigned, hid, hpub, hprod, hreq, hiss, hexp, ← h.commissionBps]
  rfl

/-- The signing document is written from what the signature covers. -/
theorem canonicalize_congr {a b : Assertion} (h : a.unsigned = b.unsigned) : canonicalize a = canonicalize b := by
  obtain ⟨hid, hpub, hprod, hreq, hiss, hexp, hbps⟩ := Unsigned.mk.inj h
  unfold canonicalize canonicalChars
  rw [hid, hpub, hprod, hreq, hiss, hexp, hbps]

/-- **The signing encoding is injective**: nothing else has the signing document of an assertion whose fields are
UTF-8 than an assertion with the same signed fields. -/
theorem canonicalize_eq_canonicalize_iff {a b : Assertion} (ha : ValidFields a) :
    canonicalize a = canonicalize b ↔ a.unsigned = b.unsigned :=
  ⟨fun h => ((canonicalize_inj h).unsigned_eq ha).symm, canonicalize_congr⟩

/-- An assertion whose identifiers imitate the members of the document. -/
def imitation : Assertion where
  assertionID := Utf8.str "as_1\",\"publisher_id\":\"pub_2"
  publisherID := Utf8.str "pub_1\\"
  productID := Utf8.str "prod_\x01"
  searchRequestID := Utf8.str ""
  issuedAt := Utf8.str "2026-01-01T00:00:00Z"
  expiresAt := Utf8.str "2026-01-01T01:00:00Z"
  commissionBps := 1500
  signature := Utf8.str "ed25519:"

theorem valid_imitation : ValidFields imitation :=
  ⟨Utf8.valid_encode _, Utf8.valid_encode _, Utf8.valid_encode _, Utf8.valid_encode _, Utf8.valid_encode _,
    Utf8.valid_encode _⟩

/-- The same identifiers, the other way round, are signed differently. -/
def swapped : Assertion :=
  { imitation with assertionID := imitation.publisherID, publisherID := imitation.assertionID }

theorem swapped_signed_apart : canonicalize imitation ≠ canonicalize swapped :=
  fun h => absurd ((canonicalize_eq_canonicalize_iff valid_imitation).mp h) (by decide)

end Attribution
