import AgenticAttribution.Types.Verify

/-!
# Types.Http — what the gateway and the merchant share

Both are TypeScript services that read an assertion out of a header, verify it, and report what they refuse.  The
platform they run on is a parameter with the laws its documentation gives: `JSON.parse`, the reading of bytes as
UTF-8, and Node's `Buffer`.
-/

namespace Types

open Attribution

/-- BYTE ORDER MARK, in UTF-8. -/
def byteOrderMark : Bytes := [0xEF, 0xBB, 0xBF]

/-- The mark is one character of the text. -/
theorem text_mark (bs : Bytes) : Utf8.text (byteOrderMark ++ bs) = '\ufeff' :: Utf8.text bs := by
  have hmark : byteOrderMark = String.utf8EncodeChar '\ufeff' := by decide
  rw [hmark, Utf8.text, Utf8.decode_encodeChar_append]
  rfl

theorem getD_forgiving {cs : List Char} {bs : Bytes} (h : Base64.forgiving (Base64.symsOfText cs) = some bs) :
    (Base64.forgiving (Base64.symsOfText cs)).getD [] = bs := by
  rw [h]
  rfl

/-- The platform of a TypeScript service. -/
structure Runtime where
  /-- `JSON.parse`; `none` is a `SyntaxError`. -/
  parse : List Char → Option Json
  /-- Bytes read as UTF-8, with replacement characters for what is not. -/
  readText : Bytes → List Char
  /-- `Buffer.from(text, 'base64')`. -/
  bufferFrom : List Char → Bytes
  /-- `Date.parse` where the standard leaves it open. -/
  otherDate : Option Json → Option ℤ
  /-- The wording of a `TypeError` and of a `SyntaxError`. -/
  typeError : List Char
  syntaxError : List Char
  /-- The byte order mark is no blank of JSON. -/
  parse_mark : ∀ cs, parse ('\ufeff' :: cs) = none
  readText_mark : ∀ bs, readText (byteOrderMark ++ bs) = '\ufeff' :: readText bs
  bufferFrom_of_forgiving : ∀ {cs bs}, Base64.forgiving (Base64.symsOfText cs) = some bs → bufferFrom cs = bs

/-- `new TextDecoder().decode(bytes)`, which drops a byte order mark. -/
def Runtime.textDecode (rt : Runtime) (bs : Bytes) : List Char :=
  rt.readText (if byteOrderMark.isPrefixOf bs then bs.drop byteOrderMark.length else bs)

/-- `decodeHeaderJson`; `none` if it throws. -/
def Runtime.decodeHeaderJson (rt : Runtime) (encoded : List Char) : Option Json :=
  match Base64.forgiving (Base64.symsOfText encoded) with
  | none => none
  | some bs => rt.parse (rt.textDecode bs)

/-- The reading that the merchant reports from; `none` if it throws. -/
def Runtime.decodeBuffer (rt : Runtime) (encoded : List Char) : Option Json :=
  rt.parse (rt.readText (rt.bufferFrom encoded))

/-- Where both readings give a value, it is the same. -/
theorem Runtime.decodeBuffer_of_decodeHeaderJson {rt : Runtime} {encoded : List Char} {v : Json}
    (h : rt.decodeHeaderJson encoded = some v) :
    rt.decodeBuffer encoded = some v ∨ rt.decodeBuffer encoded = none := by
  unfold Runtime.decodeHeaderJson at h
  split at h
  · cases h
  · rename_i bs hbs
    unfold Runtime.decodeBuffer
    rw [rt.bufferFrom_of_forgiving hbs]
    unfold Runtime.textDecode at h
    split_ifs at h with hmark
    · obtain ⟨rest, rfl⟩ := List.isPrefixOf_iff_prefix.mp hmark
      rw [rt.readText_mark, rt.parse_mark]
      exact Or.inr rfl
    · exact Or.inl h

/-- A text that opens an object is read as it was written. -/
theorem Runtime.textDecode_text {rt : Runtime} {text : List Char} (hread : ∀ cs, rt.readText (Utf8.encode cs) = cs)
    (h : text.head? = some '\x7b') : rt.textDecode (Utf8.encode text) = text := by
  have hmark : byteOrderMark.isPrefixOf (Utf8.encode text) = false := by
    cases text with
    | nil => cases h
    | cons c rest =>
      obtain rfl := Option.some.inj h
      rfl
  rw [Runtime.textDecode, hmark]
  exact hread text

/-- A header that was written from a value is read back as what the platform parses. -/
theorem Runtime.decodeHeaderJson_encode {rt : Runtime} {text : List Char} {v : Json}
    (hread : rt.textDecode (Utf8.encode text) = text) (hparse : rt.parse text = some v) :
    rt.decodeHeaderJson (Base64.encodeStd (Utf8.encode text)) = some v := by
  have hbytes := Base64.forgiving_of_decodeStd (Base64.decodeStd_encodeStd (Utf8.encode text))
  rw [Runtime.decodeHeaderJson, hbytes]
  simp only [hread, hparse]

structure Response where
  status : ℕ
  body : Json

/-- A response that names what went wrong. -/
def refuse (status : ℕ) (error reason : List Char) : Response :=
  ⟨status, Json.ofProps [("error", some (.str error)), ("reason", some (.str reason))]⟩

/-- A response without a reason. -/
def fault (status : ℕ) (error : List Char) : Response := ⟨status, Json.ofProps [("error", some (.str error))]⟩

/-- `body?.reason`. -/
def Response.reason (r : Response) : Option Json := r.body.prop "reason"

@[simp] theorem reason_refuse (status : ℕ) (error reason : List Char) :
    (refuse status error reason).reason = some (.str reason) := by
  show (Json.ofProps _).prop "reason" = _
  rw [Json.prop_ofProps_of_ne (by decide), Json.prop_ofProps_self]

@[simp] theorem reason_fault (status : ℕ) (error : List Char) : (fault status error).reason = none := by
  show (Json.ofProps _).prop "reason" = _
  rw [Json.prop_ofProps_of_ne (by decide), Json.prop_ofProps_nil]

/-- `RejectionReport`; what its types promise is not checked. -/
structure RejectionReport where
  publisher_id : Json
  assertion_id : Json
  merchant_id : Json
  reason : Json
  detail : Json

/-- The body of the report. -/
def RejectionReport.toJson (r : RejectionReport) : Json :=
  Json.ofProps [("publisher_id", some r.publisher_id), ("assertion_id", some r.assertion_id),
    ("merchant_id", some r.merchant_id), ("reason", some r.reason), ("detail", some r.detail)]

/-- `UNKNOWN_PUBLISHER`. -/
def unknownPublisher : Json := .str "unknown".toList

end Types
