import AgenticAttribution.Attribution.Canonical
import AgenticAttribution.Types.Verify
import Mathlib.Algebra.Order.BigOperators.Group.List

/-!
# Types.CrossLanguage — the Go and the TypeScript verifier side by side

The two signing documents agree exactly on fields without a line or paragraph separator
(`canonicalize_eq_iff`): Go's encoder escapes U+2028 and U+2029 whatever its HTML setting, `JSON.stringify` never
does.  On equal documents, TypeScript accepts whatever Go accepts (`ok_of_verify_eq_none`), and more: `atob` also
takes base64 without its padding or with blanks in it (`verdicts_agree_iff`).
-/

namespace Types

open Attribution Calendar JsonText Digits

/-! ## The signing document -/

section Document

/-- The signed fields, as text. -/
structure SignedFields where
  assertion_id : List Char
  publisher_id : List Char
  product_id : List Char
  search_request_id : List Char
  issued_at : List Char
  expires_at : List Char
  commission_bps : ℤ
  bps_range : 0 ≤ commission_bps ∧ commission_bps ≤ 10000

/-- The fields in Go. -/
def SignedFields.toGo (f : SignedFields) : Assertion where
  assertionID := Utf8.encode f.assertion_id
  publisherID := Utf8.encode f.publisher_id
  productID := Utf8.encode f.product_id
  searchRequestID := Utf8.encode f.search_request_id
  issuedAt := Utf8.encode f.issued_at
  expiresAt := Utf8.encode f.expires_at
  commissionBps := f.commission_bps
  signature := []

/-- The fields in TypeScript; a rate in its range prints as its decimal numeral. -/
def SignedFields.toTs (f : SignedFields) : AttributionAssertion where
  assertion_id := some (.str f.assertion_id)
  publisher_id := some (.str f.publisher_id)
  product_id := some (.str f.product_id)
  search_request_id := some (.str f.search_request_id)
  issued_at := some (.str f.issued_at)
  expires_at := some (.str f.expires_at)
  commission_bps := some (.num (intChars f.commission_bps))
  signature := none

/-- The six texts. -/
def SignedFields.texts (f : SignedFields) : List (List Char) :=
  [f.assertion_id, f.publisher_id, f.product_id, f.search_request_id, f.issued_at, f.expires_at]

/-- No text has a line or paragraph separator in it. -/
def SignedFields.unseparated (f : SignedFields) : Bool := f.texts.all fun cs => cs.all fun c => !isLineSeparator c

/-- A member with the string literal of either encoder. -/
def memberBy (quote : List Char → List Char) (lead : String) (value rest : List Char) : List Char :=
  lead.toList ++ (quote value ++ rest)

/-- The document with the string literals of either encoder. -/
def SignedFields.document (f : SignedFields) (quote : List Char → List Char) : List Char :=
  memberBy quote "\x7b\"assertion_id\":" f.assertion_id <|
  memberBy quote ",\"publisher_id\":" f.publisher_id <|
  memberBy quote ",\"product_id\":" f.product_id <|
  memberBy quote ",\"search_request_id\":" f.search_request_id <|
  memberBy quote ",\"issued_at\":" f.issued_at <|
  memberBy quote ",\"expires_at\":" f.expires_at <|
  ",\"commission_bps\":".toList ++ (intChars f.commission_bps ++ ['}'])

/-- Go's literal of a text. -/
def goText (cs : List Char) : List Char := goQuote (cs.map some)

theorem member_encode (lead : String) (cs rest : List Char) :
    member lead (Utf8.encode cs) rest = memberBy goText lead cs rest := by
  rw [member, goString, Utf8.decode_encode]
  rfl

theorem canonicalChars_toGo (f : SignedFields) : canonicalChars f.toGo = f.document goText := by
  unfold canonicalChars SignedFields.document
  simp only [SignedFields.toGo, member_encode]

/-- What stands before the value of a member. -/
theorem cons_memberText {c : Char} (key lead : String) (h : c :: (jsQuote key.toList ++ [':']) = lead.toList)
    (value rest : List Char) :
    c :: (Json.memberText key.toList value ++ rest) = lead.toList ++ (value ++ rest) := by
  rw [← h, Json.memberText]
  simp only [List.cons_append, List.append_assoc, List.nil_append]

theorem canonicalizeForSigning_toTs (f : SignedFields) : canonicalizeForSigning f.toTs = f.document jsQuote := by
  unfold canonicalizeForSigning SignedFields.document memberBy
  simp only [Json.ofProps, SignedFields.toTs, List.filterMap_cons, Option.map_some, List.filterMap_nil,
    Json.stringify, Json.stringifyMembers, Json.commaSep, Json.stringifyNum_intChars, List.cons_append,
    List.append_assoc]
  rw [cons_memberText "assertion_id" "\x7b\"assertion_id\":" (by decide),
    cons_memberText "publisher_id" ",\"publisher_id\":" (by decide),
    cons_memberText "product_id" ",\"product_id\":" (by decide),
    cons_memberText "search_request_id" ",\"search_request_id\":" (by decide),
    cons_memberText "issued_at" ",\"issued_at\":" (by decide),
    cons_memberText "expires_at" ",\"expires_at\":" (by decide),
    cons_memberText "commission_bps" ",\"commission_bps\":" (by decide)]

/-- The length of a document is that of its literals and of the rest, which is the same for every encoder. -/
theorem document_length (f : SignedFields) : ∃ k, ∀ quote : List Char → List Char,
    (f.document quote).length = k + (f.texts.map fun cs => (quote cs).length).sum := by
  refine ⟨(f.document fun _ => []).length, fun quote => ?_⟩
  unfold SignedFields.document memberBy
  simp only [List.length_append, List.length_nil, SignedFields.texts, List.map_cons, List.map_nil, List.sum_cons,
    List.sum_nil]
  omega

theorem unseparated_iff {f : SignedFields} :
    f.unseparated = true ↔ ∀ cs ∈ f.texts, ∀ c ∈ cs, isLineSeparator c = false := by
  simp only [SignedFields.unseparated, List.all_eq_true, Bool.not_eq_true']

/-- Without separators the documents are the same text. -/
theorem document_eq {f : SignedFields} (h : f.unseparated = true) : f.document goText = f.document jsQuote := by
  have heq : ∀ cs ∈ f.texts, goText cs = jsQuote cs := fun cs hcs => goQuote_eq_jsQuote (unseparated_iff.mp h cs hcs)
  simp only [SignedFields.texts, List.forall_mem_cons] at heq
  obtain ⟨h1, h2, h3, h4, h5, h6, -⟩ := heq
  unfold SignedFields.document memberBy
  rw [h1, h2, h3, h4, h5, h6]

/-- A separator makes Go's document the longer one. -/
theorem document_length_lt {f : SignedFields} (h : f.unseparated = false) :
    (f.document jsQuote).length < (f.document goText).length := by
  obtain ⟨k, hk⟩ := document_length f
  obtain ⟨cs, hcs, c, hc, hsep⟩ : ∃ cs ∈ f.texts, ∃ c ∈ cs, isLineSeparator c = true := by
    by_contra hno
    push Not at hno
    have htrue := unseparated_iff.mpr fun cs hcs c hc => Bool.not_eq_true _ ▸ hno cs hcs c hc
    rw [htrue] at h
    cases h
  rw [hk, hk]
  refine Nat.add_lt_add_left ?_ k
  exact List.sum_lt_sum (fun cs => (jsQuote cs).length) (fun cs => (goText cs).length)
    (fun cs _ => jsQuote_length_le cs) ⟨cs, hcs, jsQuote_length_lt hc hsep⟩

theorem documents_agree_iff (f : SignedFields) : f.document goText = f.document jsQuote ↔ f.unseparated = true := by
  constructor
  · intro h
    by_contra hsep
    have hlt := document_length_lt (Bool.not_eq_true _ ▸ hsep)
    rw [h] at hlt
    exact lt_irrefl _ hlt
  · exact document_eq

theorem canonicalize_eq {f : SignedFields} (h : f.unseparated = true) :
    canonicalize f.toGo = Utf8.encode (canonicalizeForSigning f.toTs) := by
  rw [canonicalize, canonicalChars_toGo, canonicalizeForSigning_toTs, document_eq h]

/-- **The two languages sign the same bytes** exactly when no field has U+2028 or U+2029 in it. -/
theorem canonicalize_eq_iff (f : SignedFields) :
    canonicalize f.toGo = Utf8.encode (canonicalizeForSigning f.toTs) ↔ f.unseparated = true := by
  rw [canonicalize, canonicalChars_toGo, canonicalizeForSigning_toTs, ← documents_agree_iff]
  exact Utf8.encode_injective.eq_iff

/-- A publisher whose identifier is a LINE SEPARATOR. -/
def separatorFields : SignedFields where
  assertion_id := []
  publisher_id := ['\u2028']
  product_id := []
  search_request_id := []
  issued_at := []
  expires_at := []
  commission_bps := 0
  bps_range := by decide

theorem canonicalize_separator : ¬∀ f : SignedFields,
    canonicalize f.toGo = Utf8.encode (canonicalizeForSigning f.toTs) := by
  intro h
  have hlt : (separatorFields.document jsQuote).length < (separatorFields.document goText).length :=
    document_length_lt (by decide)
  have heq := h separatorFields
  rw [canonicalize, canonicalChars_toGo, canonicalizeForSigning_toTs] at heq
  rw [Utf8.encode_injective heq] at hlt
  exact lt_irrefl _ hlt

end Document

/-! ## The verdict -/

section Verdict

/-- One assertion in both languages: the same document to sign, the same text in the signature, and the expiry of
an instant `e` as `Mint` writes it. -/
structure SameAssertion (a : Assertion) (t : AttributionAssertion) (cs : List Char) (e : ℤ) : Prop where
  document : canonicalize a = Utf8.encode (canonicalizeForSigning t)
  goSignature : a.signature = Utf8.encode cs
  tsSignature : t.signature = some (.str cs)
  goExpiry : a.expiresAt = Utf8.encode (formatRFC3339 e)
  tsExpiry : t.expires_at = some (.str (formatRFC3339 e))

variable {E : Ed25519} {pk : E.PublicKey} {w : Wording} {other : Option Json → Option ℤ} {a : Assertion}
  {t : AttributionAssertion} {cs : List Char} {e now : ℤ}

/-- What Go's verdict comes to. -/
theorem go_accepts_iff (h : SameAssertion a t cs e) :
    Attribution.verify E w pk a now = none ↔
      ∃ body raw, cs = signaturePrefix ++ body ∧ Base64.decodeStd (Base64.symsOfText body) = .ok raw ∧
        E.verify pk (canonicalize a) raw = true ∧ fourDigitYear e = true ∧ now < e / second * second := by
  have hparse : parseRFC3339 (Utf8.latin1 a.expiresAt)
      = if fourDigitYear e then some (e / second * second) else none := by
    rw [h.goExpiry, latin1_formatRFC3339, parseRFC3339_format]
  have hbody : ∀ body, cs = signaturePrefix ++ body →
      a.signature.drop (Utf8.encode signaturePrefix).length = Utf8.encode body := by
    intro body hcs
    rw [h.goSignature, hcs, Utf8.encode_append, List.drop_left]
  rw [verify_eq_none_iff]
  constructor
  · rintro ⟨raw, expires, hacc⟩
    have hlead := List.isPrefixOf_iff_prefix.mp hacc.lead
    rw [h.goSignature] at hlead
    obtain ⟨body, hcs⟩ := Utf8.encode_prefix_iff.mp hlead
    have hparses := hacc.parses
    rw [hparse] at hparses
    split_ifs at hparses with hyear
    refine ⟨body, raw, hcs.symm, ?_, hacc.verifies, hyear, ?_⟩
    · rw [← Base64.decodeStd_symsOfBytes, ← hbody body hcs.symm]
      exact hacc.base64
    · rw [Option.some.inj hparses]
      exact hacc.unexpired
  · rintro ⟨body, raw, hcs, hraw, hver, hyear, hnow⟩
    refine ⟨raw, e / second * second, ?_, ?_, hver, by rw [hparse, if_pos hyear], hnow⟩
    · rw [h.goSignature, hcs]
      exact List.isPrefixOf_iff_prefix.mpr (Utf8.encode_prefix_iff.mpr (List.prefix_append _ _))
    · rw [hbody body hcs]
      exact Base64.decodeStd_symsOfBytes.mpr hraw

/-- What TypeScript's verdict comes to. -/
theorem ts_accepts_iff (h : SameAssertion a t cs e) :
    verifyAssertion E pk other t (getTime now) = .ok () ↔
      ∃ body raw ms, cs = signaturePrefix ++ body ∧ Base64.forgiving (Base64.symsOfText body) = some raw ∧
        E.verify pk (canonicalize a) raw = true ∧
        dateParse other (some (.str (formatRFC3339 e))) = some ms ∧ getTime now < ms := by
  rw [verifyAssertion_eq_ok_iff]
  constructor
  · rintro ⟨signature, raw, ms, hacc⟩
    have hsig : signature = cs := by
      have hp := hacc.presents
      rw [h.tsSignature, Option.some.injEq, Json.str.injEq] at hp
      exact hp.symm
    subst hsig
    obtain ⟨body, hcs⟩ := List.isPrefixOf_iff_prefix.mp hacc.lead
    refine ⟨body, raw, ms, hcs.symm, ?_, ?_, ?_, hacc.unexpired⟩
    · have hb := hacc.base64
      rwa [← hcs, List.drop_left] at hb
    · rw [h.document]
      exact hacc.verifies
    · rw [← h.tsExpiry]
      exact hacc.parses
  · rintro ⟨body, raw, ms, hcs, hraw, hver, hparse, hnow⟩
    refine ⟨cs, raw, ms, h.tsSignature, ?_, ?_, ?_, ?_, ?_, hnow⟩
    · rw [hcs]
      exact List.isPrefixOf_iff_prefix.mpr (List.prefix_append _ _)
    · rw [hcs, List.drop_left]
      exact hraw
    · rw [← h.document]
      exact hver
    · rw [h.tsExpiry]
      rfl
    · rw [h.tsExpiry]
      exact hparse

theorem dateParse_format (hyear : fourDigitYear e = true) :
    dateParse other (some (.str (formatRFC3339 e))) = some (e / second * 1000) := by
  simp only [dateParse, parseIso_format, hyear, if_true]

/-- The clocks agree about an expiry, although one counts nanoseconds and the other milliseconds. -/
theorem getTime_lt_iff : getTime now < e / second * 1000 ↔ now < e / second * second := by
  unfold getTime second
  omega

/-- **TypeScript accepts whatever Go accepts.** -/
theorem ok_of_verify_eq_none (h : SameAssertion a t cs e) (hgo : Attribution.verify E w pk a now = none) :
    verifyAssertion E pk other t (getTime now) = .ok () := by
  obtain ⟨body, raw, hcs, hraw, hver, hyear, hnow⟩ := (go_accepts_iff h).mp hgo
  exact (ts_accepts_iff h).mpr ⟨body, raw, e / second * 1000, hcs, Base64.forgiving_of_decodeStd hraw, hver,
    dateParse_format hyear, getTime_lt_iff.mpr hnow⟩

/-- The signature text, if it decodes to a signature that verifies before the expiry at all, is standard base64:
padded, and without a blank other than a line break; and the expiry has a year of four digits. -/
def StandardForm (E : Ed25519) (pk : E.PublicKey) (other : Option Json → Option ℤ) (document : Bytes)
    (cs : List Char) (e now : ℤ) : Prop :=
  ∀ body raw ms, cs = signaturePrefix ++ body → Base64.forgiving (Base64.symsOfText body) = some raw →
    E.verify pk document raw = true → dateParse other (some (.str (formatRFC3339 e))) = some ms → getTime now < ms →
    Base64.strict (Base64.symsOfText body) = true ∧ fourDigitYear e = true

/-- **Where the verdicts agree.**  Go and TypeScript give the same verdict on an assertion exactly when its
signature is in standard form. -/
theorem verdicts_agree_iff (h : SameAssertion a t cs e) :
    (verifyAssertion E pk other t (getTime now) = .ok () ↔ Attribution.verify E w pk a now = none) ↔
      StandardForm E pk other (canonicalize a) cs e now := by
  constructor
  · intro hagree body raw ms hcs hraw hver hparse hnow
    have hts := (ts_accepts_iff h).mpr ⟨body, raw, ms, hcs, hraw, hver, hparse, hnow⟩
    obtain ⟨body', raw', hcs', hraw', -, hyear, -⟩ := (go_accepts_iff h).mp (hagree.mp hts)
    obtain rfl : body = body' := List.append_cancel_left (hcs.symm.trans hcs')
    have hsame : raw = raw' := Option.some.inj (hraw.symm.trans (Base64.forgiving_of_decodeStd hraw'))
    exact ⟨(Base64.decodeStd_isOk_iff hraw).mp (hsame ▸ hraw'), hyear⟩
  · intro hform
    refine ⟨fun hts => ?_, ok_of_verify_eq_none h⟩
    obtain ⟨body, raw, ms, hcs, hraw, hver, hparse, hnow⟩ := (ts_accepts_iff h).mp hts
    obtain ⟨hstrict, hyear⟩ := hform body raw ms hcs hraw hver hparse hnow
    rw [dateParse_format hyear, Option.some.injEq] at hparse
    subst hparse
    exact (go_accepts_iff h).mpr ⟨body, raw, hcs, (Base64.decodeStd_isOk_iff hraw).mpr hstrict, hver, hyear,
      getTime_lt_iff.mp hnow⟩

end Verdict

/-! ## A signature without its padding -/

namespace Sample

def fields : SignedFields where
  assertion_id := "as_1".toList
  publisher_id := "pub_1".toList
  product_id := "prod_1".toList
  search_request_id := "req_1".toList
  issued_at := formatRFC3339 0
  expires_at := formatRFC3339 ttl
  commission_bps := 1500
  bps_range := by decide

/-- The sample assertion with the signature text `cs`, in Go. -/
def goAssertion (cs : List Char) : Assertion := { fields.toGo with signature := Utf8.encode cs }

def tsAssertion (cs : List Char) : AttributionAssertion := { fields.toTs with signature := some (.str cs) }

theorem same (cs : List Char) : SameAssertion (goAssertion cs) (tsAssertion cs) cs ttl :=
  ⟨canonicalize_eq (f := fields) (by decide), rfl, rfl, rfl, rfl⟩

/-- The bytes of its signature. -/
def raw : Bytes := paddedScheme.sign () (canonicalize fields.toGo)

/-- Their base64 without padding. -/
def unpadded : List Char := (Base64.digitsOfBytes raw).map Base64.digitChar

theorem unpadded_not_strict : Base64.strict (Base64.symsOfText unpadded) = false := by
  rw [unpadded, Base64.symsOfText_map_digitChar]
  decide

end Sample

/-- TypeScript accepts an unpadded signature, and Go refuses it. -/
theorem verdicts_differ : ¬∀ (E : Ed25519) (pk : E.PublicKey) (w : Wording) (other : Option Json → Option ℤ)
    (a : Assertion) (t : AttributionAssertion) (cs : List Char) (e now : ℤ), SameAssertion a t cs e →
    (verifyAssertion E pk other t (getTime now) = .ok () ↔ Attribution.verify E w pk a now = none) := by
  intro h
  have hsame := Sample.same (signaturePrefix ++ Sample.unpadded)
  have hraw : Base64.forgiving (Base64.symsOfText Sample.unpadded) = some Sample.raw :=
    Base64.forgiving_map_digitChar Sample.raw
  have hver : paddedScheme.verify () (canonicalize (Sample.goAssertion (signaturePrefix ++ Sample.unpadded)))
      Sample.raw = true := paddedScheme.verify_sign () _
  have hyear : fourDigitYear ttl = true := by decide
  have hts : verifyAssertion paddedScheme () (fun _ => none)
      (Sample.tsAssertion (signaturePrefix ++ Sample.unpadded)) (getTime 0) = .ok () := (ts_accepts_iff hsame).mpr
    ⟨Sample.unpadded, Sample.raw, ttl / second * 1000, rfl, hraw, hver, dateParse_format hyear, by decide⟩
  have hgo := (h paddedScheme () ⟨id⟩ (fun _ => none) _ _ _ ttl 0 hsame).mp hts
  obtain ⟨body, raw, hcs, hstd, -⟩ := (go_accepts_iff hsame).mp hgo
  obtain rfl : Sample.unpadded = body := List.append_cancel_left hcs
  have hsome := Base64.forgiving_of_decodeStd hstd
  have hstrict := (Base64.decodeStd_isOk_iff hsome).mp hstd
  rw [Sample.unpadded_not_strict] at hstrict
  cases hstrict

theorem verdicts_agree_iff_sample :
    (verifyAssertion paddedScheme () (fun _ => none) (Sample.tsAssertion (signaturePrefix ++ Sample.unpadded))
        (getTime 0) = .ok () ↔
      Attribution.verify paddedScheme ⟨id⟩ () (Sample.goAssertion (signaturePrefix ++ Sample.unpadded)) 0 = none) ↔
      StandardForm paddedScheme () (fun _ => none)
        (canonicalize (Sample.goAssertion (signaturePrefix ++ Sample.unpadded)))
        (signaturePrefix ++ Sample.unpadded) ttl 0 :=
  verdicts_agree_iff (Sample.same (signaturePrefix ++ Sample.unpadded))

end Types
