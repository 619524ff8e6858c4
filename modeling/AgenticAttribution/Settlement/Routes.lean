import AgenticAttribution.Lib.GoJson
import AgenticAttribution.Settlement.Sequential
import AgenticAttribution.Types.Http

/-!
# Settlement.Routes — the two writing routes over HTTP

`internal/settlement/handler.go`, from the body of a request to the answer.  A body is what a client wrote with
`JSON.stringify`; it is read up to 256 KiB, so a longer one breaks off and does not decode.
-/

namespace Settlement

open Attribution Fallible GoJson Types

/-! ## Bodies -/

section Bodies

def maxRequestBytes : ℕ := 256 * 1024

/-- The body is not cut off. -/
def fits (body : Json) : Bool := (Utf8.encode (Json.stringify body)).length ≤ maxRequestBytes

/-- `json.NewDecoder(http.MaxBytesReader(…)).Decode`. -/
def decodeBody {α : Type} (decode : Json → Option α) (body : Json) : Option α :=
  if fits body then decode body else none

def textField {σ : Type} (name : String) (get : σ → Bytes) (put : σ → Bytes → σ) : StructField σ :=
  .of name text get put

def intField {σ : Type} (name : String) (get : σ → ℤ) (put : σ → ℤ → σ) : StructField σ :=
  .of name int get put

def rejectionFields : List (StructField Rejection) :=
  [textField "publisher_id" (·.publisherID) fun r v => { r with publisherID := v },
   textField "assertion_id" (·.assertionID) fun r v => { r with assertionID := v },
   textField "merchant_id" (·.merchantID) fun r v => { r with merchantID := v },
   textField "reason" (·.reason) fun r v => { r with reason := v },
   textField "detail" (·.detail) fun r v => { r with detail := v }]

def decodeRejection : Json → Option Rejection := object rejectionFields ⟨[], [], [], [], []⟩

def assertionFields : List (StructField Assertion) :=
  [textField "assertion_id" (·.assertionID) fun a v => { a with assertionID := v },
   textField "publisher_id" (·.publisherID) fun a v => { a with publisherID := v },
   textField "product_id" (·.productID) fun a v => { a with productID := v },
   textField "search_request_id" (·.searchRequestID) fun a v => { a with searchRequestID := v },
   textField "issued_at" (·.issuedAt) fun a v => { a with issuedAt := v },
   textField "expires_at" (·.expiresAt) fun a v => { a with expiresAt := v },
   intField "commission_bps" (·.commissionBps) fun a v => { a with commissionBps := v },
   textField "signature" (·.signature) fun a v => { a with signature := v }]

def authorizationFields : List (StructField Eip3009Authorization) :=
  [textField "from" (·.from_) fun a v => { a with from_ := v },
   textField "to" (·.to_) fun a v => { a with to_ := v },
   textField "value" (·.value) fun a v => { a with value := v },
   textField "validAfter" (·.validAfter) fun a v => { a with validAfter := v },
   textField "validBefore" (·.validBefore) fun a v => { a with validBefore := v },
   textField "nonce" (·.nonce) fun a v => { a with nonce := v }]

def payloadFields : List (StructField PaymentPayload) :=
  [intField "x402Version" (·.x402Version) fun p v => { p with x402Version := v },
   textField "scheme" (·.scheme) fun p v => { p with scheme := v },
   textField "network" (·.network) fun p v => { p with network := v },
   .of "authorization" (fun old => object authorizationFields old) (·.authorization)
     fun p v => { p with authorization := v },
   textField "signature" (·.signature) fun p v => { p with signature := v }]

def requirementsFields : List (StructField PaymentRequirements) :=
  [textField "scheme" (·.scheme) fun r v => { r with scheme := v },
   textField "network" (·.network) fun r v => { r with network := v },
   textField "asset" (·.asset) fun r v => { r with asset := v },
   textField "maxAmountRequired" (·.maxAmountRequired) fun r v => { r with maxAmountRequired := v },
   textField "payTo" (·.payTo) fun r v => { r with payTo := v },
   intField "maxTimeoutSeconds" (·.maxTimeoutSeconds) fun r v => { r with maxTimeoutSeconds := v },
   textField "resource" (·.resource) fun r v => { r with resource := v },
   textField "description" (·.description) fun r v => { r with description := v }]

def requestFields : List (StructField Request) :=
  [.of "assertion" (fun old => object assertionFields old) (·.assertion) fun r v => { r with assertion := v },
   textField "merchant_id" (·.merchantID) fun r v => { r with merchantID := v },
   intField "gross_amount_cents" (·.grossAmountCents) fun r v => { r with grossAmountCents := v },
   textField "currency" (·.currency) fun r v => { r with currency := v },
   .of "payment_payload" (fun old => object payloadFields old) (·.paymentPayload)
     fun r v => { r with paymentPayload := v },
   .of "payment_requirements" (fun old => object requirementsFields old) (·.paymentRequirements)
     fun r v => { r with paymentRequirements := v }]

/-- The zero value of each struct. -/
def zeroRequest : Request where
  assertion := ⟨[], [], [], [], [], [], 0, []⟩
  merchantID := []
  grossAmountCents := 0
  currency := []
  paymentPayload := ⟨0, [], [], ⟨[], [], [], [], [], []⟩, []⟩
  paymentRequirements := ⟨[], [], [], [], [], 0, [], []⟩

def decodeRequest : Json → Option Request := object requestFields zeroRequest

/-- A report of texts. -/
def textReport (publisher assertion merchant reason detail : List Char) : RejectionReport :=
  ⟨.str publisher, .str assertion, .str merchant, .str reason, .str detail⟩

/-- The five members are read one by one. -/
theorem decodeRejection_toJson (report : RejectionReport) :
    decodeRejection report.toJson = (do
      let publisher ← text [] report.publisher_id
      let assertion ← text [] report.assertion_id
      let merchant ← text [] report.merchant_id
      let reason ← text [] report.reason
      let detail ← text [] report.detail
      return ⟨publisher, assertion, merchant, reason, detail⟩) := by
  have hbody : report.toJson = .obj [("publisher_id".toList, report.publisher_id),
      ("assertion_id".toList, report.assertion_id), ("merchant_id".toList, report.merchant_id),
      ("reason".toList, report.reason), ("detail".toList, report.detail)] := rfl
  have hpublisher (s : Rejection) (v : Json) : member rejectionFields s ("publisher_id".toList, v)
      = (text s.publisherID v).map fun x => { s with publisherID := x } := rfl
  have hassertion (s : Rejection) (v : Json) : member rejectionFields s ("assertion_id".toList, v)
      = (text s.assertionID v).map fun x => { s with assertionID := x } := rfl
  have hmerchant (s : Rejection) (v : Json) : member rejectionFields s ("merchant_id".toList, v)
      = (text s.merchantID v).map fun x => { s with merchantID := x } := rfl
  have hreason (s : Rejection) (v : Json) : member rejectionFields s ("reason".toList, v)
      = (text s.reason v).map fun x => { s with reason := x } := rfl
  have hdetail (s : Rejection) (v : Json) : member rejectionFields s ("detail".toList, v)
      = (text s.detail v).map fun x => { s with detail := x } := rfl
  rw [decodeRejection, hbody]
  show List.foldlM _ _ _ = _
  simp only [List.foldlM_cons, List.foldlM_nil, hpublisher, hassertion, hmerchant, hreason, hdetail,
    Option.bind_eq_bind, Option.bind_map, Function.comp_def]

theorem decodeRejection_textReport (publisher assertion merchant reason detail : List Char) :
    decodeRejection (textReport publisher assertion merchant reason detail).toJson =
      some ⟨Utf8.encode publisher, Utf8.encode assertion, Utf8.encode merchant, Utf8.encode reason,
        Utf8.encode detail⟩ :=
  decodeRejection_toJson _

end Bodies

/-! ## Answers -/

section Answers

def Status.text : Status → String
  | .pending => "pending"
  | .confirmed => "confirmed"
  | .failed => "failed"
  | .reversed => "reversed"

def Result.toJson (r : Result) : Json :=
  Json.ofProps [("settlement_id", jsonText r.settlementID), ("status", some (.str r.status.text.toList)),
    ("tx_hash", jsonText r.txHash), ("network", jsonText r.network), ("payer", jsonText r.payer),
    ("commission_bps", jsonInt r.commissionBps), ("commission_amount_cents", jsonInt r.commissionAmountCents),
    ("platform_fee_cents", jsonInt r.platformFeeCents), ("publisher_amount_cents", jsonInt r.publisherAmountCents)]

/-- The database, and whether every write to `rejected_attempts` so far went through. -/
structure Journal where
  db : DB
  intact : Bool

/-- The journalling of a refused settlement. -/
def Journal.refuse (d : Driver) (j : Journal) (req : Request) (err : Err) : Journal where
  db := Handler.journal d j.db req err .done
  intact := j.intact &&
    ((statusFor err).2 = .internalError || (Store.recordRejection d j.db (req.rejection err) .done).2.isNone)

/-- `POST /rejections`; a write that fails is answered with 500. -/
def Journal.report (d : Driver) (j : Journal) (body : Json) : Journal :=
  let (db, status) := Handler.recordRejection d j.db (decodeBody decodeRejection body) .done
  ⟨db, j.intact && status ≠ 500⟩

/-- `handleSettle`. -/
def handleSettle (svc : Service) (j : Journal) (body : Json) (env : Env) : Journal × Response :=
  match decodeBody decodeRequest body with
  | none => (j, Types.refuse 400 "malformed request body".toList "bad_request".toList)
  | some req =>
    match svc.settle j.db req env with
    | (db, .ok result) => (⟨db, j.intact⟩, ⟨200, result.toJson⟩)
    | (db, .error err) =>
      (Journal.refuse svc.driver ⟨db, j.intact⟩ req err,
        Types.refuse (statusFor err).1 (wireText err.text) (statusFor err).2.name.toList)

end Answers

/-! ## What the routes write -/

section Rows

variable {d : Driver} {j j' : Journal}

theorem recordRejection_done_of_none {db db' : DB} {r : Rejection}
    (h : Store.recordRejection d db r .done = (db', none)) : db' = { db with rejected := db.rejected ++ [r.row] } := by
  rcases Store.recordRejection_cases h with ⟨-, hr⟩ | h
  · exact absurd rfl hr
  · exact h

/-- A refused settlement is a row, unless it was the platform that failed. -/
theorem Journal.refuse_rows {req : Request} {err : Err} (h : (j.refuse d req err).intact = true) :
    (j.refuse d req err).db.rejected.length
      = j.db.rejected.length + if (statusFor err).2 = .internalError then 0 else 1 := by
  simp only [Journal.refuse, Bool.and_eq_true, Bool.or_eq_true, decide_eq_true_eq] at h
  simp only [Journal.refuse, Handler.journal]
  by_cases hint : (statusFor err).2 = .internalError
  · simp only [hint, if_true, Nat.add_zero]
  · obtain ⟨db', e, hrec⟩ : ∃ db' e, Store.recordRejection d j.db (req.rejection err) .done = (db', e) := ⟨_, _, rfl⟩
    have hnone : e = none := by
      have := h.2.resolve_left hint
      rwa [hrec, Option.isNone_iff_eq_none] at this
    subst hnone
    rw [if_neg hint, if_neg hint, hrec, recordRejection_done_of_none hrec, List.length_append]
    rfl

/-- A report that is taken is a row. -/
theorem Journal.report_rows {body : Json} {r : Rejection} (hr : decodeBody decodeRejection body = some r)
    (hnamed : r.publisherID ≠ [] ∧ r.reason ≠ []) (h : (j.report d body).intact = true) :
    (j.report d body).db.rejected.length = j.db.rejected.length + 1 := by
  have hguard : ¬(r.publisherID = [] ∨ r.reason = []) := fun h => h.elim hnamed.1 hnamed.2
  obtain ⟨db', e, hrec⟩ : ∃ db' e, Store.recordRejection d j.db r .done = (db', e) := ⟨_, _, rfl⟩
  simp only [Journal.report, Handler.recordRejection, hr, if_neg hguard, hrec] at h ⊢
  cases e with
  | some e => simp at h
  | none =>
    rw [recordRejection_done_of_none hrec, List.length_append]
    rfl

/-- A report that does not decode is none. -/
theorem Journal.report_undecoded {body : Json} (hr : decodeBody decodeRejection body = none) :
    (j.report d body).db = j.db := by
  simp only [Journal.report, Handler.recordRejection, hr]

theorem Journal.intact_of_report {body : Json} (h : (j.report d body).intact = true) : j.intact = true := by
  simp only [Journal.report, Bool.and_eq_true] at h
  exact h.1

end Rows

/-! ## Which reports are kept -/

section Kept

variable {d : Driver} {j : Journal}

/-- A text can be stored unless it has a NUL. -/
theorem textOk_encode {cs : List Char} : textOk (Utf8.encode cs) = true ↔ '\x00' ∉ cs := by
  rw [textOk, Utf8.valid_encode, Bool.true_and, Bool.not_eq_true', ← Bool.not_eq_true, List.contains_iff_mem,
    Utf8.zero_mem_encode]

/-- All texts of a rejection can be stored, once the detail is cut. -/
def Rejection.textsOk (r : Rejection) : Bool :=
  textOk r.publisherID && textOk r.assertionID && textOk r.merchantID && textOk r.reason &&
    textOk (truncateDetail r.detail)

theorem all_textOk_nullable (s : Bytes) : (nullable s).all textOk = textOk s := by
  unfold nullable
  split_ifs with h
  · rw [h]
    rfl
  · rfl

theorem insertRejected_row (db : DB) (r : Rejection) : db.insertRejected r.row
    = if r.textsOk then .ok { db with rejected := db.rejected ++ [r.row] } else .error .invalidText := by
  unfold DB.insertRejected Rejection.row Rejection.textsOk
  simp only [all_textOk_nullable]

theorem recordRejection_of_textsOk {r : Rejection} (db : DB) (h : r.textsOk = true) :
    Store.recordRejection d db r .done = ({ db with rejected := db.rejected ++ [r.row] }, none) := by
  simp only [Store.recordRejection, attempt_done, ok_bind, insertRejected_row, h, if_true, exec_ok]
  rfl

theorem recordRejection_of_not {r : Rejection} (db : DB) (h : ¬r.textsOk = true) :
    ∃ e, Store.recordRejection d db r .done = (db, some e) := by
  simp only [Store.recordRejection, attempt_done, ok_bind, insertRejected_row, if_neg h]
  exact ⟨_, rfl⟩

/-- A member that is a string without a NUL, or missing. -/
def PlainText (v : Json) (cs : List Char) : Prop := (v = .str cs ∨ v = .null ∧ cs = []) ∧ '\x00' ∉ cs

theorem text_textOk_iff {v : Json} : (∃ bs, text [] v = some bs ∧ textOk bs = true) ↔ ∃ cs, PlainText v cs := by
  constructor
  · rintro ⟨bs, hv, hok⟩
    cases v with
    | null => exact ⟨[], Or.inr ⟨rfl, rfl⟩, List.not_mem_nil⟩
    | str cs =>
      obtain rfl := Option.some.inj hv
      exact ⟨cs, Or.inl rfl, textOk_encode.mp hok⟩
    | _ => cases hv
  · rintro ⟨cs, rfl | ⟨rfl, rfl⟩, h⟩
    · exact ⟨_, rfl, textOk_encode.mpr h⟩
    · exact ⟨[], rfl, by decide⟩

theorem encode_ne_nil {cs : List Char} (h : cs ≠ []) : Utf8.encode cs ≠ [] := by
  obtain ⟨c, rest, rfl⟩ := List.exists_cons_of_ne_nil h
  rw [Utf8.encode_cons]
  intro he
  exact String.utf8EncodeChar_ne_nil (List.append_eq_nil_iff.mp he).1

/-- A text that is not empty was written as one. -/
theorem named_of_text {v : Json} {bs : Bytes} (hv : text [] v = some bs) (hok : textOk bs = true) (hne : bs ≠ []) :
    ∃ cs, cs ≠ [] ∧ PlainText v cs := by
  cases v with
  | null =>
    obtain rfl := Option.some.inj hv
    exact absurd rfl hne
  | str cs =>
    obtain rfl := Option.some.inj hv
    refine ⟨cs, ?_, Or.inl rfl, textOk_encode.mp hok⟩
    rintro rfl
    exact hne rfl
  | _ => cases hv

/-- **A report that is kept**: it is not too long, names a publisher and a reason, and consists of texts that can be
stored; of the detail, what is left when it is cut. -/
structure Storable (report : RejectionReport) : Prop where
  fits : fits report.toJson = true
  publisher : ∃ cs, cs ≠ [] ∧ PlainText report.publisher_id cs
  assertion : ∃ cs, PlainText report.assertion_id cs
  merchant : ∃ cs, PlainText report.merchant_id cs
  reason : ∃ cs, cs ≠ [] ∧ PlainText report.reason cs
  detail : ∃ bs, text [] report.detail = some bs ∧ textOk (truncateDetail bs) = true

/-- The same, of the rejection that is read. -/
theorem storable_iff {report : RejectionReport} :
    Storable report ↔ ∃ r, decodeBody decodeRejection report.toJson = some r ∧ (r.publisherID ≠ [] ∧ r.reason ≠ []) ∧
      r.textsOk = true := by
  constructor
  · intro h
    obtain ⟨publisher, hpublisher, ⟨hp | ⟨hp, rfl⟩, hpnul⟩⟩ := h.publisher
    swap
    · exact absurd rfl hpublisher
    obtain ⟨reason, hreason, ⟨hr | ⟨hr, rfl⟩, hrnul⟩⟩ := h.reason
    swap
    · exact absurd rfl hreason
    obtain ⟨assertion, ha, haok⟩ := text_textOk_iff.mpr h.assertion
    obtain ⟨merchant, hm, hmok⟩ := text_textOk_iff.mpr h.merchant
    obtain ⟨detail, hd, hdok⟩ := h.detail
    refine ⟨⟨Utf8.encode publisher, assertion, merchant, Utf8.encode reason, detail⟩, ?_,
      ⟨encode_ne_nil hpublisher, encode_ne_nil hreason⟩, ?_⟩
    · rw [decodeBody, if_pos h.fits, decodeRejection_toJson, hp, ha, hm, hr, hd]
      rfl
    · simp only [Rejection.textsOk, textOk_encode.mpr hpnul, textOk_encode.mpr hrnul, haok, hmok, hdok, Bool.and_self]
  · rintro ⟨r, hread, ⟨hpublisher, hreason⟩, hok⟩
    unfold decodeBody at hread
    split_ifs at hread with hfits
    rw [decodeRejection_toJson] at hread
    simp only [Option.bind_eq_bind, Option.bind_eq_some_iff] at hread
    obtain ⟨publisher, hp, assertion, ha, merchant, hm, reason, hr, detail, hd, hr'⟩ := hread
    obtain rfl := Option.some.inj hr'
    simp only [Rejection.textsOk, Bool.and_eq_true] at hok
    obtain ⟨⟨⟨⟨hpok, haok⟩, hmok⟩, hrok⟩, hdok⟩ := hok
    refine ⟨hfits, ?_, text_textOk_iff.mp ⟨_, ha, haok⟩, text_textOk_iff.mp ⟨_, hm, hmok⟩, ?_, _, hd, hdok⟩
    · exact named_of_text hp hpok hpublisher
    · exact named_of_text hr hrok hreason

/-- A report that is kept is a row, and the answer is a success. -/
theorem Journal.report_storable {report : RejectionReport} (h : Storable report) :
    ∃ row, j.report d report.toJson = ⟨{ j.db with rejected := j.db.rejected ++ [row] }, j.intact⟩ := by
  obtain ⟨r, hread, ⟨hpublisher, hreason⟩, hok⟩ := storable_iff.mp h
  have hguard : ¬(r.publisherID = [] ∨ r.reason = []) := fun h => h.elim hpublisher hreason
  refine ⟨r.row, ?_⟩
  simp only [Journal.report, Handler.recordRejection, hread, if_neg hguard, recordRejection_of_textsOk j.db hok]
  simp

/-- Any other is lost. -/
theorem Journal.report_lost {report : RejectionReport} (h : ¬Storable report) :
    (j.report d report.toJson).db = j.db := by
  cases hread : decodeBody decodeRejection report.toJson with
  | none => exact Journal.report_undecoded hread
  | some r =>
    by_cases hguard : r.publisherID = [] ∨ r.reason = []
    · simp only [Journal.report, Handler.recordRejection, hread, if_pos hguard]
    · have hok : ¬r.textsOk = true := fun hok => h (storable_iff.mpr ⟨r, hread, not_or.mp hguard, hok⟩)
      obtain ⟨e, hrec⟩ := recordRejection_of_not (d := d) j.db hok
      simp only [Journal.report, Handler.recordRejection, hread, if_neg hguard, hrec]

/-- Of a refused settlement, the settlement service keeps a row if its texts can be stored. -/
theorem Journal.refuse_textsOk {req : Request} {err : Err} (hint : (statusFor err).2 ≠ .internalError)
    (h : (req.rejection err).textsOk = true) :
    j.refuse d req err = ⟨{ j.db with rejected := j.db.rejected ++ [(req.rejection err).row] }, j.intact⟩ := by
  simp only [Journal.refuse, Handler.journal, if_neg hint, recordRejection_of_textsOk j.db h]
  simp

theorem Journal.refuse_lost {req : Request} {err : Err} (h : ¬(req.rejection err).textsOk = true) :
    (j.refuse d req err).db = j.db := by
  obtain ⟨e, hrec⟩ := recordRejection_of_not (d := d) j.db h
  simp only [Journal.refuse, Handler.journal, hrec]
  split_ifs <;> rfl

end Kept

end Settlement
