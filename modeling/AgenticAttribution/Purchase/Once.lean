import AgenticAttribution.Purchase.Journal
import AgenticAttribution.Types.CrossLanguage

/-!
# Purchase.Once — a refusal is journalled once, or not

Each way a purchase can end is a case: a service fails, a service refuses by itself and reports it, or settlement
decides.  `journalled_once_iff` puts them together.
-/

namespace Purchase

open Types Attribution Settlement

variable {p : Deployment}

/-! ## Reports -/

section Reports

/-- The sender of a report that names its publisher, as text. -/
structure TextReport (report : RejectionReport) (reason : List Char) : Prop where
  text : ∃ publisher assertion merchant detail,
    publisher ≠ [] ∧ report = textReport publisher assertion merchant reason detail

theorem sendReport_some (j : Journal) (report : RejectionReport) :
    sendReport p j (some report) = j.report p.svc.driver report.toJson := rfl

/-- **A report of texts is a row** if it is not too long, and nothing otherwise. -/
theorem sendReport_rows {j : Journal} {report : RejectionReport} {reason : List Char}
    (hreport : TextReport report reason) (hreason : reason ≠ [])
    (h : (sendReport p j (some report)).intact = true) :
    (sendReport p j (some report)).db.rejected.length
      = j.db.rejected.length + if fits report.toJson then 1 else 0 := by
  obtain ⟨publisher, assertion, merchant, detail, hpublisher, rfl⟩ := hreport.text
  have hdecode := decodeRejection_textReport publisher assertion merchant reason detail
  rw [sendReport_some] at h ⊢
  by_cases hfits : fits (textReport publisher assertion merchant reason detail).toJson = true
  · rw [if_pos hfits]
    have hread : decodeBody decodeRejection (textReport publisher assertion merchant reason detail).toJson = some
        ⟨Utf8.encode publisher, Utf8.encode assertion, Utf8.encode merchant, Utf8.encode reason,
          Utf8.encode detail⟩ := by
      rw [decodeBody, if_pos hfits, hdecode]
    exact Journal.report_rows hread ⟨encode_ne_nil hpublisher, encode_ne_nil hreason⟩ h
  · rw [if_neg hfits, Journal.report_undecoded, Nat.add_zero]
    rw [decodeBody, if_neg hfits]

theorem intact_of_sendReport {j : Journal} {report : Option RejectionReport}
    (h : (sendReport p j report).intact = true) : j.intact = true := by
  cases report with
  | none => exact h
  | some report =>
    rw [sendReport_some] at h
    exact Journal.intact_of_report h

theorem orElse_of_identifier {v : Option Json} {cs : List Char} (h : Identifier v cs) (d : Json) :
    Json.orElse v d = .str cs := by
  rw [h.1]
  simp only [Json.orElse, Json.truthy, h.2.1, ne_eq, not_false_eq_true, decide_true, if_true, Option.getD_some]

theorem orDefault_of_identifier {v : Option Json} {cs : List Char} (h : Identifier v cs) (d : Json) :
    Json.orDefault v d = .str cs := by
  rw [h.1]
  rfl

theorem truthy_str {cs : List Char} (h : cs ≠ []) : Json.truthy (some (.str cs)) = true := by
  simp only [Json.truthy, ne_eq, h, not_false_eq_true, decide_true]

/-- What the merchant reports from: the assertion, or nothing where Node reads the header in another way. -/
theorem reporting_cases {x : Passage} {assertion : Json} (hc : Carries p x assertion) :
    Merchant.decodeAssertionForReporting p.rt x.assertion = assertion ∨
      Merchant.decodeAssertionForReporting p.rt x.assertion = .null := by
  unfold Merchant.decodeAssertionForReporting
  rw [if_neg hc.header]
  rcases Runtime.decodeBuffer_of_decodeHeaderJson hc.decodes with h | h
  · rw [h]
    exact Or.inl rfl
  · rw [h]
    exact Or.inr rfl

/-- **What the merchant reports of a refusal with a reason.** -/
theorem reportRefusal_refuse {x : Passage} {assertion : Json} {publisher id : List Char}
    (hc : Carries p x assertion) (hn : Named assertion publisher id) {status : ℕ} {error reason : List Char}
    (hs : 400 ≤ status ∧ status ≠ 402) (hr : reason ≠ []) :
    ∃ report, Merchant.reportRefusal p.config p.rt (refuse status error reason) x.assertion = some report ∧
      TextReport report reason := by
  have hstatus : ¬((refuse status error reason).status < 400 ∨ (refuse status error reason).status = 402) :=
    fun h => h.elim (fun h => absurd hs.1 (not_le.mpr h)) hs.2
  have herror : (refuse status error reason).body.prop "error" = some (.str error) := Json.prop_ofProps_self _ _ _
  simp only [Merchant.reportRefusal, if_neg hstatus, reason_refuse, truthy_str hr, Bool.not_true, Bool.false_eq_true,
    if_false, herror]
  refine ⟨_, rfl, ?_⟩
  rcases reporting_cases hc with h | h
  · rw [h, orDefault_of_identifier hn.publisher, orDefault_of_identifier hn.id]
    exact ⟨publisher, id, p.config.merchantId, error, hn.publisher.2.1, rfl⟩
  · rw [h]
    exact ⟨"unknown".toList, [], p.config.merchantId, error, by decide, rfl⟩

end Reports

/-! ## Answers -/

section Answers

variable {db : DB} {j : Journal}

theorem added_of_rows {n : ℕ} (h : j.db.rejected.length = db.rejected.length + n) : added db j = n := by
  unfold added
  omega

/-- No rows are right where nothing was refused with a reason. -/
theorem once_of_quiet {r : Response} (hrows : j.db.rejected.length = db.rejected.length) (hr : ¬Deliberate r) :
    JournalledOnce db (j, r) := by
  have hadded : added db j = 0 := added_of_rows hrows
  exact ⟨hadded.trans_le zero_le_one, fun h => absurd h hr, fun _ => hadded, fun _ => hadded⟩

/-- A deliberate refusal takes one row. -/
theorem once_refuse_iff {status n : ℕ} {error reason : List Char}
    (hrows : j.db.rejected.length = db.rejected.length + n) (hs : 400 ≤ status) (hr : reason ≠ [])
    (hf : reason ∉ failures.map String.toList) : JournalledOnce db (j, refuse status error reason) ↔ n = 1 := by
  have hadded : added db j = n := added_of_rows hrows
  have hreason : (refuse status error reason).reason = some (.str reason) := reason_refuse _ _ _
  have hdeliberate : Deliberate (refuse status error reason) := ⟨hs, reason, hreason, hr, hf⟩
  constructor
  · intro h
    exact hadded.symm.trans (h.refused hdeliberate)
  · rintro rfl
    refine ⟨hadded.le, fun _ => hadded, fun h => ?_, fun h => ?_⟩
    · have hstatus : status = 200 := h
      omega
    · have hsame : reason = "internal_error".toList := by
        have h : (refuse status error reason).reason = some (.str "internal_error".toList) := h
        rw [hreason] at h
        exact Json.str.inj (Option.some.inj h)
      exact absurd (List.mem_map_of_mem List.mem_cons_self) (hsame ▸ hf)

/-- An internal error takes none. -/
theorem once_internal_iff {status n : ℕ} {error : List Char}
    (hrows : j.db.rejected.length = db.rejected.length + n) :
    JournalledOnce db (j, refuse status error "internal_error".toList) ↔ n = 0 := by
  have hadded : added db j = n := added_of_rows hrows
  have hreason : (refuse status error "internal_error".toList).reason = some (.str "internal_error".toList) :=
    reason_refuse _ _ _
  constructor
  · intro h
    exact hadded.symm.trans (h.failed hreason)
  · rintro rfl
    refine ⟨hadded.trans_le zero_le_one, ?_, fun _ => hadded, fun _ => hadded⟩
    rintro ⟨-, reason, hr, -, hf⟩
    rw [hreason] at hr
    obtain rfl := Json.str.inj (Option.some.inj hr)
    exact absurd (List.mem_map_of_mem List.mem_cons_self) hf

theorem not_deliberate_fault (status : ℕ) (error : List Char) : ¬Deliberate (fault status error) := by
  rintro ⟨-, reason, hr, -⟩
  rw [reason_fault] at hr
  cases hr

theorem not_deliberate_failure {status : ℕ} {error : List Char} {reason : String} (h : reason ∈ failures) :
    ¬Deliberate (refuse status error reason.toList) := by
  rintro ⟨-, reason', hr, -, hf⟩
  rw [reason_refuse] at hr
  obtain rfl := Json.str.inj (Option.some.inj hr)
  exact hf (List.mem_map_of_mem h)

theorem reason_ownReasons {reason : String} (h : reason ∈ Merchant.ownReasons) :
    reason.toList ≠ [] ∧ reason.toList ∉ failures.map String.toList := by
  have hall : ∀ r ∈ Merchant.ownReasons, r.toList ≠ [] ∧ r.toList ∉ failures.map String.toList := by decide
  exact hall reason h

/-- **A refusal that is reported once** is journalled once if its report can be read. -/
theorem once_reported_iff {report : RejectionReport} {status : ℕ} {error reason : List Char}
    (hj : j.db.rejected.length = db.rejected.length) (hreport : TextReport report reason) (hs : 400 ≤ status)
    (hr : reason ≠ []) (hf : reason ∉ failures.map String.toList)
    (h : (sendReport p j (some report)).intact = true) :
    JournalledOnce db (sendReport p j (some report), refuse status error reason) ↔ fits report.toJson = true := by
  rw [once_refuse_iff ((sendReport_rows hreport hr h).trans (by rw [hj])) hs hr hf]
  by_cases hfits : fits report.toJson = true
  · rw [if_pos hfits]
    exact ⟨fun _ => hfits, fun _ => rfl⟩
  · rw [if_neg hfits]
    exact ⟨fun h => absurd h zero_ne_one, fun h => absurd h hfits⟩

end Answers

/-! ## The edge -/

section Edge

variable {x : Passage} {assertion : Json} {publisher id : List Char}

/-- A purchase is routed to the handler of purchases, or refused for its length. -/
theorem edge_routed (h : Pays p x) :
    edge p x = match Gateway.readBoundedText p.rt x.request with
      | none => .answer (refuse 413 "request body exceeds 262144 bytes".toList "body_too_large".toList) none
      | some body => Gateway.handlePurchase p.edge p.rt x.request body x.edgeNow := by
  have hhealth : ¬(x.request.method = "GET" ∧ x.request.path = Gateway.ROUTE.Health) := by
    rw [h.method]
    exact fun h => absurd h.1 (by decide)
  have hmethod : ¬x.request.method ≠ "POST" := fun hne => hne h.method
  have hsearch : ¬x.request.path = Gateway.ROUTE.Search := by
    rw [h.path]
    decide
  have hpath : ¬x.request.path ≠ Gateway.ROUTE.Purchase := fun hne => hne h.path
  unfold edge Gateway.handle
  rw [if_neg hhealth, if_neg hmethod]
  cases Gateway.readBoundedText p.rt x.request <;> simp only [if_neg hsearch, if_neg hpath]

/-- What the gateway makes of a purchase that is within its limit. -/
theorem edge_of_bounded (h : Pays p x) (hb : x.request.bounded = true) :
    edge p x = if x.assertion = [] then
        Gateway.reject p.edge 400 unknownPublisher (.str []) "assertion_missing".toList
          "payment supplied without an assertion".toList
      else Gateway.handleAssertion p.edge p.rt x.assertion (p.rt.textDecode x.request.chunks.flatten) x.edgeNow := by
  have hpayment : ¬Gateway.presented x.request.payment = [] := h.payment
  rw [edge_routed h, Gateway.readBoundedText_eq, if_pos hb]
  dsimp only
  rw [Gateway.handlePurchase, if_neg hpayment]
  rfl

theorem edge_eq (hc : Carries p x assertion) (hb : x.request.bounded = true) :
    edge p x = Gateway.handleAssertion p.edge p.rt x.assertion (p.rt.textDecode x.request.chunks.flatten)
      x.edgeNow := by
  rw [edge_of_bounded hc.pays hb, if_neg hc.header]

/-- A body that is too long is refused and not reported. -/
theorem edge_of_unbounded (h : Pays p x) (hb : x.request.bounded = false) :
    edge p x = .answer (refuse 413 "request body exceeds 262144 bytes".toList "body_too_large".toList) none := by
  rw [edge_routed h, Gateway.readBoundedText_eq, hb]
  rfl

/-- **The gateway passes a purchase on, fails at it, or refuses and reports it.** -/
theorem edge_cases (hc : Carries p x assertion) (hn : Named assertion publisher id) (hb : x.request.bounded = true) :
    (∃ body, edge p x = .proxy .merchant body) ∨ (∃ message, edge p x = .throws message) ∨
      ∃ error reason report, edge p x = .answer (refuse 401 error reason.toList) (some report) ∧
        reason ∈ Merchant.ownReasons ∧ TextReport report reason.toList := by
  rw [edge_eq hc hb, Gateway.handleAssertion, hc.decodes]
  simp only
  split
  · exact Or.inl ⟨_, rfl⟩
  · rename_i reason message _
    have hreport : TextReport (textReport publisher id [] reason.text.toList message) reason.text.toList :=
      ⟨publisher, id, [], message, hn.publisher.2.1, rfl⟩
    refine Or.inr (Or.inr ⟨message, reason.text, _, ?_, Merchant.text_mem_ownReasons reason, hreport⟩)
    unfold Gateway.reject Gateway.reportRejection
    rw [if_neg hc.reachable, orElse_of_identifier hn.publisher, orDefault_of_identifier hn.id]
    rfl
  · exact Or.inr (Or.inl ⟨_, rfl⟩)

end Edge

/-! ## Settlement and back -/

section Sale

variable {x : Passage} {assertion : Json} {publisher id : List Char}

theorem conclude_refuse (sale : Merchant.Sale) {status : ℕ} (h : 400 ≤ status) (error reason : List Char) :
    sale.conclude (refuse status error reason) = refuse status error reason := by
  have hstatus : ¬(200 ≤ (refuse status error reason).status ∧ (refuse status error reason).status ≤ 299) :=
    fun hok => absurd hok.2 (not_le.mpr (lt_of_lt_of_le (by decide) h))
  rw [Merchant.Sale.conclude, if_neg hstatus]

/-- An answer of settlement is an error with a reason, and an internal error or a deliberate refusal. -/
theorem statusFor_cases (e : Err) : 400 ≤ (statusFor e).1 ∧ (statusFor e).2.name.toList ≠ [] ∧
    ((statusFor e).2 = .internalError ∨ (statusFor e).2.name.toList ∉ failures.map String.toList) := by
  have hall : ∀ a ∈ statuses, 400 ≤ a.1 ∧ a.2.name.toList ≠ [] ∧
      (a.2 = .internalError ∨ a.2.name.toList ∉ failures.map String.toList) := by decide
  exact hall _ (statusFor_mem e)

/-- A refusal of the payment is not an internal error. -/
theorem not_internal_of_402 {e : Err} (h : (statusFor e).1 = 402) : (statusFor e).2 ≠ .internalError := by
  have hall : ∀ a ∈ statuses, a.1 = 402 → a.2 ≠ .internalError := by decide
  exact hall _ (statusFor_mem e) h

/-- What settlement answers to an error. -/
def refusal (e : Err) : Response := refuse (statusFor e).1 (wireText e.text) (statusFor e).2.name.toList

/-- A 402 is not reported again. -/
theorem reportRefusal_402 (x : Passage) {e : Err} (h : (statusFor e).1 = 402) :
    Merchant.reportRefusal p.config p.rt (refusal e) x.assertion = none := by
  have hstatus : (refusal e).status < 400 ∨ (refusal e).status = 402 := Or.inr h
  rw [Merchant.reportRefusal, if_pos hstatus]

/-- **A refusal of settlement goes back through the merchant**, which takes a 402 for a challenge and reports any
other once more. -/
theorem once_echoed_iff {db : DB} {j : Journal} {e : Err} (hc : Carries p x assertion)
    (hn : Named assertion publisher id)
    (hrows : j.db.rejected.length = db.rejected.length + if (statusFor e).2 = .internalError then 0 else 1)
    (hw : (answerReported p j x (refusal e)).1.intact = true) :
    JournalledOnce db (answerReported p j x (refusal e)) ↔
      (statusFor e).1 = 402 ∨ ∀ report,
        Merchant.reportRefusal p.config p.rt (refusal e) x.assertion = some report → fits report.toJson = false := by
  obtain ⟨hstatus, hreason, hkind⟩ := statusFor_cases e
  by_cases h402 : (statusFor e).1 = 402
  · have hpayment := not_internal_of_402 h402
    have hout : answerReported p j x (refusal e) = (j, refusal e) := by
      rw [answerReported, reportRefusal_402 x h402]
      rfl
    rw [hout, if_neg hpayment] at *
    have honce : JournalledOnce db (j, refusal e) :=
      (once_refuse_iff hrows hstatus hreason (hkind.resolve_left hpayment)).mpr rfl
    exact ⟨fun _ => Or.inl h402, fun _ => honce⟩
  · obtain ⟨report, hreport, htext⟩ : ∃ report,
        Merchant.reportRefusal p.config p.rt (refusal e) x.assertion = some report ∧
          TextReport report (statusFor e).2.name.toList := reportRefusal_refuse hc hn ⟨hstatus, h402⟩ hreason
    have hunread : (∀ report', Merchant.reportRefusal p.config p.rt (refusal e) x.assertion = some report' →
        fits report'.toJson = false) ↔ fits report.toJson = false := by
      constructor
      · exact fun h => h report hreport
      · rintro h report' hreport'
        obtain rfl := Option.some.inj (hreport.symm.trans hreport')
        exact h
    have hout : answerReported p j x (refusal e) = (sendReport p j (some report), refusal e) := by
      rw [answerReported, hreport]
    rw [hout] at hw ⊢
    dsimp only at hw
    rw [hunread, or_iff_right h402]
    have htotal := sendReport_rows htext hreason hw
    rw [hrows, Nat.add_assoc] at htotal
    rcases hkind with hint | hdeliberate
    · -- an internal error is not journalled, and reported all the same
      have hrefusal : refusal e = refuse (statusFor e).1 (wireText e.text) "internal_error".toList := by
        rw [refusal, hint]
        rfl
      rw [hrefusal, once_internal_iff htotal, if_pos hint]
      by_cases hfits : fits report.toJson = true
      · simp [hfits]
      · simp [hfits]
    · have hnot : (statusFor e).2 ≠ .internalError := by
        intro hint
        rw [hint] at hdeliberate
        exact hdeliberate (List.mem_map_of_mem List.mem_cons_self)
      rw [refusal, once_refuse_iff htotal hstatus hreason hdeliberate, if_neg hnot]
      by_cases hfits : fits report.toJson = true
      · simp [hfits]
      · simp [hfits]

/-- An answer of settlement to a body it cannot read. -/
theorem settleSale_of_malformed (j : Journal) {sale : Merchant.Sale} (hd : decodeBody decodeRequest sale.body = none) :
    settleSale p j x sale
      = answerReported p j x (refuse 400 "malformed request body".toList "bad_request".toList) := by
  have hanswer : handleSettle p.svc j sale.body x.env
      = (j, refuse 400 "malformed request body".toList "bad_request".toList) := by
    rw [handleSettle, hd]
  rw [settleSale, hanswer]
  dsimp only
  rw [conclude_refuse sale (show 400 ≤ 400 by decide)]

theorem settleSale_of_ok {j : Journal} {sale : Merchant.Sale} {req : Request} {db : DB} {result : Settlement.Result}
    (hd : decodeBody decodeRequest sale.body = some req) (h : p.svc.settle j.db req x.env = (db, .ok result)) :
    settleSale p j x sale = (⟨db, j.intact⟩, ⟨200, sale.fulfillment result.toJson⟩) := by
  have hanswer : handleSettle p.svc j sale.body x.env = (⟨db, j.intact⟩, ⟨200, result.toJson⟩) := by
    rw [handleSettle, hd]
    dsimp only
    rw [h]
  rw [settleSale, hanswer]
  rfl

theorem handleSettle_of_error {j : Journal} {body : Json} {req : Request} {db : DB} {e : Err}
    (hd : decodeBody decodeRequest body = some req) (h : p.svc.settle j.db req x.env = (db, .error e)) :
    handleSettle p.svc j body x.env = (Journal.refuse p.svc.driver ⟨db, j.intact⟩ req e, refusal e) := by
  rw [handleSettle, hd]
  dsimp only
  rw [h]
  rfl

theorem conclude_refusal (sale : Merchant.Sale) (e : Err) : sale.conclude (refusal e) = refusal e :=
  conclude_refuse sale (statusFor_cases e).1 _ _

/-- A refused settlement is journalled, and its answer goes back through the merchant. -/
theorem settleSale_of_error {j : Journal} {sale : Merchant.Sale} {req : Request} {db : DB} {e : Err}
    (hd : decodeBody decodeRequest sale.body = some req) (h : p.svc.settle j.db req x.env = (db, .error e)) :
    settleSale p j x sale
      = answerReported p (Journal.refuse p.svc.driver ⟨db, j.intact⟩ req e) x (refusal e) := by
  rw [settleSale, handleSettle_of_error hd h]
  dsimp only
  rw [conclude_refusal]

/-- **Settlement decides**: the journal is right exactly if only the payment was in question. -/
theorem once_settled_iff {db : DB} {sale : Merchant.Sale} {req : Request} (hc : Carries p x assertion)
    (hn : Named assertion publisher id) (hd : decodeBody decodeRequest sale.body = some req)
    (hw : (settleSale p ⟨db, true⟩ x sale).1.intact = true) :
    JournalledOnce db (settleSale p ⟨db, true⟩ x sale) ↔
      Smooth p.svc db req x.env ∨ Unreported p db x sale := by
  have hkept := settle_rejected p.svc db req x.env
  obtain ⟨db', result, hsettle⟩ : ∃ db' result, p.svc.settle db req x.env = (db', result) := ⟨_, _, rfl⟩
  rw [hsettle] at hkept
  have hlength : db'.rejected.length = db.rejected.length := congrArg List.length hkept
  rw [← settle_decided, hsettle]
  cases result with
  | ok result =>
    have hquiet : ¬Deliberate (⟨200, sale.fulfillment result.toJson⟩ : Response) :=
      fun h => absurd (show 400 ≤ 200 from h.1) (by decide)
    rw [settleSale_of_ok hd hsettle]
    exact ⟨fun _ => Or.inl trivial, fun _ => once_of_quiet hlength hquiet⟩
  | error e =>
    rw [settleSale_of_error hd hsettle] at hw ⊢
    have hrows := Journal.refuse_rows (intact_of_sendReport hw)
    rw [hlength] at hrows
    rw [once_echoed_iff hc hn hrows hw, Unreported, handleSettle_of_error hd hsettle]
    dsimp only
    rw [conclude_refusal]
    rfl

end Sale

/-! ## The whole purchase -/

section Whole

variable {x : Passage} {assertion : Json} {publisher id : List Char} {db : DB}

theorem own_of_edge {report : RejectionReport} {r : Response} {report' : Option RejectionReport}
    (he : edge p x = .answer r report') (h : Own p x report) : report' = some report := by
  cases h with
  | edge h =>
    rw [he] at h
    injection h
  | merchant h => cases he.symm.trans h
  | undecoded h => cases he.symm.trans h

theorem not_own_of_throws {report : RejectionReport} {message : List Char} (he : edge p x = .throws message) :
    ¬Own p x report := by
  intro h
  cases h with
  | edge h => cases he.symm.trans h
  | merchant h => cases he.symm.trans h
  | undecoded h => cases he.symm.trans h

theorem reaches_of_proxy {body : List Char} {sale : Merchant.Sale} {req : Request}
    (he : edge p x = .proxy .merchant body) :
    Reaches p x sale req ↔ admission p x body = .settles sale ∧ decodeBody decodeRequest sale.body = some req := by
  constructor
  · rintro ⟨body', h, ha, hd⟩
    obtain ⟨-, rfl⟩ := Gateway.Outcome.proxy.inj (he.symm.trans h)
    exact ⟨ha, hd⟩
  · rintro ⟨ha, hd⟩
    exact ⟨body, he, ha, hd⟩

/-- A report of the merchant's, once the request is there. -/
theorem own_of_proxy {body : List Char} {report : RejectionReport} (he : edge p x = .proxy .merchant body) :
    Own p x report ↔
      (∃ r, admission p x body = .answers r ∧
        Merchant.reportRefusal p.config p.rt r x.assertion = some report) ∨
      ∃ sale, admission p x body = .settles sale ∧ decodeBody decodeRequest sale.body = none ∧
        Merchant.reportRefusal p.config p.rt (refuse 400 "malformed request body".toList "bad_request".toList)
          x.assertion = some report := by
  constructor
  · intro h
    cases h with
    | edge h => cases he.symm.trans h
    | merchant h ha hr =>
      obtain ⟨-, rfl⟩ := Gateway.Outcome.proxy.inj (he.symm.trans h)
      exact Or.inl ⟨_, ha, hr⟩
    | undecoded h ha hd hr =>
      obtain ⟨-, rfl⟩ := Gateway.Outcome.proxy.inj (he.symm.trans h)
      exact Or.inr ⟨_, ha, hd, hr⟩
  · rintro (⟨r, ha, hr⟩ | ⟨sale, ha, hd, hr⟩)
    · exact .merchant he ha hr
    · exact .undecoded he ha hd hr

/-- A fault has no reason, so it is not reported. -/
theorem reportRefusal_fault (status : ℕ) (error assertion : List Char) :
    Merchant.reportRefusal p.config p.rt (fault status error) assertion = none := by
  simp [Merchant.reportRefusal, Json.truthy]

section Proxied

variable {body : List Char} {sale sale' : Merchant.Sale} {req : Request} {P : RejectionReport → Prop}

/-- The merchant's own answer is all it may report. -/
theorem forall_own_of_answers {r : Response} (he : edge p x = .proxy .merchant body)
    (ha : admission p x body = .answers r) : (∀ report, Own p x report → P report) ↔
      ∀ report, Merchant.reportRefusal p.config p.rt r x.assertion = some report → P report := by
  simp only [own_of_proxy he]
  constructor
  · exact fun h report hr => h report (Or.inl ⟨r, ha, hr⟩)
  · rintro h report (⟨r', ha', hr⟩ | ⟨sale, ha', -⟩)
    · obtain rfl := Merchant.Admission.answers.inj (ha.symm.trans ha')
      exact h report hr
    · cases ha.symm.trans ha'

theorem not_reaches_of_answers {r : Response} (he : edge p x = .proxy .merchant body)
    (ha : admission p x body = .answers r) : ¬Reaches p x sale req := by
  rw [reaches_of_proxy he, ha]
  rintro ⟨h, -⟩
  cases h

/-- Nor does it report anything or reach settlement if it throws. -/
theorem silent_of_throws {message : List Char} (he : edge p x = .proxy .merchant body)
    (ha : admission p x body = .throws message) : (∀ report, ¬Own p x report) ∧ ∀ sale req, ¬Reaches p x sale req := by
  constructor
  · intro report
    rw [own_of_proxy he, ha]
    rintro (⟨r, h, -⟩ | ⟨sale, h, -⟩) <;> cases h
  · intro sale req
    rw [reaches_of_proxy he, ha]
    rintro ⟨h, -⟩
    cases h

/-- Of a sale whose body settlement cannot read, the merchant may report the refusal. -/
theorem forall_own_of_malformed (he : edge p x = .proxy .merchant body) (ha : admission p x body = .settles sale)
    (hd : decodeBody decodeRequest sale.body = none) : (∀ report, Own p x report → P report) ↔
      ∀ report, Merchant.reportRefusal p.config p.rt (refuse 400 "malformed request body".toList "bad_request".toList)
        x.assertion = some report → P report := by
  simp only [own_of_proxy he]
  constructor
  · exact fun h report hr => h report (Or.inr ⟨sale, ha, hd, hr⟩)
  · rintro h report (⟨r, ha', -⟩ | ⟨-, -, -, hr⟩)
    · cases ha.symm.trans ha'
    · exact h report hr

/-- Of a sale that settlement reads, the merchant reports nothing of its own. -/
theorem not_own_of_read (he : edge p x = .proxy .merchant body) (ha : admission p x body = .settles sale)
    (hd : decodeBody decodeRequest sale.body = some req) (report : RejectionReport) : ¬Own p x report := by
  rw [own_of_proxy he]
  rintro (⟨r, ha', -⟩ | ⟨sale', ha', hd', -⟩)
  · cases ha.symm.trans ha'
  · obtain rfl := Merchant.Admission.settles.inj (ha.symm.trans ha')
    cases hd.symm.trans hd'

theorem reaches_of_settles (he : edge p x = .proxy .merchant body) (ha : admission p x body = .settles sale) :
    Reaches p x sale' req ↔ sale = sale' ∧ decodeBody decodeRequest sale.body = some req := by
  rw [reaches_of_proxy he, ha, Merchant.Admission.settles.injEq]
  constructor
  · rintro ⟨rfl, hd⟩
    exact ⟨rfl, hd⟩
  · rintro ⟨rfl, hd⟩
    exact ⟨rfl, hd⟩

end Proxied

/-- A refusal with a reason that only the merchant reports. -/
theorem once_reportRefusal_iff {status : ℕ} {error reason : List Char} (hc : Carries p x assertion)
    (hn : Named assertion publisher id) (hs : 400 ≤ status ∧ status ≠ 402) (hr : reason ≠ [])
    (hf : reason ∉ failures.map String.toList)
    (hw : (answerReported p ⟨db, true⟩ x (refuse status error reason)).1.intact = true) :
    JournalledOnce db (answerReported p ⟨db, true⟩ x (refuse status error reason)) ↔ ∀ report,
      Merchant.reportRefusal p.config p.rt (refuse status error reason) x.assertion = some report →
        fits report.toJson = true := by
  obtain ⟨report, hreport, htext⟩ : ∃ report,
      Merchant.reportRefusal p.config p.rt (refuse status error reason) x.assertion = some report ∧
        TextReport report reason := reportRefusal_refuse hc hn hs hr
  rw [answerReported, hreport] at hw ⊢
  dsimp only at hw
  rw [once_reported_iff (j := ⟨db, true⟩) rfl htext hs.1 hr hf hw]
  constructor
  · rintro hfits report' hreport'
    obtain rfl := Option.some.inj hreport'
    exact hfits
  · exact fun h => h report rfl

/-- **At the merchant**, what is left of the condition is its own reports and what reaches settlement. -/
theorem once_atMerchant_iff {body : List Char} (hc : Carries p x assertion) (hn : Named assertion publisher id)
    (he : edge p x = .proxy .merchant body) (hw : (atMerchant p ⟨db, true⟩ x body).1.intact = true) :
    JournalledOnce db (atMerchant p ⟨db, true⟩ x body) ↔
      (∀ report, Own p x report → fits report.toJson = true) ∧
        ∀ sale req, Reaches p x sale req → Smooth p.svc db req x.env ∨ Unreported p db x sale := by
  unfold atMerchant at hw ⊢
  cases hadmission : admission p x body with
  | throws message =>
    obtain ⟨hown, hreaches⟩ := silent_of_throws he hadmission
    exact iff_of_true (once_of_quiet rfl (not_deliberate_failure (show "merchant_error" ∈ failures by decide)))
      ⟨fun report h => absurd h (hown report), fun sale req h => absurd h (hreaches sale req)⟩
  | answers r =>
    have hsettled : ∀ sale req, Reaches p x sale req → Smooth p.svc db req x.env ∨ Unreported p db x sale :=
      fun _ _ h => absurd h (not_reaches_of_answers he hadmission)
    rw [forall_own_of_answers he hadmission, and_iff_left hsettled]
    simp only [hadmission] at hw ⊢
    have hown := Merchant.own_of_receive p.config p.merchantKey p.rt hc.payment hadmission
    cases hown with
    | fault status error hs =>
      have hout : answerReported p ⟨db, true⟩ x (fault status error) = (⟨db, true⟩, fault status error) := by
        rw [answerReported, reportRefusal_fault]
        rfl
      rw [hout]
      refine iff_of_true (once_of_quiet rfl (not_deliberate_fault status error)) fun report hr => ?_
      rw [reportRefusal_fault] at hr
      cases hr
    | refuse status error hs hr =>
      obtain ⟨hreason, hdeliberate⟩ := reason_ownReasons hr
      exact once_reportRefusal_iff hc hn hs hreason hdeliberate hw
  | settles sale =>
    simp only [hadmission] at hw ⊢
    simp only [reaches_of_settles he hadmission]
    cases hd : decodeBody decodeRequest sale.body with
    | none =>
      rw [forall_own_of_malformed he hadmission hd]
      rw [settleSale_of_malformed _ hd] at hw ⊢
      rw [once_reportRefusal_iff hc hn (by decide) (by decide) (by decide) hw]
      exact (and_iff_left fun sale' req h => nomatch h.2).symm
    | some req =>
      rw [once_settled_iff hc hn hd hw]
      constructor
      · intro h
        refine ⟨fun report hown => absurd hown (not_own_of_read he hadmission hd report), ?_⟩
        rintro sale' req' ⟨rfl, hreq⟩
        obtain rfl := Option.some.inj hreq
        exact h
      · exact fun h => h.2 sale req ⟨rfl, rfl⟩

/-- **The journal is right after a purchase exactly if the purchase is clean.** -/
theorem journalled_once_iff (p : Deployment) (db : DB) (x : Passage) {assertion : Json} {publisher id : List Char}
    (hc : Carries p x assertion) (hn : Named assertion publisher id) (hw : (purchase p db x).1.intact = true) :
    JournalledOnce db (purchase p db x) ↔ Clean p db x := by
  by_cases hb : x.request.bounded = true
  swap
  · -- the body is refused, and nobody is told
    have he := edge_of_unbounded hc.pays (Bool.not_eq_true _ ▸ hb)
    have hout : purchase p db x
        = (⟨db, true⟩, refuse 413 "request body exceeds 262144 bytes".toList "body_too_large".toList) := by
      simp only [purchase, he]
      rfl
    rw [hout, once_refuse_iff (j := ⟨db, true⟩) (n := 0) rfl (by decide) (by decide) (by decide)]
    exact ⟨fun h => absurd h zero_ne_one, fun h => absurd h.bounded hb⟩
  have hclean : Clean p db x ↔ (∀ report, Own p x report → fits report.toJson = true) ∧
      ∀ sale req, Reaches p x sale req → Smooth p.svc db req x.env ∨ Unreported p db x sale :=
    ⟨fun h => ⟨h.own, h.smooth⟩, fun h => ⟨hb, h.1, h.2⟩⟩
  rw [hclean]
  rcases edge_cases hc hn hb with ⟨body, he⟩ | ⟨message, he⟩ | ⟨error, reason, report, he, hreason, htext⟩
  · simp only [purchase, he] at hw ⊢
    exact once_atMerchant_iff hc hn he hw
  · have hquiet : JournalledOnce db (⟨db, true⟩, Gateway.crashed message) :=
      once_of_quiet rfl (not_deliberate_failure (show "gateway_error" ∈ failures by decide))
    have hnone : ∀ sale req, ¬Reaches p x sale req := by
      rintro sale req ⟨body, h, -⟩
      cases he.symm.trans h
    simp only [purchase, he]
    exact ⟨fun _ => ⟨fun _ h => absurd h (not_own_of_throws he), fun sale req h => absurd h (hnone sale req)⟩,
      fun _ => hquiet⟩
  · obtain ⟨hne, hdeliberate⟩ := reason_ownReasons hreason
    have hnone : ∀ sale req, ¬Reaches p x sale req := by
      rintro sale req ⟨body, h, -⟩
      cases he.symm.trans h
    simp only [purchase, he] at hw ⊢
    rw [once_reported_iff (j := ⟨db, true⟩) rfl htext (by decide) hne hdeliberate hw]
    constructor
    · intro hfits
      refine ⟨fun report' hown => ?_, fun sale req h => absurd h (hnone sale req)⟩
      obtain rfl := Option.some.inj (own_of_edge he hown)
      exact hfits
    · exact fun h => h.1 report (.edge he)

end Whole

/-! ## A replay -/

namespace Sample

/-- The assertion of `Settlement.Sample`, as the search service hands it out. -/
def assertionJson : Json :=
  Json.ofProps
    [("assertion_id", Json.str "as_1".toList), ("publisher_id", Json.str "pub_1".toList),
     ("product_id", Json.str "prod_1".toList), ("search_request_id", Json.str "req_1".toList),
     ("issued_at", Json.str (Calendar.formatRFC3339 0)), ("expires_at", Json.str (Calendar.formatRFC3339 ttl)),
     ("commission_bps", Json.num "1500".toList),
     ("signature", Json.str (signaturePrefix ++ Base64.encodeStd Types.Sample.raw))]

def paymentJson : Json :=
  Json.ofProps
    [("x402Version", Json.num ['1']), ("scheme", Json.str "exact".toList),
     ("network", Json.str "base-sepolia".toList),
     ("authorization", Json.ofProps
       [("from", Json.str "0xa".toList), ("to", Json.str "0xB".toList), ("value", Json.str "129990000".toList),
        ("validAfter", Json.str ['0']), ("validBefore", Json.str ['9']), ("nonce", Json.str "0x1".toList)]),
     ("signature", Json.str "0xs".toList)]

def bodyJson : Json := Json.ofProps [("product_id", Json.str "prod_1".toList)]

/-- The values that this platform can parse. -/
def known : List Json := [bodyJson, paymentJson, assertionJson]

theorem head_known : ∀ v ∈ known, v.stringify.head? = some '\x7b' := by decide

def rt : Runtime where
  parse text := known.find? fun v => v.stringify = text
  readText := wireText
  bufferFrom text := (Base64.forgiving (Base64.symsOfText text)).getD []
  otherDate _ := none
  typeError := []
  syntaxError := []
  parse_mark text := by
    refine List.find?_eq_none.mpr fun v hv h => ?_
    have hhead := head_known v hv
    rw [of_decide_eq_true h] at hhead
    exact absurd (Option.some.inj hhead) (by decide)
  readText_mark := text_mark
  bufferFrom_of_forgiving := @getD_forgiving

def header (v : Json) : List Char := Base64.encodeStd (Utf8.encode v.stringify)

/-- A text that opens an object is read as it was written. -/
theorem textDecode_text {text : List Char} (h : text.head? = some '\x7b') :
    rt.textDecode (Utf8.encode text) = text :=
  Runtime.textDecode_text wireText_encode h

theorem textDecode_stringify {v : Json} (hv : v ∈ known) : rt.textDecode (Utf8.encode v.stringify) = v.stringify :=
  textDecode_text (head_known v hv)

theorem decode_header {v : Json} (hv : v ∈ known) (hparse : rt.parse v.stringify = some v) :
    rt.decodeHeaderJson (header v) = some v :=
  Runtime.decodeHeaderJson_encode (textDecode_stringify hv) hparse

theorem body_ne_payment : bodyJson.stringify ≠ paymentJson.stringify := by decide

theorem body_ne_assertion : bodyJson.stringify ≠ assertionJson.stringify := by decide

theorem payment_ne_assertion : paymentJson.stringify ≠ assertionJson.stringify := by decide

theorem decode_assertion : rt.decodeHeaderJson (header assertionJson) = some assertionJson :=
  decode_header (by simp [known]) (by simp [rt, known, body_ne_assertion, payment_ne_assertion])

theorem decode_payment : rt.decodeHeaderJson (header paymentJson) = some paymentJson :=
  decode_header (by simp [known]) (by simp [rt, known, body_ne_payment])

def deployment : Deployment where
  svc := Settlement.Sample.service
  rt := rt
  edge := ⟨"http://localhost:8082".toList, ()⟩
  config := ⟨[], "0xb".toList, "0xc".toList, "base-sepolia".toList⟩
  merchantKey := ()

def listing : Merchant.Listing := ⟨"prod_1".toList, "mer_1".toList, [], 12999, "USD".toList, true⟩

/-- A purchase whose payment the facilitator takes to be valid, or not. -/
def passage (valid : Bool) : Passage where
  request :=
    { method := "POST"
      path := Gateway.ROUTE.Purchase
      contentLength := none
      chunks := [Utf8.encode bodyJson.stringify]
      assertion := some (header assertionJson)
      payment := some (header paymentJson) }
  edgeNow := 0
  merchantNow := 0
  findListing _ := .ok (some listing)
  env :=
    { now := 0, pick := 0, lookup := .done, verify := .answered 200 [], newID := Utf8.str "set_2",
      settle := .answered 200 [], confirmedAt := 0
      unmarshalVerify := fun _ => .ok ⟨valid, [], []⟩
      unmarshalSettle := fun _ => .ok ⟨true, [], [], [], []⟩ }
  search := ⟨200, .null⟩

theorem carries (valid : Bool) : Carries deployment (passage valid) assertionJson := by
  refine ⟨rfl, rfl, ?_, ?_, decode_assertion, by decide⟩
  · show header paymentJson ≠ []
    decide
  · show header assertionJson ≠ []
    decide

theorem named : Named assertionJson "pub_1".toList "as_1".toList :=
  ⟨⟨rfl, by decide, by decide⟩, ⟨rfl, by decide, by decide⟩⟩

theorem ofJson_assertion : AttributionAssertion.ofJson assertionJson
    = Types.Sample.tsAssertion (signaturePrefix ++ Base64.encodeStd Types.Sample.raw) := by
  simp [AttributionAssertion.ofJson, assertionJson, Json.prop_ofProps_self, Json.prop_ofProps_of_ne,
    Types.Sample.tsAssertion, Types.Sample.fields, SignedFields.toTs, Digits.intChars]
  rfl

theorem verifies : verifyAssertion paddedScheme () rt.otherDate (.ofJson assertionJson) 0 = .ok () := by
  have hraw : Base64.forgiving (Base64.symsOfText (Base64.encodeStd Types.Sample.raw)) = some Types.Sample.raw :=
    Base64.forgiving_of_decodeStd (Base64.decodeStd_encodeStd _)
  have hver : paddedScheme.verify () (canonicalize
      (Types.Sample.goAssertion (signaturePrefix ++ Base64.encodeStd Types.Sample.raw))) Types.Sample.raw = true :=
    paddedScheme.verify_sign () _
  have hyear : Calendar.fourDigitYear ttl = true := by decide
  rw [ofJson_assertion]
  show verifyAssertion _ _ _ _ (getTime 0) = .ok ()
  exact (ts_accepts_iff (Types.Sample.same _)).mpr
    ⟨_, Types.Sample.raw, ttl / Calendar.second * 1000, rfl, hraw, hver, dateParse_format hyear, by decide⟩

theorem edge_passage (valid : Bool) : edge deployment (passage valid) = .proxy .merchant bodyJson.stringify := by
  have hbody : (passage valid).request.chunks.flatten = Utf8.encode bodyJson.stringify :=
    List.append_nil _
  have hread : deployment.rt.textDecode (Utf8.encode bodyJson.stringify) = bodyJson.stringify :=
    textDecode_stringify List.mem_cons_self
  have hdecode : deployment.rt.decodeHeaderJson (passage valid).assertion = some assertionJson := decode_assertion
  have hverify : verifyAssertion deployment.svc.ed25519 deployment.edge.key deployment.rt.otherDate
      (.ofJson assertionJson) (passage valid).edgeNow = .ok () := verifies
  rw [edge_eq (carries valid) rfl, hbody, hread, Gateway.handleAssertion, hdecode]
  simp only [hverify]

def sale : Merchant.Sale where
  listing := listing
  assertion := assertionJson
  payment := paymentJson
  requirements := Merchant.requirementsFor deployment.config listing "129990000".toList

theorem parse_body : rt.parse (rt.readText (Utf8.encode bodyJson.stringify)) = some bodyJson := by
  show rt.parse (wireText (Utf8.encode bodyJson.stringify)) = some bodyJson
  rw [wireText_encode]
  simp [rt, known]

theorem checkSale_sample :
    Merchant.checkSale deployment.config deployment.rt listing assertionJson paymentJson "129990000".toList
      = .settles sale := by
  have hproduct : Json.strictEq (assertionJson.prop "product_id") (some (.str listing.productId)) = true := by
    rw [assertionJson, Json.prop_ofProps_of_ne (by decide), Json.prop_ofProps_of_ne (by decide),
      Json.prop_ofProps_self]
    decide
  have hvalue : ¬Merchant.authorizationText paymentJson "value" ≠ "129990000".toList := by decide
  have hpayee : ¬Merchant.toLowerCase (Merchant.authorizationText paymentJson "to")
      ≠ Merchant.toLowerCase deployment.config.payToAddress := by decide
  simp only [Merchant.checkSale, hproduct, Bool.not_true, Bool.false_eq_true, if_false, if_neg hvalue,
    if_neg hpayee, sale]

theorem checkHeaders_sample {payment assertion : List Char} (hp : rt.decodeHeaderJson payment = some paymentJson)
    (ha : rt.decodeHeaderJson assertion = some assertionJson) :
    Merchant.checkHeaders deployment.config deployment.merchantKey deployment.rt listing "129990000".toList
      payment assertion 0 = .settles sale := by
  have hassertion : deployment.rt.decodeHeaderJson assertion = some assertionJson := ha
  have hpayment : deployment.rt.decodeHeaderJson payment = some paymentJson := hp
  have hformed : Merchant.malformedPayment paymentJson = none := by decide
  have hverify : verifyAssertion deployment.svc.ed25519 deployment.merchantKey deployment.rt.otherDate
      (.ofJson assertionJson) 0 = .ok () := verifies
  rw [Merchant.checkHeaders, hassertion, hpayment]
  dsimp only
  rw [hformed]
  simp only [hverify]
  exact checkSale_sample

theorem checkListing_sample :
    Merchant.checkListing deployment.config deployment.merchantKey deployment.rt listing (header paymentJson)
      (header assertionJson) 0 = .settles sale := by
  have hunits : Merchant.centsToAtomicUnits listing.priceCents = .ok "129990000".toList := by rfl
  have hpayment : header paymentJson ≠ [] := by decide
  have hassertion : header assertionJson ≠ [] := by decide
  rw [Merchant.checkListing, hunits]
  dsimp only
  rw [if_neg hpayment, if_neg hassertion]
  exact checkHeaders_sample decode_payment decode_assertion

theorem admission_passage (valid : Bool) :
    admission deployment (passage valid) bodyJson.stringify = .settles sale := by
  have hshort : ¬(Utf8.encode bodyJson.stringify).length > Merchant.MAX_BODY_BYTES := by decide
  have hproduct : bodyJson.prop "product_id" = some (.str "prod_1".toList) := Json.prop_ofProps_self _ _ _
  have htruthy : Json.truthy (some (.str "prod_1".toList)) = true := by decide
  have hstock : listing.inStock = true := rfl
  show Merchant.receive deployment.config deployment.merchantKey rt (fun _ => .ok (some listing))
    (Utf8.encode bodyJson.stringify) (header paymentJson) (header assertionJson) 0 = _
  rw [Merchant.receive, if_neg hshort, parse_body]
  simp only [Merchant.checkPurchase, hproduct, htruthy, hstock, Bool.not_true, Bool.false_eq_true, if_false]
  exact checkListing_sample

/-- The request as settlement reads it. -/
def settled : Request where
  assertion := Settlement.Sample.assertion
  merchantID := Utf8.str "mer_1"
  grossAmountCents := 12999
  currency := Utf8.str "USD"
  paymentPayload :=
    { x402Version := 1
      scheme := Utf8.str "exact"
      network := Utf8.str "base-sepolia"
      authorization :=
        { from_ := Utf8.str "0xa", to_ := Utf8.str "0xB", value := Utf8.str "129990000", validAfter := Utf8.str "0",
          validBefore := Utf8.str "9", nonce := Utf8.str "0x1" }
      signature := Utf8.str "0xs" }
  paymentRequirements :=
    { scheme := Utf8.str "exact"
      network := Utf8.str "base-sepolia"
      asset := Utf8.str "0xc"
      maxAmountRequired := Utf8.str "129990000"
      payTo := Utf8.str "0xb"
      maxTimeoutSeconds := 120
      resource := Utf8.str "/purchase/prod_1"
      description := [] }

theorem fits_sale : fits sale.body = true := by
  decide +kernel

theorem decodeRequest_sale : decodeRequest sale.body = some settled := by
  decide +kernel

theorem decode_sale : decodeBody decodeRequest sale.body = some settled := by
  rw [decodeBody, if_pos fits_sale, decodeRequest_sale]

theorem purchase_passage (db : DB) (valid : Bool) :
    purchase deployment db (passage valid) = settleSale deployment ⟨db, true⟩ (passage valid) sale := by
  rw [purchase, edge_passage]
  dsimp only
  rw [atMerchant, admission_passage]

theorem verify_settled : deployment.svc.verify settled 0 = none := by
  have hmint : mint paddedScheme () Settlement.Sample.mintArgs = .ok settled.assertion := Settlement.Sample.mint_eq
  exact Settlement.Sample.verify_minted hmint rfl

theorem lookup_settled : Store.lookupListing deployment.svc.driver Settlement.Sample.final.db
    settled.assertion.productID settled.merchantID (passage true).env.pick .done
    = .ok Settlement.Sample.listingRow.listing :=
  lookupListing_of (by decide) (by decide)

theorem checkListing_settled : settled.checkListing Settlement.Sample.listingRow.listing = none := by decide

theorem begin_replayed : Store.begin deployment.svc.driver Settlement.Sample.final.db
    (settled.pending Settlement.Sample.listingRow.listing (passage true).env.newID) .done
    = (Settlement.Sample.final.db, some Sentinel.assertionReused.err) := rfl

/-- The assertion is settled already. -/
theorem settle_replayed : deployment.svc.settle Settlement.Sample.final.db settled (passage true).env
    = (Settlement.Sample.final.db, .error Sentinel.assertionReused.err) := by
  have hverify : deployment.svc.verify settled (passage true).env.now = none := verify_settled
  have hlookup : (passage true).env.lookup = .done := rfl
  have hvalid : checkVerified (passage true).env.verifyAnswer = none := rfl
  rw [Service.settle, hverify]
  dsimp only
  rw [hlookup, lookup_settled]
  dsimp only
  rw [Service.check, checkListing_settled, hvalid]
  dsimp only
  rw [Service.claim, begin_replayed]

/-- What the merchant reports of the replay. -/
def report : RejectionReport :=
  textReport "pub_1".toList "as_1".toList [] "assertion_reused".toList
    "assertion already consumed".toList

theorem text_reused : wireText Sentinel.assertionReused.err.text = "assertion already consumed".toList :=
  wireText_encode _

theorem reportRefusal_replayed : Merchant.reportRefusal deployment.config deployment.rt
    (refusal Sentinel.assertionReused.err) (passage true).assertion = some report := by
  have hbytes : rt.bufferFrom (header assertionJson) = Utf8.encode assertionJson.stringify :=
    rt.bufferFrom_of_forgiving (Base64.forgiving_of_decodeStd (Base64.decodeStd_encodeStd _))
  have hdecode : rt.decodeBuffer (header assertionJson) = some assertionJson := by
    have hread (bs : Bytes) : rt.readText bs = wireText bs := rfl
    rw [Runtime.decodeBuffer, hbytes, hread, wireText_encode]
    simp [rt, known, body_ne_assertion, payment_ne_assertion]
  have hnamed : Merchant.decodeAssertionForReporting rt (header assertionJson) = assertionJson := by
    have hne : header assertionJson ≠ [] := (carries true).header
    rw [Merchant.decodeAssertionForReporting, if_neg hne, hdecode]
    rfl
  have hstatus : ¬((refusal Sentinel.assertionReused.err).status < 400 ∨
      (refusal Sentinel.assertionReused.err).status = 402) := by decide
  have hreason : (refusal Sentinel.assertionReused.err).reason = some (.str "assertion_reused".toList) :=
    reason_refuse _ _ _
  have herror : (refusal Sentinel.assertionReused.err).body.prop "error"
      = some (.str (wireText Sentinel.assertionReused.err.text)) := Json.prop_ofProps_self _ _ _
  show Merchant.reportRefusal deployment.config rt _ (header assertionJson) = _
  rw [Merchant.reportRefusal, if_neg hstatus, hreason, truthy_str (by decide), hnamed, herror, text_reused]
  dsimp only
  rw [orDefault_of_identifier named.publisher, orDefault_of_identifier named.id]
  rfl

theorem fits_report : fits report.toJson = true := by decide +kernel

theorem detail_report : textOk (truncateDetail (Utf8.str "assertion already consumed")) = true := by decide

theorem storable_report : Storable report := by
  refine ⟨fits_report, ⟨_, ?_, Or.inl rfl, ?_⟩, ⟨_, Or.inl rfl, ?_⟩, ⟨_, Or.inl rfl, ?_⟩,
    ⟨_, ?_, Or.inl rfl, ?_⟩, _, rfl, detail_report⟩
  all_goals decide

theorem rejection_ok : (settled.rejection Sentinel.assertionReused.err).textsOk = true := by
  decide

/-- **The replay is journalled by settlement, and by the merchant again.** -/
theorem purchase_replayed : ∃ row row',
    purchase deployment Settlement.Sample.final.db (passage true)
      = (⟨{ Settlement.Sample.final.db with rejected := Settlement.Sample.final.db.rejected ++ [row] ++ [row'] }, true⟩,
        refusal Sentinel.assertionReused.err) := by
  have hint : (statusFor Sentinel.assertionReused.err).2 ≠ .internalError := by decide
  obtain ⟨row', hrow'⟩ := Journal.report_storable (d := deployment.svc.driver)
    (j := Journal.refuse deployment.svc.driver ⟨Settlement.Sample.final.db, true⟩ settled Sentinel.assertionReused.err)
    storable_report
  rw [Journal.refuse_textsOk hint rejection_ok] at hrow'
  refine ⟨(settled.rejection Sentinel.assertionReused.err).row, row', ?_⟩
  have hsale : settleSale deployment ⟨Settlement.Sample.final.db, true⟩ (passage true) sale
      = answerReported deployment (Journal.refuse deployment.svc.driver ⟨Settlement.Sample.final.db, true⟩ settled
          Sentinel.assertionReused.err) (passage true) (refusal Sentinel.assertionReused.err) :=
    settleSale_of_error (p := deployment) (j := ⟨Settlement.Sample.final.db, true⟩) decode_sale settle_replayed
  rw [purchase_passage, hsale, answerReported, reportRefusal_replayed, sendReport_some,
    Journal.refuse_textsOk hint rejection_ok, hrow']

end Sample

/-- The replay of a settled assertion is one refusal and two rows. -/
theorem replay_journalled_twice : Carries Sample.deployment (Sample.passage true) Sample.assertionJson ∧
    Named Sample.assertionJson "pub_1".toList "as_1".toList ∧
    (purchase Sample.deployment Settlement.Sample.final.db (Sample.passage true)).1.intact = true ∧
    ¬JournalledOnce Settlement.Sample.final.db
      (purchase Sample.deployment Settlement.Sample.final.db (Sample.passage true)) := by
  obtain ⟨row, row', hout⟩ := Sample.purchase_replayed
  refine ⟨Sample.carries true, Sample.named, ?_, ?_⟩
  · rw [hout]
  · rw [hout]
    intro h
    have hone := h.atMostOne
    have htwo : added Settlement.Sample.final.db
        ⟨{ Settlement.Sample.final.db with
            rejected := Settlement.Sample.final.db.rejected ++ [row] ++ [row'] }, true⟩ = 2 := by
      apply added_of_rows
      rw [List.length_append, List.length_append]
      rfl
    rw [htwo] at hone
    exact absurd hone (by decide)

theorem journalled_once_iff_sample :
    JournalledOnce Settlement.Sample.final.db
        (purchase Sample.deployment Settlement.Sample.final.db (Sample.passage true)) ↔
      Clean Sample.deployment Settlement.Sample.final.db (Sample.passage true) := by
  obtain ⟨row, row', hout⟩ := Sample.purchase_replayed
  exact journalled_once_iff Sample.deployment Settlement.Sample.final.db (Sample.passage true)
    (Sample.carries true) Sample.named (by rw [hout])

end Purchase
