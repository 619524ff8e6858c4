import AgenticAttribution.Purchase.Once

/-!
# Purchase.Kept — a refused attempt is kept in the journal, or lost

A refusal is stored by settlement itself, or from the report of the service that answers it.  `kept_iff` says when
one of the two reaches the table: nothing fails on the way there, and the texts can be read and stored.
-/

namespace Purchase

open Types Attribution Settlement

/-! ## What is asked -/

section Asked

/-- An answer that refuses with a reason, `internal_error` apart. -/
def Refused (r : Response) : Prop :=
  400 ≤ r.status ∧ ∃ reason, r.reason = some (.str reason) ∧ reason ≠ [] ∧ reason ≠ "internal_error".toList

/-- A refusal has left at least one row. -/
def LeavesEvidence (db : DB) (out : Journal × Response) : Prop :=
  Refused out.2 → db.rejected.length < out.1.db.rejected.length

/-- The request is not too long for the gateway and no service fails over it; a service's own refusal makes a report
that can be stored; and of what settlement refuses, its own row can be stored or the merchant's report of it. -/
structure Kept (p : Deployment) (db : DB) (x : Passage) : Prop where
  bounded : x.request.bounded = true
  edge : ∀ message, edge p x ≠ .throws message
  merchant : ∀ body message, Purchase.edge p x = .proxy .merchant body → admission p x body ≠ .throws message
  own : ∀ report, Own p x report → Storable report
  settled : ∀ sale req e, Reaches p x sale req → (p.svc.settle db req x.env).2 = .error e →
    (statusFor e).2 ≠ .internalError → (req.rejection e).textsOk = true ∨
      ∃ report, Merchant.reportRefusal p.config p.rt (refusal e) x.assertion = some report ∧ Storable report

end Asked

/-! ## Rows -/

section Rows

variable {p : Deployment} {db : DB} {j : Journal} {x : Passage}

theorem refused_refuse {status : ℕ} {error reason : List Char} (hs : 400 ≤ status) (hr : reason ≠ [])
    (hi : reason ≠ "internal_error".toList) : Refused (refuse status error reason) :=
  ⟨hs, reason, reason_refuse _ _ _, hr, hi⟩

theorem not_refused_fault (status : ℕ) (error : List Char) : ¬Refused (fault status error) := by
  rintro ⟨-, reason, hr, -⟩
  rw [reason_fault] at hr
  cases hr

/-- A reason of the gateway's or the merchant's own is one of a refusal. -/
theorem refused_own {status : ℕ} {error : List Char} {reason : String} (hs : 400 ≤ status)
    (hr : reason ∈ Merchant.ownReasons) : Refused (refuse status error reason.toList) := by
  have hall : ∀ r ∈ Merchant.ownReasons, r.toList ≠ [] ∧ r.toList ≠ "internal_error".toList := by decide
  exact refused_refuse hs (hall reason hr).1 (hall reason hr).2

theorem evidence_of_not_refused {out : Journal × Response} (h : ¬Refused out.2) : LeavesEvidence db out :=
  fun hr => absurd hr h

theorem evidence_iff {r : Response} (hr : Refused r) :
    LeavesEvidence db (j, r) ↔ db.rejected.length < j.db.rejected.length :=
  ⟨fun h => h hr, fun h _ => h⟩

theorem rejected_sendReport {report : RejectionReport} (h : Storable report) :
    (sendReport p j (some report)).db.rejected.length = j.db.rejected.length + 1 := by
  obtain ⟨row, hrow⟩ := Journal.report_storable (d := p.svc.driver) (j := j) h
  rw [sendReport_some, hrow, List.length_append]
  rfl

theorem sendReport_lost {report : RejectionReport} (h : ¬Storable report) :
    (sendReport p j (some report)).db = j.db := by
  rw [sendReport_some]
  exact Journal.report_lost h

/-- **A refusal that is reported** leaves a row if the report can be stored. -/
theorem evidence_sendReport_iff {report : RejectionReport} {r : Response} (hr : Refused r) :
    LeavesEvidence db (sendReport p ⟨db, true⟩ (some report), r) ↔ Storable report := by
  rw [evidence_iff hr]
  by_cases hs : Storable report
  · rw [rejected_sendReport hs]
    exact iff_of_true (Nat.lt_succ_self _) hs
  · rw [sendReport_lost hs]
    exact iff_of_false (lt_irrefl _) hs

/-- A refusal with a reason is reported by the merchant, a 402 apart. -/
theorem exists_reportRefusal {status : ℕ} {error reason : List Char} (hs : 400 ≤ status ∧ status ≠ 402)
    (hr : reason ≠ []) :
    ∃ report, Merchant.reportRefusal p.config p.rt (refuse status error reason) x.assertion = some report := by
  have hstatus : ¬((refuse status error reason).status < 400 ∨ (refuse status error reason).status = 402) :=
    fun h => h.elim (fun h => absurd hs.1 (not_le.mpr h)) hs.2
  simp only [Merchant.reportRefusal, if_neg hstatus, reason_refuse, truthy_str hr, Bool.not_true, Bool.false_eq_true,
    if_false]
  exact ⟨_, rfl⟩

/-- **The merchant's own answer** leaves a row if its report can be stored. -/
theorem evidence_answerReported_iff {status : ℕ} {error reason : List Char} (hs : 400 ≤ status ∧ status ≠ 402)
    (hr : reason ≠ []) (hi : reason ≠ "internal_error".toList) :
    LeavesEvidence db (answerReported p ⟨db, true⟩ x (refuse status error reason)) ↔ ∀ report,
      Merchant.reportRefusal p.config p.rt (refuse status error reason) x.assertion = some report →
        Storable report := by
  obtain ⟨report, hreport⟩ : ∃ report,
      Merchant.reportRefusal p.config p.rt (refuse status error reason) x.assertion = some report :=
    exists_reportRefusal hs hr
  rw [answerReported, hreport, evidence_sendReport_iff (refused_refuse hs.1 hr hi)]
  constructor
  · rintro h report' hreport'
    obtain rfl := Option.some.inj hreport'
    exact h
  · exact fun h => h report rfl

end Rows

/-! ## What settlement refuses -/

section Settled

variable {p : Deployment} {db : DB} {x : Passage}

/-- A report takes no row away. -/
theorem rejected_le_answerReported (j : Journal) (r : Response) :
    j.db.rejected.length ≤ (answerReported p j x r).1.db.rejected.length := by
  show _ ≤ (sendReport p j (Merchant.reportRefusal p.config p.rt r x.assertion)).db.rejected.length
  cases Merchant.reportRefusal p.config p.rt r x.assertion with
  | none => exact le_rfl
  | some report =>
    by_cases hs : Storable report
    · rw [rejected_sendReport hs]
      exact Nat.le_succ _
    · rw [sendReport_lost hs]

/-- **A refusal of settlement** is stored there, or from the merchant's report of it. -/
theorem evidence_refusal_iff {db' : DB} {req : Request} {e : Err} (hdb : db'.rejected = db.rejected) :
    LeavesEvidence db (answerReported p (Journal.refuse p.svc.driver ⟨db', true⟩ req e) x (refusal e)) ↔
      ((statusFor e).2 ≠ .internalError → (req.rejection e).textsOk = true ∨ ∃ report,
        Merchant.reportRefusal p.config p.rt (refusal e) x.assertion = some report ∧ Storable report) := by
  obtain ⟨hstatus, hreason, -⟩ := statusFor_cases e
  by_cases hint : (statusFor e).2 = .internalError
  · have hnot : ¬Refused (refusal e) := by
      rintro ⟨-, reason, hr, -, hne⟩
      have hsame : (refusal e).reason = some (.str (statusFor e).2.name.toList) := reason_refuse _ _ _
      rw [hsame, hint] at hr
      exact hne (Json.str.inj (Option.some.inj hr)).symm
    exact iff_of_true (evidence_of_not_refused hnot) fun h => absurd hint h
  have hname : (statusFor e).2.name.toList ≠ "internal_error".toList := by
    have hall : ∀ a ∈ statuses, a.2 ≠ .internalError → a.2.name.toList ≠ "internal_error".toList := by decide
    exact hall _ (statusFor_mem e) hint
  have hrefused : Refused (refusal e) := refused_refuse hstatus hreason hname
  by_cases hok : (req.rejection e).textsOk = true
  · refine iff_of_true ?_ fun _ => Or.inl hok
    have hrow : (Journal.refuse p.svc.driver ⟨db', true⟩ req e).db.rejected.length = db.rejected.length + 1 := by
      rw [Journal.refuse_textsOk hint hok, List.length_append, hdb]
      rfl
    have hle : (Journal.refuse p.svc.driver ⟨db', true⟩ req e).db.rejected.length
        ≤ (answerReported p (Journal.refuse p.svc.driver ⟨db', true⟩ req e) x (refusal e)).1.db.rejected.length :=
      rejected_le_answerReported _ _
    rw [hrow] at hle
    exact fun _ => hle
  · -- settlement has stored nothing, and what the merchant reports is all that is left
    have hlost : (Journal.refuse p.svc.driver ⟨db', true⟩ req e).db = db' := Journal.refuse_lost hok
    have hkept : (Journal.refuse p.svc.driver ⟨db', true⟩ req e).db.rejected = db.rejected := by rw [hlost, hdb]
    have hright : ((statusFor e).2 ≠ .internalError → (req.rejection e).textsOk = true ∨ ∃ report,
        Merchant.reportRefusal p.config p.rt (refusal e) x.assertion = some report ∧ Storable report) ↔
        ∃ report, Merchant.reportRefusal p.config p.rt (refusal e) x.assertion = some report ∧ Storable report :=
      ⟨fun h => (h hint).resolve_left hok, fun h _ => Or.inr h⟩
    rw [hright, answerReported]
    cases hreport : Merchant.reportRefusal p.config p.rt (refusal e) x.assertion with
    | none =>
      rw [evidence_iff hrefused]
      dsimp only [sendReport]
      rw [hkept]
      exact iff_of_false (lt_irrefl _) (by simp)
    | some report =>
      have hone : (∃ report', some report = some report' ∧ Storable report') ↔ Storable report := by
        constructor
        · rintro ⟨report', h, hs⟩
          obtain rfl := Option.some.inj h
          exact hs
        · exact fun h => ⟨report, rfl, h⟩
      rw [hone, evidence_iff hrefused]
      by_cases hs : Storable report
      · rw [rejected_sendReport hs, hkept]
        exact iff_of_true (Nat.lt_succ_self _) hs
      · rw [sendReport_lost hs, hkept]
        exact iff_of_false (lt_irrefl _) hs

/-- **Settlement decides.** -/
theorem evidence_settled_iff {sale : Merchant.Sale} {req : Request}
    (hd : decodeBody decodeRequest sale.body = some req) :
    LeavesEvidence db (settleSale p ⟨db, true⟩ x sale) ↔ ∀ e, (p.svc.settle db req x.env).2 = .error e →
      (statusFor e).2 ≠ .internalError → (req.rejection e).textsOk = true ∨ ∃ report,
        Merchant.reportRefusal p.config p.rt (refusal e) x.assertion = some report ∧ Storable report := by
  have hkept := settle_rejected p.svc db req x.env
  obtain ⟨db', result, hsettle⟩ : ∃ db' result, p.svc.settle db req x.env = (db', result) := ⟨_, _, rfl⟩
  rw [hsettle] at hkept ⊢
  cases result with
  | ok result =>
    have hquiet : ¬Refused (⟨200, sale.fulfillment result.toJson⟩ : Response) :=
      fun h => absurd (show 400 ≤ 200 from h.1) (by decide)
    rw [settleSale_of_ok hd hsettle]
    refine iff_of_true (evidence_of_not_refused hquiet) ?_
    rintro e he
    cases he
  | error e =>
    rw [settleSale_of_error hd hsettle, evidence_refusal_iff hkept]
    constructor
    · rintro h e' he'
      obtain rfl := Except.error.inj he'
      exact h
    · exact fun h => h e rfl

end Settled

/-! ## The whole purchase -/

section Whole

variable {p : Deployment} {db : DB} {x : Passage}

/-- What the gateway refuses, with a reason of its own, it reports. -/
theorem edge_pays_cases (h : Pays p x) (hb : x.request.bounded = true) :
    (∃ body, edge p x = .proxy .merchant body) ∨ (∃ message, edge p x = .throws message) ∨
      ∃ status error reason report, edge p x = .answer (refuse status error reason.toList) (some report) ∧
        400 ≤ status ∧ reason ∈ Merchant.ownReasons := by
  have hreport (report : RejectionReport) : Gateway.reportRejection p.edge report = some report :=
    if_neg h.reachable
  rw [edge_of_bounded h hb]
  unfold Gateway.handleAssertion Gateway.reject
  simp only [hreport]
  split
  · exact Or.inr (Or.inr ⟨400, _, "assertion_missing", _, rfl, by decide, by decide⟩)
  split
  · exact Or.inr (Or.inr ⟨400, _, "malformed_headers", _, rfl, by decide, by decide⟩)
  split
  · exact Or.inl ⟨_, rfl⟩
  · rename_i reason message _
    exact Or.inr (Or.inr ⟨401, _, reason.text, _, rfl, by decide, Merchant.text_mem_ownReasons reason⟩)
  · exact Or.inr (Or.inl ⟨_, rfl⟩)

/-- **At the merchant.** -/
theorem evidence_atMerchant_iff {body : List Char} (h : Pays p x) (he : edge p x = .proxy .merchant body) :
    LeavesEvidence db (atMerchant p ⟨db, true⟩ x body) ↔
      (∀ message, admission p x body ≠ .throws message) ∧ (∀ report, Own p x report → Storable report) ∧
        ∀ sale req e, Reaches p x sale req → (p.svc.settle db req x.env).2 = .error e →
          (statusFor e).2 ≠ .internalError → (req.rejection e).textsOk = true ∨ ∃ report,
            Merchant.reportRefusal p.config p.rt (refusal e) x.assertion = some report ∧ Storable report := by
  unfold atMerchant
  cases hadmission : admission p x body with
  | throws message =>
    have hrefused : Refused (Merchant.crashed message) := refused_refuse (by decide) (by decide) (by decide)
    rw [evidence_iff hrefused]
    exact iff_of_false (lt_irrefl _) fun h => h.1 message rfl
  | answers r =>
    have hthrows : ∀ message, Merchant.Admission.answers r ≠ .throws message :=
      fun _ => Merchant.Admission.noConfusion
    have hsettled : ∀ sale req e, Reaches p x sale req → (p.svc.settle db req x.env).2 = .error e →
        (statusFor e).2 ≠ .internalError → (req.rejection e).textsOk = true ∨ ∃ report,
          Merchant.reportRefusal p.config p.rt (refusal e) x.assertion = some report ∧ Storable report :=
      fun _ _ _ hr => absurd hr (not_reaches_of_answers he hadmission)
    rw [forall_own_of_answers he hadmission, and_iff_right hthrows, and_iff_left hsettled]
    have hown := Merchant.own_of_receive p.config p.merchantKey p.rt h.payment hadmission
    cases hown with
    | fault status error hs =>
      refine iff_of_true (evidence_of_not_refused (not_refused_fault status error)) fun report hr => ?_
      rw [reportRefusal_fault] at hr
      cases hr
    | @refuse status error reason hs hr =>
      obtain ⟨hreason, hdeliberate⟩ := reason_ownReasons hr
      have hname : reason.toList ≠ "internal_error".toList :=
        fun h => hdeliberate (h ▸ List.mem_map_of_mem List.mem_cons_self)
      exact evidence_answerReported_iff hs hreason hname
  | settles sale =>
    simp only [reaches_of_settles he hadmission]
    cases hd : decodeBody decodeRequest sale.body with
    | none =>
      rw [forall_own_of_malformed he hadmission hd]
      simp only [settleSale_of_malformed _ hd, evidence_answerReported_iff (show 400 ≤ 400 ∧ 400 ≠ 402 by decide)
        (show "bad_request".toList ≠ [] by decide) (show "bad_request".toList ≠ "internal_error".toList by decide)]
      exact ⟨fun h => ⟨fun _ => Merchant.Admission.noConfusion, h, fun _ _ _ hr => nomatch hr.2⟩, fun h => h.2.1⟩
    | some req =>
      simp only [evidence_settled_iff hd]
      constructor
      · intro hall
        refine ⟨fun _ => Merchant.Admission.noConfusion,
          fun report hown => absurd hown (not_own_of_read he hadmission hd report), ?_⟩
        rintro sale' req' e ⟨rfl, hreq⟩
        obtain rfl := Option.some.inj hreq
        exact hall e
      · exact fun h e => h.2.2 sale req e ⟨rfl, rfl⟩

/-- **A refusal leaves evidence exactly if it is kept.** -/
theorem evidence_iff_kept (p : Deployment) (db : DB) (x : Passage) (h : Pays p x) :
    LeavesEvidence db (purchase p db x) ↔ Kept p db x := by
  by_cases hb : x.request.bounded = true
  swap
  · -- the body is refused, and nobody is told
    have he := edge_of_unbounded h (Bool.not_eq_true _ ▸ hb)
    have hout : purchase p db x
        = (⟨db, true⟩, refuse 413 "request body exceeds 262144 bytes".toList "body_too_large".toList) := by
      simp only [purchase, he]
      rfl
    have hrefused : Refused (refuse 413 "request body exceeds 262144 bytes".toList "body_too_large".toList) :=
      refused_refuse (by decide) (by decide) (by decide)
    rw [hout, evidence_iff hrefused]
    exact iff_of_false (lt_irrefl _) fun hk => hb hk.bounded
  rcases edge_pays_cases h hb with ⟨body, he⟩ | ⟨message, he⟩ | ⟨status, error, reason, report, he, hs, hr⟩
  · have hpurchase : purchase p db x = atMerchant p ⟨db, true⟩ x body := by
      simp only [purchase, he]
    rw [hpurchase, evidence_atMerchant_iff h he]
    constructor
    · rintro ⟨hthrows, hown, hsettled⟩
      refine ⟨hb, ?_, ?_, hown, hsettled⟩
      · intro message hm
        cases he.symm.trans hm
      · intro body' message he'
        obtain ⟨-, rfl⟩ := Gateway.Outcome.proxy.inj (he.symm.trans he')
        exact hthrows message
    · exact fun hk => ⟨fun message => hk.merchant body message he, hk.own, hk.settled⟩
  · have hrefused : Refused (Gateway.crashed message) := refused_refuse (by decide) (by decide) (by decide)
    have hpurchase : purchase p db x = (⟨db, true⟩, Gateway.crashed message) := by
      simp only [purchase, he]
    rw [hpurchase, evidence_iff hrefused]
    exact iff_of_false (lt_irrefl _) fun hk => hk.edge message he
  · have hpurchase : purchase p db x
        = (sendReport p ⟨db, true⟩ (some report), refuse status error reason.toList) := by
      simp only [purchase, he]
    rw [hpurchase, evidence_sendReport_iff (refused_own hs hr)]
    constructor
    · intro hstorable
      refine ⟨hb, ?_, ?_, ?_, ?_⟩
      · intro message hm
        cases he.symm.trans hm
      · intro body message he'
        cases he.symm.trans he'
      · intro report' hown
        obtain rfl := Option.some.inj (own_of_edge he hown)
        exact hstorable
      · rintro sale req e ⟨body, he', -⟩
        cases he.symm.trans he'
    · exact fun hk => hk.own report (.edge he)

end Whole

/-! ## A publisher that is a number -/

namespace Sample

/-- A forged assertion. -/
def forged : Json := Json.ofProps [("publisher_id", Json.num ['7']), ("signature", Json.str [])]

def forgedRt : Runtime :=
  { rt with
    parse := fun text => if text = forged.stringify then some forged else none
    parse_mark := by
      intro text
      have hhead : forged.stringify.head? = some '\x7b' := by decide
      refine if_neg fun h => ?_
      rw [← h] at hhead
      exact absurd (Option.some.inj hhead) (by decide) }

def forgedDeployment : Deployment := { deployment with rt := forgedRt }

def forgedPassage : Passage :=
  { passage true with
    request :=
      { method := "POST"
        path := Gateway.ROUTE.Purchase
        contentLength := none
        chunks := []
        assertion := some (header forged)
        payment := some (header paymentJson) } }

theorem forged_pays : Pays forgedDeployment forgedPassage := by
  refine ⟨rfl, rfl, ?_, by decide⟩
  show header paymentJson ≠ []
  decide

theorem decode_forged : forgedRt.decodeHeaderJson (header forged) = some forged := by
  have hhead : forged.stringify.head? = some '\x7b' := by decide
  have hread : forgedRt.textDecode (Utf8.encode forged.stringify) = forged.stringify := textDecode_text hhead
  have hparse : forgedRt.parse forged.stringify = some forged := by simp [forgedRt]
  exact Runtime.decodeHeaderJson_encode hread hparse

/-- What the gateway reports. -/
def forgedReport : RejectionReport :=
  { publisher_id := .num ['7']
    assertion_id := .str []
    merchant_id := .str []
    reason := .str "malformed_signature".toList
    detail := .str "signature missing the ed25519: prefix".toList }

theorem edge_forged : edge forgedDeployment forgedPassage
    = .answer (refuse 401 "signature missing the ed25519: prefix".toList "malformed_signature".toList)
      (some forgedReport) := by
  have hassertion : ¬forgedPassage.assertion = [] := by
    show header forged ≠ []
    decide
  have hdecode : forgedDeployment.rt.decodeHeaderJson forgedPassage.assertion = some forged := decode_forged
  rw [edge_of_bounded forged_pays rfl, if_neg hassertion, Gateway.handleAssertion, hdecode]
  rfl

theorem purchase_forged (db : DB) : purchase forgedDeployment db forgedPassage
    = (sendReport forgedDeployment ⟨db, true⟩ (some forgedReport),
      refuse 401 "signature missing the ed25519: prefix".toList "malformed_signature".toList) := by
  simp only [purchase, edge_forged]

end Sample

/-- A refused attempt that names its publisher with a number is lost. -/
theorem numeric_publisher_lost : Pays Sample.forgedDeployment Sample.forgedPassage ∧
    ¬LeavesEvidence (DB.empty Settlement.Sample.catalog)
      (purchase Sample.forgedDeployment (DB.empty Settlement.Sample.catalog) Sample.forgedPassage) := by
  have hrefused : Refused (refuse 401 "signature missing the ed25519: prefix".toList "malformed_signature".toList) :=
    refused_refuse (by decide) (by decide) (by decide)
  refine ⟨Sample.forged_pays, ?_⟩
  rw [Sample.purchase_forged, evidence_sendReport_iff hrefused]
  intro h
  obtain ⟨cs, -, hv | ⟨hv, -⟩, -⟩ := h.publisher
  · cases hv
  · cases hv

theorem evidence_iff_kept_sample :
    LeavesEvidence (DB.empty Settlement.Sample.catalog)
        (purchase Sample.forgedDeployment (DB.empty Settlement.Sample.catalog) Sample.forgedPassage) ↔
      Kept Sample.forgedDeployment (DB.empty Settlement.Sample.catalog) Sample.forgedPassage :=
  evidence_iff_kept Sample.forgedDeployment (DB.empty Settlement.Sample.catalog) Sample.forgedPassage
    Sample.forged_pays

end Purchase
