import AgenticAttribution.Settlement.Invariants

/-!
# Settlement.Progress — an honest settlement goes through

A request whose assertion verifies, whose listing is found and matches, whose claim the constraints admit and whose
payment the facilitator settles is confirmed, from any state of the system (`run_confirms`).  `run_begins` is its
first half, up to the claim.
-/

namespace Settlement

open Attribution Fallible

/-- The state with one more call. -/
def Sys.push (s : Sys) (call : Call) : Sys := { s with calls := s.calls ++ [call] }

theorem get_push (s : Sys) (call : Call) : (s.push call).calls[s.calls.length]? = some call := by
  show (s.calls ++ [call])[s.calls.length]? = some call
  rw [List.getElem?_append_right le_rfl, Nat.sub_self]
  rfl

theorem put_push (s : Sys) (call new : Call) : (s.push call).put s.calls.length new = s.push new := by
  have hset : (s.calls ++ [call]).set s.calls.length new = s.calls ++ [new] := by
    rw [List.set_append_right _ _ le_rfl, Nat.sub_self]
    rfl
  exact congrArg (fun l => { s with calls := l }) hset

/-- A database changed behind the calls. -/
def Sys.withDB (s : Sys) (db : DB) : Sys := { s with db }

/-- One more payment. -/
def Sys.withExchange (s : Sys) (x : Exchange) : Sys := { s with exchanges := s.exchanges ++ [x] }

/-! ## One step of the last call -/

section Steps

variable {svc : Service} {s : Sys} {call : Call}

theorem step_enter {req : Request} {now : ℤ} (h : svc.verify req now = none) :
    step svc s (.enter req now) = some (s.push ⟨req, now, none, .verified⟩) := by
  simp only [step, Service.entered, h]
  rfl

theorem step_lookup (pick : ℕ) (fate : Fate) (hpc : call.pc = .verified) :
    step svc (s.push call) (.lookup s.calls.length pick fate)
      = some (s.push { call with pc := svc.lookup s call pick fate }) :=
  step_lookup_iff.mpr ⟨call, get_push s call, hpc, (put_push s call _).symm⟩

theorem step_found {pick : ℕ} {fate : Fate} {listing : Listing} (hpc : call.pc = .verified)
    (hfound : Store.lookupListing svc.driver s.db call.req.assertion.productID call.req.merchantID pick fate
      = .ok listing)
    (hcheck : call.req.checkListing listing = none) :
    step svc (s.push call) (.lookup s.calls.length pick fate)
      = some (s.push { call with pc := .checked listing }) := by
  rw [step_lookup _ _ hpc]
  simp only [Service.lookup, hfound, hcheck]

theorem step_verifyPayment (answer : Except Err VerifyResponse) {listing : Listing}
    (hpc : call.pc = .checked listing) :
    step svc (s.push call) (.verifyPayment s.calls.length answer)
      = some (s.push { call with pc := verifyPc listing answer }) :=
  step_verifyPayment_iff.mpr ⟨call, listing, get_push s call, hpc, (put_push s call _).symm⟩

theorem step_accepted {answer : Except Err VerifyResponse} {listing : Listing} (hpc : call.pc = .checked listing)
    (hv : checkVerified answer = none) :
    step svc (s.push call) (.verifyPayment s.calls.length answer)
      = some (s.push { call with pc := .accepted listing }) := by
  rw [step_verifyPayment _ hpc]
  simp only [verifyPc, hv]

theorem step_begin {newID : Bytes} {listing : Listing} {fate : Fate} (hpc : call.pc = .accepted listing) {db : DB}
    {r : Option Err} (hb : Store.begin svc.driver s.db (call.req.pending listing newID) fate = (db, r)) :
    step svc (s.push call) (.begin s.calls.length newID fate)
      = some ((s.withDB db).push { call with
          begun := some (listing, call.req.pending listing newID)
          pc := beginPc (call.req.pending listing newID) r }) :=
  step_begin_iff.mpr ⟨call, listing, db, r, get_push s call, hpc, hb, (put_push (s.withDB db) call _).symm⟩

theorem step_settlePayment {p : PendingSettlement} (moved : Bool) (answer : Except Err SettleResponse)
    (hpc : call.pc = .claimed p) :
    step svc (s.push call) (.settlePayment s.calls.length moved answer)
      = some ((s.withExchange (call.req.exchange p moved answer)).push
          { call with pc := settlePc p answer }) :=
  step_settlePayment_iff.mpr ⟨call, p, get_push s call, hpc, (put_push (s.withExchange _) call _).symm⟩

theorem step_confirm {p : PendingSettlement} {response : SettleResponse} {now : ℤ} {fate : Fate}
    (hpc : call.pc = .settled p response) {db : DB} {r : Option Err}
    (hb : Store.confirm svc.driver s.db p response.transaction now fate = (db, r)) :
    step svc (s.push call) (.confirm s.calls.length now fate)
      = some ((s.withDB db).push { call with pc := confirmPc p response r }) :=
  step_confirm_iff.mpr ⟨call, p, response, db, r, get_push s call, hpc, hb, (put_push (s.withDB db) call _).symm⟩

theorem step_fail {p : PendingSettlement} {err : Err} {fate : Fate} (hpc : call.pc = .refused p err) {db : DB}
    {r : Option Err} (hb : Store.fail svc.driver s.db p.settlementID fate = (db, r)) :
    step svc (s.push call) (.fail s.calls.length fate)
      = some ((s.withDB db).push { call with pc := .returned (.error (err.join r)) }) :=
  step_fail_iff.mpr ⟨call, p, err, db, r, get_push s call, hpc, hb, (put_push (s.withDB db) call _).symm⟩

end Steps

/-! ## Whole runs -/

section Runs

variable {svc : Service}

/-- A lookup that finds a row. -/
theorem lookupListing_of {d : Driver} {db : DB} {productID merchantID : Bytes} {row : ListingRow} {pick : ℕ}
    (ht : (textOk productID && textOk merchantID) = true)
    (hrow : (db.listingsOf productID merchantID)[pick % (db.listingsOf productID merchantID).length]? = some row) :
    Store.lookupListing d db productID merchantID pick .done = .ok row.listing := by
  simp only [Store.lookupListing, attempt_done, ok_bind, ht, Bool.not_true, Bool.false_eq_true, if_false, hrow]

/-- The steps of a call up to its claim. -/
def beginActions (req : Request) (now : ℤ) (pick : ℕ) (verified : VerifyResponse) (newID : Bytes) (c : ℕ) :
    List Action :=
  [.enter req now, .lookup c pick .done, .verifyPayment c (.ok verified), .begin c newID .done]

/-- What makes a request go through up to its claim. -/
structure Claimable (svc : Service) (db : DB) (req : Request) (now : ℤ) (listing : Listing) (pick : ℕ)
    (verified : VerifyResponse) (newID : Bytes) : Prop where
  verifies : svc.verify req now = none
  found : Store.lookupListing svc.driver db req.assertion.productID req.merchantID pick .done = .ok listing
  matching : req.checkListing listing = none
  valid : verified.isValid = true
  admits : db.Admits (req.pending listing newID)

/-- The checks of a call, before anything is written. -/
theorem run_accepts {s : Sys} {req : Request} {now : ℤ} {listing : Listing} {pick : ℕ} {verified : VerifyResponse}
    {newID : Bytes} (h : Claimable svc s.db req now listing pick verified newID) :
    run svc s [.enter req now, .lookup s.calls.length pick .done, .verifyPayment s.calls.length (.ok verified)]
      = some (s.push ⟨req, now, none, .accepted listing⟩) := by
  have hv : checkVerified (.ok verified) = none := by
    simp only [checkVerified, h.valid, Bool.not_true, Bool.false_eq_true, if_false]
  unfold run
  rw [Runs.run_cons_of (step_enter h.verifies), Runs.run_cons_of (step_found rfl h.found h.matching),
    Runs.run_cons_of (step_accepted rfl hv), Runs.run_nil]

theorem run_begins {s : Sys} {req : Request} {now : ℤ} {listing : Listing} {pick : ℕ} {verified : VerifyResponse}
    {newID : Bytes} (h : Claimable svc s.db req now listing pick verified newID) :
    run svc s (beginActions req now pick verified newID s.calls.length)
      = some ((s.withDB (s.db.claim (req.pending listing newID))).push
          ⟨req, now, some (listing, req.pending listing newID), .claimed (req.pending listing newID)⟩) := by
  have hbegin : step svc (s.push ⟨req, now, none, .accepted listing⟩) (.begin s.calls.length newID .done) = some _ :=
    step_begin rfl (Store.begin_of_admits svc.driver h.admits)
  refine Runs.run_append_eq_some.mpr ⟨_, run_accepts h, ?_⟩
  rw [Runs.run_cons_of hbegin]
  rfl

/-- The steps of a call from its claim to its result. -/
def payActions (c : ℕ) (moved : Bool) (response : SettleResponse) (now : ℤ) : List Action :=
  [.settlePayment c moved (.ok response), .confirm c now .done]

theorem confirmable_claim {db : DB} {p : PendingSettlement} (h : db.Admits p) {txHash : Bytes}
    (htx : textOk txHash = true) : (db.claim p).Confirmable p txHash := by
  have htexts := h.texts
  simp only [SettlementRow.textsOk, Bool.and_eq_true] at htexts
  obtain ⟨⟨⟨⟨⟨⟨⟨hsid, -⟩, -⟩, hpub⟩, hmer⟩, -⟩, hcur⟩, -⟩ := htexts
  have hsid : textOk p.settlementID = true := hsid
  have hpub : textOk p.publisherID = true := hpub
  have hmer : textOk p.merchantID = true := hmer
  have hcur : textOk p.currency = true := hcur
  have hplat : textOk platformAccountID = true := by decide
  refine ⟨by rw [hsid, htx]; rfl, ⟨p.row, List.mem_append_right _ List.mem_cons_self, ?_⟩, ?_⟩
  · exact pendingAt_iff.mpr ⟨rfl, rfl⟩
  · simp only [PendingSettlement.entries, List.all_cons, List.all_nil, hsid, hpub, hmer, hcur, hplat, Bool.and_self]

/-- **An honest settlement is confirmed.** -/
theorem run_confirms {s : Sys} {req : Request} {now later : ℤ} {listing : Listing} {pick : ℕ}
    {verified : VerifyResponse} {newID : Bytes} {moved : Bool} {response : SettleResponse}
    (h : Claimable svc s.db req now listing pick verified newID) (hs : response.success = true)
    (htx : textOk response.transaction = true) :
    run svc s (beginActions req now pick verified newID s.calls.length ++
        payActions s.calls.length moved response later)
      = some (((s.withDB ((s.db.claim (req.pending listing newID)).confirm (req.pending listing newID)
            response.transaction later)).withExchange
          (req.exchange (req.pending listing newID) moved (.ok response))).push
          ⟨req, now, some (listing, req.pending listing newID),
            .returned (.ok ((req.pending listing newID).result response))⟩) := by
  have hpc : settlePc (req.pending listing newID) (.ok response) = .settled (req.pending listing newID) response := by
    simp only [settlePc, settleFailure, hs, Bool.not_true, Bool.false_eq_true, if_false]
  refine Runs.run_append_eq_some.mpr ⟨_, run_begins h, ?_⟩
  unfold payActions
  set s' := s.withDB (s.db.claim (req.pending listing newID)) with hs'
  have hlen : s.calls.length = s'.calls.length := rfl
  rw [hlen, Runs.run_cons_of (step_settlePayment _ _ rfl), hpc]
  have hconf : Store.confirm svc.driver (s.db.claim (req.pending listing newID)) (req.pending listing newID)
      response.transaction later .done = _ :=
    Store.confirm_of_confirmable svc.driver (confirmable_claim h.admits htx)
  have hlen' : s'.calls.length
      = (s'.withExchange (req.exchange (req.pending listing newID) moved (.ok response))).calls.length := rfl
  rw [hlen', Runs.run_cons_of (step_confirm rfl hconf)]
  rfl

/-- The steps of a call from its claim, when the facilitator does not settle. -/
def failActions (c : ℕ) (moved : Bool) (answer : Except Err SettleResponse) : List Action :=
  [.settlePayment c moved answer, .fail c .done]

/-- **A settlement that the facilitator does not settle fails**, whatever became of its transfer. -/
theorem run_fails {s : Sys} {req : Request} {now : ℤ} {listing : Listing} {pick : ℕ} {verified : VerifyResponse}
    {newID : Bytes} {moved : Bool} {answer : Except Err SettleResponse} {err : Err}
    (h : Claimable svc s.db req now listing pick verified newID) (hf : settleFailure answer = .error err) :
    run svc s (beginActions req now pick verified newID s.calls.length ++ failActions s.calls.length moved answer)
      = some (((s.withDB ((s.db.claim (req.pending listing newID)).fail newID)).withExchange
          (req.exchange (req.pending listing newID) moved answer)).push
          ⟨req, now, some (listing, req.pending listing newID), .returned (.error (err.join none))⟩) := by
  have hpc : settlePc (req.pending listing newID) answer = .refused (req.pending listing newID) err := by
    simp only [settlePc, hf]
  refine Runs.run_append_eq_some.mpr ⟨_, run_begins h, ?_⟩
  unfold failActions
  set s' := s.withDB (s.db.claim (req.pending listing newID)) with hs'
  have hlen : s.calls.length = s'.calls.length := rfl
  rw [hlen, Runs.run_cons_of (step_settlePayment _ _ rfl), hpc]
  have htext : textOk newID = true := SettlementRow.textOk_settlementID h.admits.texts
  have hfail : Store.fail svc.driver (s.db.claim (req.pending listing newID)) newID .done = _ :=
    Store.fail_of_textOk svc.driver _ htext
  have hlen' : s'.calls.length
      = (s'.withExchange (req.exchange (req.pending listing newID) moved answer)).calls.length := rfl
  rw [hlen', Runs.run_cons_of (step_fail rfl hfail)]
  rfl

end Runs

/-! ## A sample settlement -/

namespace Sample

def service : Service := ⟨paddedScheme, (), ⟨id⟩, ⟨fun _ => []⟩⟩

def listingRow : ListingRow where
  listingID := Utf8.str "lst_1"
  productID := Utf8.str "prod_1"
  merchantID := Utf8.str "mer_1"
  priceCents := 12999
  currency := Utf8.str "USD"
  inStock := true
  commissionBps := 1200

def catalog : Catalog where
  publishers := [⟨Utf8.str "pub_1", Utf8.str "Publisher", Utf8.str "USD"⟩]
  merchants := [⟨Utf8.str "mer_1"⟩]
  products := [⟨Utf8.str "prod_1"⟩]
  listings := [listingRow]
  searchRequests := [⟨Utf8.str "req_1", Utf8.str "pub_1"⟩]
  listings_ok := by decide
  listings_product := by decide
  listings_merchant := by decide
  searchRequests_ok := by decide
  searchRequests_publisher := by decide

def mintArgs : MintArgs where
  assertionID := Utf8.str "as_1"
  publisherID := Utf8.str "pub_1"
  productID := Utf8.str "prod_1"
  searchRequestID := Utf8.str "req_1"
  commissionBps := 1500
  issuedAt := 0

/-- The assertion that minting gives. -/
def assertion : Assertion :=
  { mintArgs.assertion with
    signature := Utf8.encode (signaturePrefix ++ Base64.encodeStd (paddedScheme.sign () mintArgs.payload)) }

def payload : PaymentPayload where
  x402Version := 1
  scheme := Utf8.str "exact"
  network := Utf8.str "base-sepolia"
  authorization :=
    { from_ := Utf8.str "0xa", to_ := Utf8.str "0xb", value := Utf8.str "129990000", validAfter := Utf8.str "0",
      validBefore := Utf8.str "9", nonce := Utf8.str "0x1" }
  signature := Utf8.str "0xs"

def requirements : PaymentRequirements where
  scheme := Utf8.str "exact"
  network := Utf8.str "base-sepolia"
  asset := Utf8.str "0xc"
  maxAmountRequired := Utf8.str "129990000"
  payTo := Utf8.str "0xb"
  maxTimeoutSeconds := 60
  resource := []
  description := []

def request : Request := ⟨assertion, Utf8.str "mer_1", 12999, Utf8.str "USD", payload, requirements⟩

def verified : VerifyResponse := ⟨true, [], Utf8.str "0xa"⟩

def response : SettleResponse := ⟨true, [], Utf8.str "0xt", Utf8.str "base-sepolia", Utf8.str "0xa"⟩

theorem mint_eq : mint paddedScheme () mintArgs = .ok assertion :=
  (mint_eq_ok_iff paddedScheme).mpr ⟨by decide, rfl⟩

/-- A request with an assertion that was minted at the time it comes in. -/
theorem verify_minted {m : MintArgs} {req : Request} (hmint : mint paddedScheme () m = .ok req.assertion)
    (hissued : m.issuedAt = 0) : service.verify req 0 = none := by
  have h : Attribution.verify paddedScheme service.wording () req.assertion 0 = none := by
    refine verify_mint paddedScheme hmint ?_ ?_
    · rw [hissued]
      decide
    · rw [hissued]
      decide
  exact congrArg (Option.map _) h

theorem verify_eq_none : service.verify request 0 = none := verify_minted mint_eq rfl

def settlementID : Bytes := Utf8.str "set_1"

def pending : PendingSettlement := request.pending listingRow.listing settlementID

/-- The sample request goes through over the sample catalog. -/
theorem claimable :
    Claimable service (DB.empty catalog) request 0 listingRow.listing 0 verified settlementID :=
  ⟨verify_eq_none, lookupListing_of (by decide) (by decide), by decide, rfl,
    ⟨by decide, by decide, by decide, by decide, by decide, by decide, by decide⟩⟩

/-- The run that confirms it. -/
def actions : List Action :=
  .mint mintArgs :: (beginActions request 0 0 verified settlementID 0 ++ payActions 0 true response 0)

/-- The row that the run leaves. -/
def row : SettlementRow := pending.row.confirm response.transaction 0

def final : Sys :=
  ⟨((DB.empty catalog).claim pending).confirm pending response.transaction 0,
    [⟨request, 0, some (listingRow.listing, pending), .returned (.ok (pending.result response))⟩],
    [mintArgs], [request.exchange pending true (.ok response)]⟩

theorem run_actions : run service (Sys.init catalog) actions = some final := by
  have hmint : step service (Sys.init catalog) (.mint mintArgs)
      = some { Sys.init catalog with minted := [mintArgs] } := by
    have hr : mintArgs.inRange = true := by decide
    simp only [step, hr, if_true]
    rfl
  unfold actions run
  rw [Runs.run_cons_of hmint]
  exact run_confirms (s := { Sys.init catalog with minted := [mintArgs] }) claimable rfl (by decide)

/-! ### A second purchase -/

def secondArgs : MintArgs := { mintArgs with assertionID := Utf8.str "as_2" }

def secondAssertion : Assertion :=
  { secondArgs.assertion with
    signature := Utf8.encode (signaturePrefix ++ Base64.encodeStd (paddedScheme.sign () secondArgs.payload)) }

/-- The same purchase under another assertion and another authorization. -/
def second : Request :=
  { request with
    assertion := secondAssertion
    paymentPayload :=
      { payload with authorization := { payload.authorization with nonce := Utf8.str "0x2" } } }

def secondID : Bytes := Utf8.str "set_2"

theorem verify_second : service.verify second 0 = none := by
  have hmint : mint paddedScheme () secondArgs = .ok secondAssertion :=
    (mint_eq_ok_iff paddedScheme).mpr ⟨by decide, rfl⟩
  exact verify_minted hmint rfl

/-- The second purchase goes through behind the first. -/
theorem claimable_second {db : DB} (hcatalog : db.catalog = catalog) (hclaims : db.consumed = [pending.claim])
    (hids : db.settlements.map (·.settlementID) = [settlementID]) :
    Claimable service db second 0 listingRow.listing 0 verified secondID := by
  have hlistings : db.listingsOf second.assertion.productID second.merchantID = [listingRow] := by
    rw [DB.listingsOf, hcatalog]
    decide
  refine ⟨verify_second, lookupListing_of (by decide) ?_, by decide, rfl, by decide, ?_, ?_, by decide, by decide,
    ?_, ?_⟩
  · rw [hlistings]
    rfl
  · rw [hclaims]
    decide
  · rw [hcatalog]
    decide
  · rw [hids]
    decide
  · simp only [DB.references, hcatalog, hclaims]
    decide

/-- The facilitator's answer to a payment it could not settle. -/
def unsettled : SettleResponse := ⟨false, Utf8.str "insufficient_funds", [], Utf8.str "base-sepolia", Utf8.str "0xa"⟩

end Sample

end Settlement
