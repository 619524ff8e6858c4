import AgenticAttribution.Gateway.Handler
import AgenticAttribution.Merchant.Handler
import AgenticAttribution.Settlement.Routes

/-!
# Purchase.Journal — a purchase through the three services, and what it adds to the journal

The gateway, the merchant and the settlement service each report what they refuse, from their own view of it.
`purchase` sends one request through all three.  A refusal that settlement has journalled comes back through the
merchant, which reports it once more unless it is a 402; `journalled_once_iff` says when the journal ends up with
one row for a refusal and none for anything else.
-/

namespace Purchase

open Types Attribution Settlement

/-- The three services as they are configured. -/
structure Deployment where
  svc : Service
  rt : Runtime
  edge : Gateway.GatewayEnv svc.ed25519.PublicKey
  config : Merchant.MerchantConfig
  merchantKey : svc.ed25519.PublicKey

/-- A request, with what it meets on its way. -/
structure Passage where
  request : Gateway.HttpRequest
  /-- The time at the gateway and at the merchant, in milliseconds. -/
  edgeNow : ℤ
  merchantNow : ℤ
  findListing : Json → Except (List Char) (Option Merchant.Listing)
  env : Env
  /-- What the search service answers. -/
  search : Response

def Passage.payment (x : Passage) : List Char := Gateway.presented x.request.payment

def Passage.assertion (x : Passage) : List Char := Gateway.presented x.request.assertion

variable (p : Deployment)

/-- A report that is sent, if there is one. -/
def sendReport (j : Journal) : Option RejectionReport → Journal
  | none => j
  | some report => j.report p.svc.driver report.toJson

/-- The merchant reports what it is about to answer. -/
def answerReported (j : Journal) (x : Passage) (r : Response) : Journal × Response :=
  (sendReport p j (Merchant.reportRefusal p.config p.rt r x.assertion), r)

/-- A sale at the settlement service and back. -/
def settleSale (j : Journal) (x : Passage) (sale : Merchant.Sale) : Journal × Response :=
  let (j, settled) := handleSettle p.svc j sale.body x.env
  answerReported p j x (sale.conclude settled)

/-- What the merchant makes of the body that the gateway passes on. -/
def admission (x : Passage) (body : List Char) : Merchant.Admission :=
  Merchant.receive p.config p.merchantKey p.rt x.findListing (Utf8.encode body) x.payment x.assertion x.merchantNow

/-- The request at the merchant. -/
def atMerchant (j : Journal) (x : Passage) (body : List Char) : Journal × Response :=
  match admission p x body with
  | .throws message => (j, Merchant.crashed message)
  | .answers r => answerReported p j x r
  | .settles sale => settleSale p j x sale

/-- The request at the gateway. -/
def edge (x : Passage) : Gateway.Outcome := Gateway.handle p.edge p.rt x.request x.edgeNow

/-- **One purchase.**  A request to the search service leaves the journal alone. -/
def purchase (db : DB) (x : Passage) : Journal × Response :=
  let j : Journal := ⟨db, true⟩
  match edge p x with
  | .answer r report => (sendReport p j report, r)
  | .throws message => (j, Gateway.crashed message)
  | .proxy .search _ => (j, x.search)
  | .proxy .merchant body => atMerchant p j x body

/-! ## What is asked of the journal -/

section Asked

/-- The reasons of an answer that is no decision: a service failed. -/
def failures : List String := ["internal_error", "merchant_error", "gateway_error"]

/-- A refusal that carries a reason. -/
def Deliberate (r : Response) : Prop :=
  400 ≤ r.status ∧ ∃ reason, r.reason = some (.str reason) ∧ reason ≠ [] ∧ reason ∉ failures.map String.toList

/-- The platform failed with `internal_error`. -/
def InternalError (r : Response) : Prop := r.reason = some (.str "internal_error".toList)

/-- The rows that were added to `rejected_attempts`. -/
def added (db : DB) (j : Journal) : ℕ := j.db.rejected.length - db.rejected.length

/-- At most one row: one for a deliberate refusal, none for a fulfilment or an internal error. -/
structure JournalledOnce (db : DB) (out : Journal × Response) : Prop where
  atMostOne : added db out.1 ≤ 1
  refused : Deliberate out.2 → added db out.1 = 1
  fulfilled : out.2.status = 200 → added db out.1 = 0
  failed : InternalError out.2 → added db out.1 = 0

/-- A non-empty identifier without a NUL. -/
def Identifier (v : Option Json) (cs : List Char) : Prop := v = some (.str cs) ∧ cs ≠ [] ∧ '\x00' ∉ cs

/-- The assertion names its publisher and itself. -/
structure Named (assertion : Json) (publisher id : List Char) : Prop where
  publisher : Identifier (assertion.prop "publisher_id") publisher
  id : Identifier (assertion.prop "assertion_id") id

/-- A purchase that carries a payment and an assertion that decodes, where reports can be sent. -/
structure Carries (x : Passage) (assertion : Json) : Prop where
  method : x.request.method = "POST"
  path : x.request.path = Gateway.ROUTE.Purchase
  payment : x.payment ≠ []
  header : x.assertion ≠ []
  decodes : p.rt.decodeHeaderJson x.assertion = some assertion
  reachable : p.edge.SETTLEMENT_URL ≠ []

/-- A purchase that carries a payment, where reports can be sent. -/
structure Pays (x : Passage) : Prop where
  method : x.request.method = "POST"
  path : x.request.path = Gateway.ROUTE.Purchase
  payment : x.payment ≠ []
  reachable : p.edge.SETTLEMENT_URL ≠ []

theorem Carries.pays {p : Deployment} {x : Passage} {assertion : Json} (h : Carries p x assertion) : Pays p x :=
  ⟨h.method, h.path, h.payment, h.reachable⟩

end Asked

/-! ## When the journal is right -/

section Clean

/-- A report of a refusal that a service decides itself: the gateway's, the merchant's, and the merchant's of a
request to settlement that does not decode. -/
inductive Own (x : Passage) : RejectionReport → Prop where
  | edge {r : Response} {report : RejectionReport} (h : edge p x = .answer r (some report)) : Own x report
  | merchant {body : List Char} {r : Response} {report : RejectionReport} (h : edge p x = .proxy .merchant body)
    (ha : admission p x body = .answers r) (hr : Merchant.reportRefusal p.config p.rt r x.assertion = some report) :
    Own x report
  | undecoded {body : List Char} {sale : Merchant.Sale} {report : RejectionReport}
    (h : edge p x = .proxy .merchant body) (ha : admission p x body = .settles sale)
    (hd : decodeBody decodeRequest sale.body = none)
    (hr : Merchant.reportRefusal p.config p.rt (refuse 400 "malformed request body".toList "bad_request".toList)
      x.assertion = some report) : Own x report

/-- The request reaches the settlement service, which decodes it. -/
def Reaches (x : Passage) (sale : Merchant.Sale) (req : Request) : Prop :=
  ∃ body, edge p x = .proxy .merchant body ∧ admission p x body = .settles sale ∧
    decodeBody decodeRequest sale.body = some req

/-- The merchant's report of what settlement answers is too long to be read. -/
def Unreported (db : DB) (x : Passage) (sale : Merchant.Sale) : Prop :=
  ∀ report, Merchant.reportRefusal p.config p.rt (sale.conclude (handleSettle p.svc ⟨db, true⟩ sale.body x.env).2)
    x.assertion = some report → fits report.toJson = false

/-- The request is not too long for the gateway, a service's own refusal is not too long for the journal, and of
what reaches settlement only the payment is in question. -/
structure Clean (db : DB) (x : Passage) : Prop where
  bounded : x.request.bounded = true
  own : ∀ report, Own p x report → fits report.toJson = true
  smooth : ∀ sale req, Reaches p x sale req → Smooth p.svc db req x.env ∨ Unreported p db x sale

end Clean

end Purchase
