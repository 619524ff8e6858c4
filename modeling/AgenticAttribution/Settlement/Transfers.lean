import AgenticAttribution.Facilitator.Concurrent
import AgenticAttribution.Settlement.Amount
import AgenticAttribution.Settlement.Routes
import Mathlib.Data.List.Perm.Subperm

/-!
# Settlement.Transfers — the settlement service over the facilitator

`internal/settlement/x402.go` on one end of the connection, `facilitator/src/index.ts` on the other.  In
`Settlement.System` the answers of the facilitator are arbitrary; here they are what the handler says, or nothing,
when a request or its response is lost on the way.  The facilitator has other clients, a fault may be armed in it at
any time, and it may be started again.  A request of the service that arrives after the service has given up on it is
one of the other requests.

Every run is one of `Settlement.System` (`joint_refines`), in which a transfer was executed exactly where the
facilitator has a record of it.
-/

namespace Settlement

open Attribution GoJson JsonText

/-! ## The two ends of the connection -/

/-- `facilitatorRequest`. -/
def facilitatorRequest (payload : PaymentPayload) (requirements : PaymentRequirements) : Json :=
  Json.ofProps [("x402Version", jsonInt 1), ("paymentPayload", some payload.toJson),
    ("paymentRequirements", some requirements.toJson)]

/-- What the two services write and read their requests with. -/
structure Codec where
  /-- `json.Marshal` of a `facilitatorRequest`. -/
  marshal : PaymentPayload → PaymentRequirements → Bytes
  /-- `JSON.parse` of a body. -/
  parse : Bytes → Option Json
  parse_marshal : ∀ payload requirements,
    parse (marshal payload requirements) = some (facilitatorRequest payload requirements)
  /-- The wording of the errors of `json.Unmarshal`. -/
  wording : Bytes → Bytes

def boolField {σ : Type} (name : String) (get : σ → Bool) (put : σ → Bool → σ) : StructField σ := .of name bool get put

def verifyFields : List (StructField VerifyResponse) :=
  [boolField "isValid" (·.isValid) fun r v => { r with isValid := v },
   textField "invalidReason" (·.invalidReason) fun r v => { r with invalidReason := v },
   textField "payer" (·.payer) fun r v => { r with payer := v }]

def settleFields : List (StructField SettleResponse) :=
  [boolField "success" (·.success) fun r v => { r with success := v },
   textField "errorReason" (·.errorReason) fun r v => { r with errorReason := v },
   textField "transaction" (·.transaction) fun r v => { r with transaction := v },
   textField "network" (·.network) fun r v => { r with network := v },
   textField "payer" (·.payer) fun r v => { r with payer := v }]

section Connection

variable (codec : Codec) (p : Facilitator.Platform)

/-- `json.Unmarshal` into a struct. -/
def Codec.unmarshal {σ : Type} (fields : List (StructField σ)) (zero : σ) (raw : Bytes) : Except Bytes σ :=
  match (Json.parse (Utf8.text raw)).bind (object fields zero) with
  | some out => .ok out
  | none => .error (codec.wording raw)

def Codec.unmarshalVerify : Bytes → Except Bytes VerifyResponse := codec.unmarshal verifyFields ⟨false, [], []⟩

def Codec.unmarshalSettle : Bytes → Except Bytes SettleResponse :=
  codec.unmarshal settleFields ⟨false, [], [], [], []⟩

/-- The request on a route, as the server hands it over. -/
def Codec.request (path : String) (req : Request) (clock : ℤ) : Facilitator.HttpRequest :=
  Facilitator.post path
    (Facilitator.readJson codec.parse (codec.marshal req.paymentPayload req.paymentRequirements)) clock

/-- What becomes of one request and its response; the facilitator takes it at `clock`. -/
inductive Transit where
  /-- The request could not be built. -/
  | unsent (why : Bytes)
  /-- The request does not get there. -/
  | lost (why : Bytes)
  /-- The facilitator answers, but the connection or the client's patience ends before that arrives. -/
  | unanswered (clock : ℤ) (why : Bytes)
  /-- The response breaks off. -/
  | cut (clock : ℤ) (why : Bytes)
  | answered (clock : ℤ)

/-- The facilitator behind the request, and what came of it on the side of the service. -/
def Transit.carry (f : Facilitator.State) (path : String) (req : Request) : Transit → Facilitator.State × Wire
  | .unsent why => (f, .unsent why)
  | .lost why => (f, .unreachable why)
  | .unanswered clock why => ((Facilitator.handle p f (codec.request path req clock)).1, .unreachable why)
  | .cut clock why => ((Facilitator.handle p f (codec.request path req clock)).1, .cut why)
  | .answered clock =>
    let (f', response) := Facilitator.handle p f (codec.request path req clock)
    let (status, body) := (Facilitator.served response).wire
    (f', .answered status body)

theorem Transit.carry_answered (f : Facilitator.State) (path : String) (req : Request) (clock : ℤ) :
    (Transit.answered clock).carry codec p f path req =
      ((Facilitator.handle p f (codec.request path req clock)).1,
        .answered (Facilitator.served (Facilitator.handle p f (codec.request path req clock)).2).wire.1
          (Facilitator.served (Facilitator.handle p f (codec.request path req clock)).2).wire.2) := rfl

end Connection

/-! ## The joint system -/

/-- The service and the facilitator. -/
structure Joint where
  sys : Sys
  facilitator : Facilitator.State

def Joint.init (catalog : Catalog) (f : Facilitator.State) : Joint := ⟨Sys.init catalog, f⟩

inductive JointAction where
  /-- A step of the service by itself. -/
  | own (a : Action)
  /-- `facilitator.Verify` of a call. -/
  | verifyPayment (call : ℕ) (transit : Transit)
  /-- `facilitator.Settle` of a call. -/
  | settlePayment (call : ℕ) (transit : Transit)
  /-- A request to the facilitator from somewhere else. -/
  | elsewhere (r : Facilitator.HttpRequest)
  /-- The facilitator is started again. -/
  | restart

/-- The action asks the facilitator. -/
def Action.remote : Action → Bool
  | .verifyPayment _ _ | .settlePayment _ _ _ => true
  | _ => false

section Steps

variable (svc : Service) (codec : Codec) (p : Facilitator.Platform)

def Joint.step (s : Joint) : JointAction → Option Joint
  | .own a => if a.remote then none else (Settlement.step svc s.sys a).map fun sys => { s with sys }
  | .verifyPayment c transit => do
    let call ← s.sys.calls[c]?
    let (f, wire) := transit.carry codec p s.facilitator Facilitator.ROUTE.Verify call.req
    let sys ← Settlement.step svc s.sys (.verifyPayment c (HTTPFacilitator.post codec.unmarshalVerify wire))
    return ⟨sys, f⟩
  | .settlePayment c transit => do
    let call ← s.sys.calls[c]?
    let (f, wire) := transit.carry codec p s.facilitator Facilitator.ROUTE.Settle call.req
    -- the transfer was executed if the facilitator logged it
    let moved := decide (f.settled.length ≠ s.facilitator.settled.length)
    let sys ← Settlement.step svc s.sys (.settlePayment c moved (HTTPFacilitator.post codec.unmarshalSettle wire))
    return ⟨sys, f⟩
  | .elsewhere r => some { s with facilitator := (Facilitator.handle p s.facilitator r).1 }
  | .restart => some { s with facilitator := s.facilitator.restarted }

abbrev Joint.run (s : Joint) (as : List JointAction) : Option Joint := Runs.run (Joint.step svc codec p) s as

end Steps

/-! ## What comes over the connection -/

section Wire

variable {codec : Codec} {p : Facilitator.Platform}

/-- **A response is read as it was written or not at all.** -/
theorem unmarshal_wire {σ : Type} {fields : List (StructField σ)} {zero out : σ} {r : Facilitator.FacilitatorResponse}
    {ms : List (List Char × Json)} (hbody : r.body = .obj ms) (hlegible : Json.Legible jsQuote r.body)
    (h : HTTPFacilitator.post (codec.unmarshal fields zero) (.answered r.wire.1 r.wire.2) = .ok out) :
    r.status = 200 ∧ object fields zero r.body = some out := by
  obtain ⟨body, hwire, hout⟩ := HTTPFacilitator.post_eq_ok_iff.mp h
  obtain ⟨hstatus, rfl⟩ := Wire.answered.inj hwire
  refine ⟨hstatus, ?_⟩
  have hread := Json.parse_text_take (k := maxFacilitatorResponseBytes) (hbody ▸ hlegible) (by decide)
  unfold Codec.unmarshal at hout
  rw [Facilitator.FacilitatorResponse.wire, Json.stringify_eq_write r.body hlegible, hbody, hread] at hout
  split_ifs at hout
  · rw [Option.bind_some] at hout
    rw [hbody]
    cases hobj : object fields zero (.obj ms) with
    | none =>
      rw [hobj] at hout
      cases hout
    | some out' =>
      rw [hobj] at hout
      rw [Except.ok.inj hout]
  · cases hout

/-- A response that is not too long is read as it was written. -/
theorem post_wire {σ : Type} {fields : List (StructField σ)} {zero out : σ}
    {r : Facilitator.FacilitatorResponse} (hstatus : r.status = 200) (hlegible : Json.Legible jsQuote r.body)
    (hlength : (Utf8.encode r.body.stringify).length ≤ maxFacilitatorResponseBytes)
    (hread : object fields zero r.body = some out) :
    HTTPFacilitator.post (codec.unmarshal fields zero) (.answered r.wire.1 r.wire.2) = .ok out := by
  refine HTTPFacilitator.post_eq_ok_iff.mpr ⟨r.wire.2, by rw [← hstatus]; rfl, ?_⟩
  rw [Facilitator.FacilitatorResponse.wire, List.take_of_length_le hlength, Codec.unmarshal, Utf8.text_encode,
    Json.parse_stringify hlegible, Option.bind_some, hread]

/-- An answer that is no success does not read as one. -/
theorem success_of_declines {r : Facilitator.FacilitatorResponse} (hr : Facilitator.Declines r) {out : SettleResponse}
    (h : HTTPFacilitator.post codec.unmarshalSettle (.answered r.wire.1 r.wire.2) = .ok out) : out.success = false := by
  cases hr with
  | failed hstatus hs =>
    obtain ⟨body, hwire, -⟩ := HTTPFacilitator.post_eq_ok_iff.mp h
    exact absurd (Wire.answered.inj hwire).1 hstatus
  | refused reason =>
    have hbody : (Facilitator.refused reason).body =
        .obj [("success".toList, .bool false), ("errorReason".toList, .str reason.toList)] := rfl
    obtain ⟨-, hobj⟩ := unmarshal_wire hbody (by rw [hbody]; exact Json.legible_flat (by simp)) h
    rw [hbody] at hobj
    have hread : object settleFields ⟨false, [], [], [], []⟩
        (.obj [("success".toList, .bool false), ("errorReason".toList, .str reason.toList)])
        = some ⟨false, Utf8.encode reason.toList, [], [], []⟩ := rfl
    rw [hread] at hobj
    rw [← Option.some.inj hobj]
  | injected =>
    have hbody : (Facilitator.respond 200 [("success", Json.bool false),
        ("errorReason", Facilitator.text "injected_fault"), ("injected", Json.bool true)]).body =
        .obj [("success".toList, .bool false), ("errorReason".toList, .str "injected_fault".toList),
          ("injected".toList, .bool true)] := rfl
    obtain ⟨-, hobj⟩ := unmarshal_wire hbody (by rw [hbody]; exact Json.legible_flat (by simp)) h
    rw [hbody] at hobj
    have hread : object settleFields ⟨false, [], [], [], []⟩
        (.obj [("success".toList, .bool false), ("errorReason".toList, .str "injected_fault".toList),
          ("injected".toList, .bool true)])
        = some ⟨false, Utf8.encode "injected_fault".toList, [], [], []⟩ := rfl
    rw [hread] at hobj
    rw [← Option.some.inj hobj]

/-- A settlement reads as what the facilitator wrote. -/
theorem success_of_granted {payload : Json} {network payer : List Char}
    (hnetwork : payload.prop "network" = some (.str network)) {out : SettleResponse}
    (h : HTTPFacilitator.post codec.unmarshalSettle (.answered
      (Facilitator.granted p payload (some (.str payer))).wire.1
      (Facilitator.granted p payload (some (.str payer))).wire.2) = .ok out) :
    out.success = true ∧ out.transaction = Utf8.encode
      (Facilitator.simulatedTransactionHash p ((payload.prop "authorization").getD .null)) := by
  have hbody : (Facilitator.granted p payload (some (.str payer))).body = .obj
      [("success".toList, .bool true),
        ("transaction".toList, .str (Facilitator.simulatedTransactionHash p
          ((payload.prop "authorization").getD .null))),
        ("network".toList, .str network), ("payer".toList, .str payer)] := by
    rw [Facilitator.granted, hnetwork]
    rfl
  obtain ⟨-, hobj⟩ := unmarshal_wire hbody (by rw [hbody]; exact Json.legible_flat (by simp)) h
  rw [hbody] at hobj
  have hread : object settleFields ⟨false, [], [], [], []⟩ (.obj
      [("success".toList, .bool true),
        ("transaction".toList, .str (Facilitator.simulatedTransactionHash p
          ((payload.prop "authorization").getD .null))),
        ("network".toList, .str network), ("payer".toList, .str payer)])
      = some ⟨true, [], Utf8.encode (Facilitator.simulatedTransactionHash p
          ((payload.prop "authorization").getD .null)), Utf8.encode network, Utf8.encode payer⟩ := rfl
  rw [hread] at hobj
  rw [← Option.some.inj hobj]
  exact ⟨rfl, rfl⟩

end Wire

/-! ## What the facilitator makes of a payment -/

section Carry

variable {codec : Codec} {p : Facilitator.Platform} {f f' : Facilitator.State} {req : Request}

/-- The record that the facilitator keeps of the transfer. -/
def PaymentPayload.record (p : Facilitator.Platform) (payload : PaymentPayload) : Facilitator.SettlementRecord :=
  ⟨.str (wireText payload.authorization.from_), jsonText payload.authorization.to_,
    jsonText payload.authorization.value, Facilitator.simulatedTransactionHash p payload.authorization.toJson⟩

/-- The payment passed every check of the facilitator at some time. -/
def Authorized (p : Facilitator.Platform) (payload : PaymentPayload) (requirements : PaymentRequirements) : Prop :=
  ∃ now message domain, Facilitator.Accepted p payload.toJson requirements.toJson now message domain

theorem prop_facilitatorRequest (payload : PaymentPayload) (requirements : PaymentRequirements) :
    (facilitatorRequest payload requirements).prop "paymentPayload" = some payload.toJson ∧
      (facilitatorRequest payload requirements).prop "paymentRequirements" = some requirements.toJson := by
  unfold facilitatorRequest
  simp (disch := decide) only [Json.prop_ofProps_of_ne, Json.prop_ofProps_self, and_self]

/-- Who pays whom, and under which nonce. -/
theorem prop_parties (a : Eip3009Authorization) : a.toJson.prop "from" = jsonText a.from_ ∧
    a.toJson.prop "to" = jsonText a.to_ ∧ a.toJson.prop "nonce" = jsonText a.nonce := by
  unfold Eip3009Authorization.toJson jsonText
  simp (disch := decide) only [Json.prop_ofProps_of_ne, Json.prop_ofProps_self, and_self]

/-- A request that is granted is the one that was written. -/
theorem request_of_grants {path : String} {clock : ℤ} {payload requirements : Json} {message : Types.Eip3009Message}
    {domain : Types.Eip712Domain}
    (h : Facilitator.Grants p f (codec.request path req clock) payload requirements message domain) :
    payload = req.paymentPayload.toJson ∧ requirements = req.paymentRequirements.toJson := by
  have hvalid := h.valid
  obtain ⟨hp, hr⟩ := Facilitator.validateRequest_eq_ok hvalid
  have hbody : (codec.request path req clock).body = Facilitator.readJson codec.parse
      (codec.marshal req.paymentPayload req.paymentRequirements) := rfl
  rw [hbody, Facilitator.readJson] at hvalid hp hr
  split_ifs at hvalid hp hr
  · cases hvalid
  · obtain ⟨hpayload, hrequirements⟩ := prop_facilitatorRequest req.paymentPayload req.paymentRequirements
    rw [codec.parse_marshal, Option.getD_some] at hp hr
    rw [hpayload] at hp
    rw [hrequirements] at hr
    exact ⟨hp, hr⟩

/-- What a granted payment leaves behind. -/
theorem grant_eq {payload : PaymentPayload} {requirements : Json} {now : ℤ} {message : Types.Eip3009Message}
    {domain : Types.Eip712Domain} (h : Facilitator.Accepted p payload.toJson requirements now message domain) :
    message.from_ = jsonText payload.authorization.from_ ∧
      f.grant p payload.toJson message.from_ = { f with
        consumed := f.consumed ++ [jsonText payload.authorization.nonce]
        settled := f.settled ++ [payload.record p] } := by
  have hauth := prop_authorization payload
  obtain ⟨hfromJson, hto, hnonce⟩ := prop_parties payload.authorization
  have htyped := h.typed
  simp only [Facilitator.typedData, hauth] at htyped
  split at htyped
  · rename_i m d hm hd
    obtain ⟨rfl, rfl⟩ := Prod.mk.inj (Option.some.inj htyped)
    have hfrom : m.from_ = jsonText payload.authorization.from_ := (Types.toTypedMessage_eq_ok hm).1.trans hfromJson
    refine ⟨hfrom, ?_⟩
    simp only [Facilitator.State.grant, Facilitator.recordOf, PaymentPayload.record, hfrom, hauth, Option.getD_some,
      hto, prop_value, hnonce]
    rfl
  · cases htyped

/-- Nothing that comes back reads as a success. -/
def Declined (codec : Codec) (wire : Wire) : Prop :=
  ∀ out, HTTPFacilitator.post codec.unmarshalSettle wire = .ok out → out.success = false

/-- The payment is granted, and what reads as a success carries the hash of its record. -/
structure Granted (codec : Codec) (p : Facilitator.Platform) (f : Facilitator.State) (req : Request)
    (f' : Facilitator.State) (wire : Wire) : Prop where
  authorized : Authorized p req.paymentPayload req.paymentRequirements
  fresh : f.has (jsonText req.paymentPayload.authorization.nonce) = false
  state : f' = { f with
    consumed := f.consumed ++ [jsonText req.paymentPayload.authorization.nonce]
    settled := f.settled ++ [req.paymentPayload.record p] }
  hash : ∀ out, HTTPFacilitator.post codec.unmarshalSettle wire = .ok out → out.success = true →
    out.transaction = Utf8.encode (req.paymentPayload.record p).transaction

theorem declined_of_not_answered {wire : Wire} (h : ∀ status body, wire ≠ .answered status body) :
    Declined codec wire := by
  intro out hout
  obtain ⟨body, rfl, -⟩ := HTTPFacilitator.post_eq_ok_iff.mp hout
  exact absurd rfl (h 200 body)

/-- The facilitator takes the request at `clock`; what comes back is its response, or no success. -/
theorem settle_taken {wire : Wire} {clock : ℤ} {response : Option Facilitator.FacilitatorResponse}
    (h : Facilitator.handle p f (codec.request Facilitator.ROUTE.Settle req clock) = (f', response))
    (hwire : Declined codec wire ∨
      wire = .answered (Facilitator.served response).wire.1 (Facilitator.served response).wire.2) :
    (f' = f ∧ Declined codec wire) ∨ Granted codec p f req f' wire := by
  rcases Facilitator.handle_settling_cases (r := codec.request Facilitator.ROUTE.Settle req clock) p f ⟨rfl, rfl⟩ with
    ⟨payload, requirements, message, domain, hgrants⟩ | ⟨hsame, hdeclines⟩
  · right
    obtain ⟨rfl, rfl⟩ := request_of_grants hgrants
    obtain ⟨hfrom, hgrant⟩ := grant_eq (f := f) hgrants.accepted
    have hfresh := hgrants.fresh
    rw [← Facilitator.nonce_of_valid hgrants.valid, prop_authorization, Option.getD_some,
      (prop_parties _).2.2] at hfresh
    rw [hgrants.handled] at h
    obtain ⟨hstate, rfl⟩ := Prod.mk.inj h
    refine ⟨⟨_, message, domain, hgrants.accepted⟩, hfresh, hstate.symm.trans hgrant, fun out hout hsuccess => ?_⟩
    rcases hwire with hwire | rfl
    · exact absurd ((hwire out hout).symm.trans hsuccess) (by decide)
    · rw [hfrom] at hout
      have hread := (success_of_granted (prop_network req.paymentPayload) hout).2
      rwa [prop_authorization, Option.getD_some] at hread
  · left
    rw [h] at hsame hdeclines
    refine ⟨hsame, ?_⟩
    rcases hwire with hwire | rfl
    · exact hwire
    · exact fun out hout => success_of_declines hdeclines hout

/-- **One `/settle` request over the connection.** -/
theorem carry_settle (transit : Transit) {wire : Wire}
    (h : transit.carry codec p f Facilitator.ROUTE.Settle req = (f', wire)) :
    (f' = f ∧ Declined codec wire) ∨ Granted codec p f req f' wire := by
  cases transit with
  | unsent why =>
    obtain ⟨rfl, rfl⟩ := Prod.mk.inj h
    exact Or.inl ⟨rfl, declined_of_not_answered (by simp)⟩
  | lost why =>
    obtain ⟨rfl, rfl⟩ := Prod.mk.inj h
    exact Or.inl ⟨rfl, declined_of_not_answered (by simp)⟩
  | unanswered clock why =>
    obtain ⟨rfl, rfl⟩ := Prod.mk.inj h
    exact settle_taken rfl (Or.inl (declined_of_not_answered (by simp)))
  | cut clock why =>
    obtain ⟨rfl, rfl⟩ := Prod.mk.inj h
    exact settle_taken rfl (Or.inl (declined_of_not_answered (by simp)))
  | answered clock =>
    obtain ⟨rfl, rfl⟩ := Prod.mk.inj h
    exact settle_taken rfl (Or.inr rfl)

end Carry

/-! ## The hash of a confirmed settlement -/

section Hashes

variable {svc : Service} {s t : Sys} {a : Action}

/-- A response that says that the payment was settled came for the settlement. -/
def Heard (exchanges : List Exchange) (id : Bytes) (response : SettleResponse) : Prop :=
  response.success = true ∧ ∃ x ∈ exchanges, x.settlementID = id ∧ x.answer = .ok response

/-- The hash on a confirmed row is the one that came for it. -/
structure Hashed (s : Sys) : Prop where
  calls : ∀ call ∈ s.calls, ∀ p response, call.pc = .settled p response →
    Heard s.exchanges p.settlementID response
  rows : ∀ r ∈ s.db.settlements, r.status = .confirmed →
    ∃ response, Heard s.exchanges r.settlementID response ∧ r.txHash = some response.transaction

theorem Heard.append {xs : List Exchange} {id : Bytes} {response : SettleResponse} (h : Heard xs id response)
    (ys : List Exchange) : Heard (xs ++ ys) id response := by
  obtain ⟨hsuccess, x, hx, hrest⟩ := h
  exact ⟨hsuccess, x, List.mem_append_left ys hx, hrest⟩

theorem hashed_init (catalog : Catalog) : Hashed (Sys.init catalog) := by
  refine ⟨?_, ?_⟩
  · intro call hc
    cases hc
  · intro r hr
    cases hr

/-- A call that has heard nothing new, over rows that are as they were. -/
theorem Hashed.put (h : Hashed s) {c : ℕ} {new : Call} (hnew : ∀ p response, new.pc ≠ .settled p response) (db : DB)
    (hrows : ∀ r ∈ db.settlements, r.status = .confirmed → r ∈ s.db.settlements) :
    Hashed ({ s with db }.put c new) := by
  refine ⟨?_, fun r hr hs => h.rows r (hrows r hr hs) hs⟩
  intro call hc p response hpc
  rcases mem_put hc with rfl | hc
  · exact absurd hpc (hnew p response)
  · exact h.calls call hc p response hpc

theorem ok_of_settlePc {p q : PendingSettlement} {answer : Except Err SettleResponse} {response : SettleResponse}
    (h : settlePc p answer = .settled q response) : q = p ∧ answer = .ok response ∧ response.success = true := by
  unfold settlePc settleFailure at h
  split at h
  · cases h
  · rename_i r hr
    obtain ⟨rfl, rfl⟩ := Pc.settled.inj h
    split at hr
    · cases hr
    · split_ifs at hr with hs
      obtain rfl := Except.ok.inj hr
      exact ⟨rfl, rfl, by simpa using hs⟩

/-- **Every step keeps the hashes.** -/
theorem hashed_step (h : Hashed s) (hs : step svc s a = some t) : Hashed t := by
  cases moves_of_step hs with
  | entered req now =>
    refine ⟨?_, h.rows⟩
    intro call hc p response hpc
    rcases List.mem_append.mp hc with hc | hc
    · exact h.calls call hc p response hpc
    · rw [List.mem_singleton.mp hc] at hpc
      unfold Service.entered at hpc
      cases hv : svc.verify req now <;> rw [hv] at hpc <;> cases hpc
  | turnedDown e hc hpc => exact h.put (fun _ _ => Pc.noConfusion) s.db fun r hr _ => hr
  | found hc hpc hl => exact h.put (fun _ _ => Pc.noConfusion) s.db fun r hr _ => hr
  | accepted hc hpc hv => exact h.put (fun _ _ => Pc.noConfusion) s.db fun r hr _ => hr
  | notBegun e hc hpc => exact h.put (fun _ _ => Pc.noConfusion) s.db fun r hr _ => hr
  | @begun c newID fate call listing r hc hpc hadm =>
    refine h.put (fun q response => ?_) (s.db.claim _) fun q hq hstatus => ?_
    · cases r <;> exact Pc.noConfusion
    · rcases List.mem_append.mp hq with hq | hq
      · exact hq
      · rw [List.mem_singleton.mp hq] at hstatus
        cases hstatus
  | @paid c moved answer call p hc hpc =>
    refine ⟨?_, ?_⟩
    · intro call' hc' q response hpc'
      rcases mem_put hc' with rfl | hc'
      · obtain ⟨rfl, rfl, hsuccess⟩ := ok_of_settlePc hpc'
        exact ⟨hsuccess, _, List.mem_append_right _ List.mem_cons_self, rfl, rfl⟩
      · exact (h.calls call' hc' q response hpc').append _
    · intro r hr hstatus
      obtain ⟨response, hheard, hhash⟩ := h.rows r hr hstatus
      exact ⟨response, hheard.append _, hhash⟩
  | notConfirmed e hc hpc => exact h.put (fun _ _ => Pc.noConfusion) s.db fun r hr _ => hr
  | @confirmed c now fate call p response r hc hpc hconf =>
    refine ⟨?_, ?_⟩
    · intro call' hc' q response' hpc'
      rcases mem_put hc' with rfl | hc'
      · cases r <;> cases hpc'
      · exact h.calls call' hc' q response' hpc'
    · intro r hr hstatus
      obtain ⟨q, hq, -, ⟨hp, rfl⟩ | ⟨-, rfl⟩⟩ := update_terms (terms_confirm response.transaction now) hr
      · refine ⟨response, ?_, rfl⟩
        show Heard s.exchanges q.settlementID response
        rw [(pendingAt_iff.mp hp).1]
        exact h.calls call (List.mem_of_getElem? hc) p response hpc
      · exact h.rows r hq hstatus
  | notFailed e hc hpc => exact h.put (fun _ _ => Pc.noConfusion) s.db fun r hr _ => hr
  | @failed c fate call p err e hc hpc =>
    refine h.put (fun _ _ => Pc.noConfusion) (s.db.fail p.settlementID) fun r hr hstatus => ?_
    obtain ⟨q, hq, -, ⟨-, rfl⟩ | ⟨-, rfl⟩⟩ := update_terms terms_fail hr
    · cases hstatus
    · exact hq
  | journalled rows hc hpc =>
    exact h.put (fun _ _ => Pc.noConfusion) { s.db with rejected := rows } fun r hr _ => hr
  | minted hr => exact ⟨h.calls, h.rows⟩
  | catalogued hx => exact ⟨h.calls, h.rows⟩
  | rejected rows => exact ⟨h.calls, h.rows⟩

theorem hashed_run {catalog : Catalog} {as : List Action} (h : run svc (Sys.init catalog) as = some s) : Hashed s :=
  Runs.run_invariant (fun _ _ _ hi hst => hashed_step hi hst) (hashed_init catalog) h

end Hashes

/-! ## Runs of the joint system -/

section Runs

variable {svc : Service} {codec : Codec} {p : Facilitator.Platform} {s t : Joint} {a : JointAction}

/-- A step that does not pay adds no invocation. -/
theorem exchanges_step {s t : Sys} {a : Action} (h : Settlement.step svc s a = some t)
    (ha : ∀ c moved answer, a ≠ .settlePayment c moved answer) : t.exchanges = s.exchanges := by
  cases moves_of_step h with
  | @paid c moved answer call p hc hpc => exact absurd rfl (ha c moved answer)
  | _ => rfl

/-- A request to the facilitator adds to its log and its ledger, if anything. -/
theorem exists_append_handle (p : Facilitator.Platform) (f : Facilitator.State) (r : Facilitator.HttpRequest) :
    (∃ new, (Facilitator.handle p f r).1.settled = f.settled ++ new) ∧
      ∃ more, (Facilitator.handle p f r).1.consumed = f.consumed ++ more := by
  rcases Facilitator.ledger_handle p f r with ⟨-, hc, hs⟩ | ⟨-, -, -, hc, record, hs⟩
  · exact ⟨⟨[], by rw [hs, List.append_nil]⟩, ⟨[], by rw [hc, List.append_nil]⟩⟩
  · exact ⟨⟨[record], hs⟩, ⟨[r.nonce], hc⟩⟩

theorem exists_append_carry (codec : Codec) (p : Facilitator.Platform) (f : Facilitator.State) (path : String)
    (req : Request) (transit : Transit) :
    (∃ new, (transit.carry codec p f path req).1.settled = f.settled ++ new) ∧
      ∃ more, (transit.carry codec p f path req).1.consumed = f.consumed ++ more := by
  cases transit with
  | unsent why => exact ⟨⟨[], (List.append_nil _).symm⟩, ⟨[], (List.append_nil _).symm⟩⟩
  | lost why => exact ⟨⟨[], (List.append_nil _).symm⟩, ⟨[], (List.append_nil _).symm⟩⟩
  | unanswered clock why => exact exists_append_handle p f (codec.request path req clock)
  | cut clock why => exact exists_append_handle p f (codec.request path req clock)
  | answered clock => exact exists_append_handle p f (codec.request path req clock)

/-- What a step of the joint system does to the invocations, the log and the ledger. -/
inductive Joint.Moves (p : Facilitator.Platform) (a : JointAction) (s t : Joint) : Prop where
  | aside (hx : t.sys.exchanges = s.sys.exchanges)
    (hlog : ∃ new, t.facilitator.settled = s.facilitator.settled ++ new)
    (hledger : a ≠ .restart → ∃ more, t.facilitator.consumed = s.facilitator.consumed ++ more)
  | declined (req : Request) (q : PendingSettlement) (answer : Except Err SettleResponse)
    (hx : t.sys.exchanges = s.sys.exchanges ++ [req.exchange q false answer]) (hf : t.facilitator = s.facilitator)
    (hanswer : ∀ response, answer = .ok response → response.success = false)
  | granted (req : Request) (q : PendingSettlement) (answer : Except Err SettleResponse)
    (hx : t.sys.exchanges = s.sys.exchanges ++ [req.exchange q true answer])
    (hauthorized : Authorized p req.paymentPayload req.paymentRequirements)
    (hfresh : s.facilitator.has (jsonText req.paymentPayload.authorization.nonce) = false)
    (hstate : t.facilitator = { s.facilitator with
      consumed := s.facilitator.consumed ++ [jsonText req.paymentPayload.authorization.nonce]
      settled := s.facilitator.settled ++ [req.paymentPayload.record p] })
    (hanswer : ∀ response, answer = .ok response → response.success = true →
      response.transaction = Utf8.encode (req.paymentPayload.record p).transaction)

/-- **Inversion of a joint step**, with the steps of the service that it is. -/
theorem joint_moves (h : Joint.step svc codec p s a = some t) :
    Joint.Moves p a s t ∧ ∃ as, Settlement.run svc s.sys as = some t.sys := by
  cases a with
  | own a =>
    simp only [Joint.step] at h
    split_ifs at h with hremote
    obtain ⟨sys, hsys, rfl⟩ := Option.map_eq_some_iff.mp h
    refine ⟨.aside (exchanges_step hsys ?_) ⟨[], (List.append_nil _).symm⟩ fun _ => ⟨[], (List.append_nil _).symm⟩,
      [a], Runs.run_cons_eq_some.mpr ⟨sys, hsys, rfl⟩⟩
    rintro c moved answer rfl
    exact hremote rfl
  | verifyPayment c transit =>
    obtain ⟨call, -, h⟩ := Option.bind_eq_some_iff.mp h
    obtain ⟨sys, hsys, h⟩ := Option.bind_eq_some_iff.mp h
    obtain rfl := Option.some.inj h
    obtain ⟨hlog, hledger⟩ := exists_append_carry codec p s.facilitator Facilitator.ROUTE.Verify call.req transit
    exact ⟨.aside (exchanges_step hsys fun _ _ _ => Action.noConfusion) hlog fun _ => hledger,
      [_], Runs.run_cons_eq_some.mpr ⟨sys, hsys, rfl⟩⟩
  | settlePayment c transit =>
    obtain ⟨call, hcall, h⟩ := Option.bind_eq_some_iff.mp h
    obtain ⟨⟨f, wire⟩, hcarry⟩ : ∃ out, transit.carry codec p s.facilitator Facilitator.ROUTE.Settle call.req = out :=
      ⟨_, rfl⟩
    rw [hcarry] at h
    obtain ⟨sys, hsys, h⟩ := Option.bind_eq_some_iff.mp h
    obtain rfl := Option.some.inj h
    refine ⟨?_, [_], Runs.run_cons_eq_some.mpr ⟨sys, hsys, rfl⟩⟩
    obtain ⟨call', q, hcall', -, rfl⟩ := step_settlePayment_iff.mp hsys
    obtain rfl := Option.some.inj (hcall.symm.trans hcall')
    rcases carry_settle transit hcarry with
      ⟨hf, hdeclined⟩ | hgranted
    · exact .declined call.req q _ (by simp [hf, Sys.put]) hf hdeclined
    · refine .granted call.req q _ ?_ hgranted.authorized hgranted.fresh hgranted.state hgranted.hash
      simp [hgranted.state, Sys.put]
  | elsewhere r =>
    obtain rfl := Option.some.inj h
    obtain ⟨hlog, hledger⟩ := exists_append_handle p s.facilitator r
    exact ⟨.aside rfl hlog fun _ => hledger, [], rfl⟩
  | restart =>
    obtain rfl := Option.some.inj h
    exact ⟨.aside rfl ⟨[], (List.append_nil _).symm⟩ fun hne => absurd rfl hne, [], rfl⟩

/-- **Every run of the joint system is one of the service.** -/
theorem joint_refines {as : List JointAction} (h : Joint.run svc codec p s as = some t) :
    ∃ as', Settlement.run svc s.sys as' = some t.sys := by
  have hsim : ∃ as' sys, Settlement.run svc s.sys as' = some sys ∧ t.sys = sys := by
    refine Runs.run_simulates (R := fun s sys => s.sys = sys) (fun u a v sys hR hstep => ?_) rfl h
    obtain ⟨as', has'⟩ := (joint_moves hstep).2
    exact ⟨as', v.sys, hR ▸ has', rfl⟩
  obtain ⟨as', sys, hrun, rfl⟩ := hsim
  exact ⟨as', hrun⟩

/-! ### Records -/

/-- The records of the service's transfers are in the log, each once and in order; what the service took for a
success is one of them. -/
structure Backed (p : Facilitator.Platform) (f : Facilitator.State) (s : Joint) : Prop where
  log : ∃ new, s.facilitator.settled = f.settled ++ new ∧
    ((s.sys.exchanges.filter (·.moved)).map fun x => x.payload.record p).Sublist new
  answers : ∀ x ∈ s.sys.exchanges, ∀ response, x.answer = .ok response → response.success = true →
    x.moved = true ∧ response.transaction = Utf8.encode (x.payload.record p).transaction
  authorized : ∀ x ∈ s.sys.exchanges, x.moved = true → Authorized p x.payload x.requirements

theorem backed_step {f : Facilitator.State} (h : Backed p f s) (hs : Joint.step svc codec p s a = some t) :
    Backed p f t := by
  obtain ⟨new, hnew, hsub⟩ := h.log
  cases (joint_moves hs).1 with
  | aside hx hlog _ =>
    obtain ⟨more, hmore⟩ := hlog
    refine ⟨⟨new ++ more, by rw [hmore, hnew, List.append_assoc], ?_⟩, hx ▸ h.answers, hx ▸ h.authorized⟩
    rw [hx]
    exact hsub.trans (List.sublist_append_left new more)
  | declined req q answer hx hf hanswer =>
    refine ⟨⟨new, by rw [hf, hnew], by rw [hx]; simpa [Request.exchange] using hsub⟩, ?_, ?_⟩
    · intro x hmem response hok hsuccess
      rcases List.mem_append.mp (hx ▸ hmem) with hmem | hmem
      · exact h.answers x hmem response hok hsuccess
      · rw [List.mem_singleton.mp hmem] at hok
        exact absurd ((hanswer response hok).symm.trans hsuccess) (by decide)
    · intro x hmem hmoved
      rcases List.mem_append.mp (hx ▸ hmem) with hmem | hmem
      · exact h.authorized x hmem hmoved
      · rw [List.mem_singleton.mp hmem] at hmoved
        cases hmoved
  | granted req q answer hx hauthorized _ hstate hanswer =>
    refine ⟨⟨new ++ [req.paymentPayload.record p], by rw [hstate, hnew, List.append_assoc], ?_⟩, ?_, ?_⟩
    · rw [hx]
      simpa [Request.exchange] using hsub.append (List.Sublist.refl [req.paymentPayload.record p])
    · intro x hmem response hok hsuccess
      rcases List.mem_append.mp (hx ▸ hmem) with hmem | hmem
      · exact h.answers x hmem response hok hsuccess
      · rw [List.mem_singleton.mp hmem] at hok ⊢
        exact ⟨rfl, hanswer response hok hsuccess⟩
    · intro x hmem hmoved
      rcases List.mem_append.mp (hx ▸ hmem) with hmem | hmem
      · exact h.authorized x hmem hmoved
      · rw [List.mem_singleton.mp hmem]
        exact hauthorized

theorem backed_run {catalog : Catalog} {f : Facilitator.State} {as : List JointAction}
    (h : Joint.run svc codec p (Joint.init catalog f) as = some s) : Backed p f s := by
  refine Runs.run_invariant (fun _ _ _ hi hst => backed_step hi hst) ?_ h
  refine ⟨⟨[], (List.append_nil _).symm, List.Sublist.refl []⟩, ?_, ?_⟩
  · intro x hx
    cases hx
  · intro x hx
    cases hx

/-- The invocation behind a confirmed row. -/
theorem exists_exchange (hb : Backed p f s) (hh : Hashed s.sys) {r : SettlementRow}
    (hr : r ∈ s.sys.db.settlements) (hstatus : r.status = .confirmed) : ∃ x ∈ s.sys.exchanges,
      x.settlementID = r.settlementID ∧ x.moved = true ∧ Authorized p x.payload x.requirements ∧
        r.txHash = some (Utf8.encode (x.payload.record p).transaction) := by
  obtain ⟨response, ⟨hsuccess, x, hx, hid, hok⟩, hhash⟩ := hh.rows r hr hstatus
  obtain ⟨hmoved, htransaction⟩ := hb.answers x hx response hok hsuccess
  exact ⟨x, hx, hid, hmoved, hb.authorized x hx hmoved, by rw [hhash, htransaction]⟩

/-- The invocation of a confirmed settlement moved the money. -/
theorem moved_of_confirmed (hb : Backed p f s) (hh : Hashed s.sys) (hp : Payments s.sys) (hi : Inv s.sys)
    {r : SettlementRow} (hr : r ∈ s.sys.db.settlements) (hstatus : r.status = .confirmed) {x : Exchange}
    (hx : x ∈ s.sys.exchanges) (hid : x.settlementID = r.settlementID) : x.moved = true := by
  obtain ⟨y, hy, hyid, hmoved, -⟩ := exists_exchange hb hh hr hstatus
  rwa [exchange_unique hp hi hx hy (hid.trans hyid.symm)]

/-- The confirmed settlements. -/
def DB.confirmed (db : DB) : List SettlementRow := db.settlements.filter (·.status = .confirmed)

theorem confirmed_length_le {f : Facilitator.State} (hb : Backed p f s) (hh : Hashed s.sys) (hi : Inv s.sys) :
    s.sys.db.confirmed.length ≤ (s.sys.exchanges.filter (·.moved)).length := by
  have hnodup : (s.sys.db.confirmed.map (·.settlementID)).Nodup :=
    List.Nodup.sublist (List.filter_sublist.map _) hi.books.ids
  have hsub : s.sys.db.confirmed.map (·.settlementID) ⊆
      (s.sys.exchanges.filter (·.moved)).map (·.settlementID) := by
    intro id hid
    obtain ⟨r, hr, rfl⟩ := List.mem_map.mp hid
    obtain ⟨hr, hstatus⟩ := List.mem_filter.mp hr
    obtain ⟨x, hx, hxid, hmoved, -⟩ := exists_exchange hb hh hr (of_decide_eq_true hstatus)
    exact List.mem_map.mpr ⟨x, List.mem_filter.mpr ⟨hx, hmoved⟩, hxid⟩
  have hlen := (hnodup.subperm hsub).length_le
  rwa [List.length_map, List.length_map] at hlen

/-! ### Nonces -/

/-- The nonce of a payment on the wire. -/
def Exchange.nonceText (x : Exchange) : List Char := wireText x.payload.authorization.nonce

/-- The nonces of the service's transfers differ, and the ledger holds them. -/
structure Spent (s : Joint) : Prop where
  distinct : Table.Keyed Exchange.nonceText (s.sys.exchanges.filter (·.moved))
  held : ∀ x ∈ s.sys.exchanges, x.moved = true → s.facilitator.has (some (.str x.nonceText)) = true

theorem spent_step (h : Spent s) (ha : a ≠ .restart) (hs : Joint.step svc codec p s a = some t) : Spent t := by
  cases (joint_moves hs).1 with
  | aside hx _ hledger =>
    obtain ⟨more, hmore⟩ := hledger ha
    refine ⟨hx ▸ h.distinct, fun x hmem hmoved => ?_⟩
    rw [Facilitator.State.has, hmore, List.any_append, Bool.or_eq_true]
    exact Or.inl (h.held x (hx ▸ hmem) hmoved)
  | declined req q answer hx hf _ =>
    refine ⟨by rw [hx]; simpa [Request.exchange] using h.distinct, fun x hmem hmoved => ?_⟩
    rw [hf]
    rcases List.mem_append.mp (hx ▸ hmem) with hmem | hmem
    · exact h.held x hmem hmoved
    · rw [List.mem_singleton.mp hmem] at hmoved
      cases hmoved
  | granted req q answer hx _ hfresh hstate _ =>
    have hfilter : t.sys.exchanges.filter (·.moved) =
        s.sys.exchanges.filter (·.moved) ++ [req.exchange q true answer] := by
      rw [hx, List.filter_append]
      rfl
    refine ⟨?_, fun x hmem hmoved => ?_⟩
    · rw [hfilter]
      refine h.distinct.append fun hold => ?_
      obtain ⟨x, hmem, heq⟩ := List.mem_map.mp hold
      obtain ⟨hmem, hmoved⟩ := List.mem_filter.mp hmem
      have hheld := h.held x hmem hmoved
      rw [heq] at hheld
      exact absurd (hheld.symm.trans hfresh) (by decide)
    · rw [Facilitator.State.has, hstate, List.any_append, Bool.or_eq_true]
      rcases List.mem_append.mp (hx ▸ hmem) with hmem | hmem
      · exact Or.inl (h.held x hmem hmoved)
      · rw [List.mem_singleton.mp hmem]
        exact Or.inr (by simp [Json.strictEq, jsonText, Exchange.nonceText, Request.exchange])

theorem spent_run {catalog : Catalog} {f : Facilitator.State} {as : List JointAction}
    (h : Joint.run svc codec p (Joint.init catalog f) as = some s) (hno : JointAction.restart ∉ as) : Spent s := by
  refine Runs.each_invariant (Q := fun _ a => a ≠ .restart) (fun _ _ _ hi ha hst => spent_step hi ha hst) ?_
    (Runs.each_of_forall _ fun a ha => ne_of_mem_of_not_mem ha hno) h
  refine ⟨List.nodup_nil, ?_⟩
  intro x hx
  cases hx

end Runs

/-! ## The results -/

/-- What the log of the facilitator says about the settlements. -/
structure Covered (p : Facilitator.Platform) (f : Facilitator.State) (s : Joint) : Prop where
  /-- The executed transfers are records of their own, behind those of the start. -/
  log : ∃ new, s.facilitator.settled = f.settled ++ new ∧
    ((s.sys.exchanges.filter (·.moved)).map fun x => x.payload.record p).Sublist new ∧
    s.sys.db.confirmed.length ≤ new.length
  /-- A confirmed settlement carries the hash of its transfer, which passed every check of the facilitator. -/
  rows : ∀ r ∈ s.sys.db.settlements, r.status = .confirmed → ∃ x ∈ s.sys.exchanges,
    x.settlementID = r.settlementID ∧ x.moved = true ∧ Authorized p x.payload x.requirements ∧
      r.txHash = some (Utf8.encode (x.payload.record p).transaction)

/-- **Every confirmed settlement is backed by a transfer of its own**, whatever is lost on the way between the two
services, whatever faults are armed, whoever else uses the facilitator, and however often it is started again; and the
service runs as it does alone. -/
theorem confirmed_covered (svc : Service) (codec : Codec) (p : Facilitator.Platform) (catalog : Catalog)
    (f : Facilitator.State) {as : List JointAction} {s : Joint}
    (h : Joint.run svc codec p (Joint.init catalog f) as = some s) :
    (∃ as', run svc (Sys.init catalog) as' = some s.sys) ∧ Covered p f s := by
  have hrefines : ∃ as', run svc (Sys.init catalog) as' = some s.sys := joint_refines h
  obtain ⟨as', hrun⟩ := hrefines
  have hb : Backed p f s := backed_run h
  have hh : Hashed s.sys := hashed_run hrun
  refine ⟨⟨as', hrun⟩, ?_, fun r hr hstatus => exists_exchange hb hh hr hstatus⟩
  obtain ⟨new, hnew, hsub⟩ := hb.log
  refine ⟨new, hnew, hsub, (confirmed_length_le hb hh (inv_reachable hrun)).trans ?_⟩
  have hlen := hsub.length_le
  rwa [List.length_map] at hlen

/-- No two confirmed settlements were paid for under one nonce. -/
def PaysOnce (s : Sys) : Prop :=
  ∀ r ∈ s.db.confirmed, ∀ q ∈ s.db.confirmed, ∀ x ∈ s.exchanges, ∀ y ∈ s.exchanges,
    x.settlementID = r.settlementID → y.settlementID = q.settlementID → x.nonceText = y.nonceText → r = q

/-- **One nonce pays for one settlement**, as long as the facilitator is not started again. -/
theorem nonce_pays_once (svc : Service) (codec : Codec) (p : Facilitator.Platform) (catalog : Catalog)
    (f : Facilitator.State) {as : List JointAction} {s : Joint}
    (h : Joint.run svc codec p (Joint.init catalog f) as = some s) (hno : JointAction.restart ∉ as) :
    PaysOnce s.sys := by
  have hrefines : ∃ as', run svc (Sys.init catalog) as' = some s.sys := joint_refines h
  obtain ⟨as', hrun⟩ := hrefines
  have hi : Inv s.sys := inv_reachable hrun
  have hmoved : ∀ r ∈ s.sys.db.confirmed, ∀ x ∈ s.sys.exchanges, x.settlementID = r.settlementID →
      x ∈ s.sys.exchanges.filter (·.moved) := by
    intro r hr x hx hid
    obtain ⟨hr, hstatus⟩ := List.mem_filter.mp hr
    exact List.mem_filter.mpr ⟨hx, moved_of_confirmed (backed_run h) (hashed_run hrun) (payments_run hrun) hi hr
      (of_decide_eq_true hstatus) hx hid⟩
  intro r hr q hq x hx y hy hxr hyq hnonce
  have hspent : Spent s := spent_run h hno
  obtain rfl : x = y := hspent.distinct.eq_of_key_eq (hmoved r hr x hx hxr) (hmoved q hq y hy hyq) hnonce
  exact hi.books.ids.eq_of_key_eq (List.mem_of_mem_filter hr) (List.mem_of_mem_filter hq) (hxr.symm.trans hyq)

/-! ## A payment that goes through -/

section Steps

variable {svc : Service} {codec : Codec} {p : Facilitator.Platform} {s : Joint} {sys : Sys}

theorem joint_own {a : Action} (ha : a.remote = false) (h : step svc s.sys a = some sys) :
    Joint.step svc codec p s (.own a) = some { s with sys } := by
  simp only [Joint.step, ha, Bool.false_eq_true, if_false, h, Option.map_some]

variable {c : ℕ} {transit : Transit} {call : Call} {f : Facilitator.State} {wire : Wire}

theorem joint_verifyPayment (hcall : s.sys.calls[c]? = some call)
    (hcarry : transit.carry codec p s.facilitator Facilitator.ROUTE.Verify call.req = (f, wire))
    (h : step svc s.sys (.verifyPayment c (HTTPFacilitator.post codec.unmarshalVerify wire)) = some sys) :
    Joint.step svc codec p s (.verifyPayment c transit) = some ⟨sys, f⟩ := by
  simp only [Joint.step, hcall, Option.bind_eq_bind, Option.bind_some, hcarry, h]
  rfl

theorem joint_settlePayment (hcall : s.sys.calls[c]? = some call)
    (hcarry : transit.carry codec p s.facilitator Facilitator.ROUTE.Settle call.req = (f, wire))
    (hmoved : f.settled.length ≠ s.facilitator.settled.length)
    (h : step svc s.sys (.settlePayment c true (HTTPFacilitator.post codec.unmarshalSettle wire)) = some sys) :
    Joint.step svc codec p s (.settlePayment c transit) = some ⟨sys, f⟩ := by
  simp only [Joint.step, hcall, Option.bind_eq_bind, Option.bind_some, hcarry, decide_eq_true hmoved, h]
  rfl

/-- The steps of a call whose requests to the facilitator fare as `verifying` and `settling` say. -/
def jointActions (req : Request) (now : ℤ) (pick : ℕ) (newID : Bytes) (later : ℤ) (verifying settling : Transit)
    (c : ℕ) : List JointAction :=
  [.own (.enter req now), .own (.lookup c pick .done), .verifyPayment c verifying, .own (.begin c newID .done),
    .settlePayment c settling, .own (.confirm c later .done)]

/-- **A payment that the facilitator settles is confirmed.** -/
theorem joint_confirms {req : Request} {now : ℤ} {listing : Listing} {pick : ℕ} {verified : VerifyResponse}
    {newID : Bytes} {response : SettleResponse} {later : ℤ} {verifying settling : Transit} {g : Facilitator.State}
    {w : Wire} (h : Claimable svc s.sys.db req now listing pick verified newID)
    (hverifying : verifying.carry codec p s.facilitator Facilitator.ROUTE.Verify req = (g, w))
    (hv : HTTPFacilitator.post codec.unmarshalVerify w = .ok verified)
    (hsettling : settling.carry codec p g Facilitator.ROUTE.Settle req = (f, wire))
    (hmoved : f.settled.length ≠ g.settled.length)
    (hs : HTTPFacilitator.post codec.unmarshalSettle wire = .ok response) (hsuccess : response.success = true)
    (htx : textOk response.transaction = true) :
    Joint.run svc codec p s (jointActions req now pick newID later verifying settling s.sys.calls.length) =
      some ⟨((s.sys.withDB ((s.sys.db.claim (req.pending listing newID)).confirm (req.pending listing newID)
          response.transaction later)).withExchange
        (req.exchange (req.pending listing newID) true (.ok response))).push
        ⟨req, now, some (listing, req.pending listing newID),
          .returned (.ok ((req.pending listing newID).result response))⟩, f⟩ := by
  have hchecked : checkVerified (HTTPFacilitator.post codec.unmarshalVerify w) = none := by
    rw [hv]
    simp only [checkVerified, h.valid, Bool.not_true, Bool.false_eq_true, if_false]
  have hpc : settlePc (req.pending listing newID) (.ok response) = .settled (req.pending listing newID) response := by
    simp only [settlePc, settleFailure, hsuccess, Bool.not_true, Bool.false_eq_true, if_false]
  have hconf : Store.confirm svc.driver (s.sys.db.claim (req.pending listing newID)) (req.pending listing newID)
      response.transaction later .done = _ :=
    Store.confirm_of_confirmable svc.driver (confirmable_claim h.admits htx)
  have haccept : Joint.step svc codec p ⟨s.sys.push ⟨req, now, none, .checked listing⟩, s.facilitator⟩
      (.verifyPayment s.sys.calls.length verifying) = some ⟨s.sys.push ⟨req, now, none, .accepted listing⟩, g⟩ :=
    joint_verifyPayment (get_push s.sys ⟨req, now, none, .checked listing⟩) hverifying (step_accepted rfl hchecked)
  unfold jointActions Joint.run
  rw [Runs.run_cons_of (joint_own rfl (step_enter h.verifies)),
    Runs.run_cons_of (joint_own rfl (step_found rfl h.found h.matching)), Runs.run_cons_of haccept,
    Runs.run_cons_of (joint_own rfl (step_begin rfl (Store.begin_of_admits svc.driver h.admits)))]
  set s' := s.sys.withDB (s.sys.db.claim (req.pending listing newID)) with hs'
  have hlen : s.sys.calls.length = s'.calls.length := rfl
  rw [hlen, Runs.run_cons_of (joint_settlePayment (get_push _ _) hsettling hmoved (step_settlePayment _ _ rfl)), hs,
    hpc]
  have hlen' : s'.calls.length
      = (s'.withExchange (req.exchange (req.pending listing newID) true (.ok response))).calls.length := rfl
  rw [hlen', Runs.run_cons_of (joint_own rfl (step_confirm rfl hconf))]
  rfl

end Steps

namespace Sample

theorem legible_text (cs : List Char) : Json.ReadsBack (Json.literal GoQuote.marshalRune) cs :=
  Json.readsBack_literal fun c _ => GoQuote.reads_marshalRune c

theorem parse_marshal (payload : PaymentPayload) (requirements : PaymentRequirements) :
    Json.parse (Utf8.text (Utf8.encode (Json.write (Json.literal GoQuote.marshalRune)
      (facilitatorRequest payload requirements)))) = some (facilitatorRequest payload requirements) := by
  rw [Utf8.text_encode]
  refine Json.parse_write ?_
  simp [facilitatorRequest, PaymentPayload.toJson, PaymentRequirements.toJson, Eip3009Authorization.toJson, jsonText,
    jsonInt, Json.ofProps, Json.Legible, Json.LegibleMembers, legible_text, Json.isNumber_intChars]

/-- `json.Marshal` as it writes such a request, and a reader that knows it. -/
def goCodec : Codec where
  marshal payload requirements :=
    Utf8.encode (Json.write (Json.literal GoQuote.marshalRune) (facilitatorRequest payload requirements))
  parse raw := Json.parse (Utf8.text raw)
  parse_marshal := parse_marshal
  wording := id

/-- The nonces of two purchases. -/
def nonceOf (again : Bool) : List Char := if again then '0' :: 'x' :: List.replicate 64 'b' else nonce

/-- The two purchases. -/
def payment (again : Bool) : Request :=
  payingFor (if again then second else request) (nonceOf again) "129990000".toList

/-- The body of a payment. -/
def bodyJson (again : Bool) : Json :=
  Json.ofProps [("x402Version", jsonInt 1),
    ("paymentPayload", some (payloadJsonFor (nonceOf again) "129990000".toList)),
    ("paymentRequirements", some (requirementsJson "129990000".toList))]

theorem readJson_payment (again : Bool) :
    Facilitator.readJson goCodec.parse (goCodec.marshal (payment again).paymentPayload
      (payment again).paymentRequirements) = bodyJson again := by
  have hbody : facilitatorRequest (payment again).paymentPayload (payment again).paymentRequirements
      = bodyJson again := by
    rw [facilitatorRequest, payment, payload_payingFor, requirements_payingFor]
    rfl
  have hlength : (Utf8.encode (Json.write (Json.literal GoQuote.marshalRune) (bodyJson again))).length ≤
      Facilitator.MAX_BODY_BYTES := by
    cases again <;> decide +kernel
  have hmarshal : (goCodec.marshal (payment again).paymentPayload (payment again).paymentRequirements).length ≤
      Facilitator.MAX_BODY_BYTES := by
    rw [← hbody] at hlength
    exact hlength
  rw [Facilitator.readJson, if_neg (Nat.not_lt.mpr hmarshal), goCodec.parse_marshal, hbody]
  rfl

def ledger : Facilitator.State := ⟨[], none, []⟩

/-- The ledger behind a payment. -/
def granted (f : Facilitator.State) (again : Bool) : Facilitator.State :=
  f.grant Facilitator.plainPlatform (payloadJsonFor (nonceOf again) "129990000".toList) (some (.str payer))

def paidLedger : Facilitator.State := granted ledger false

/-- The ledger that a payment comes to. -/
def ledgerFor (again : Bool) : Facilitator.State := if again then paidLedger else ledger

/-- The hash of a transfer. -/
def settledResponse (again : Bool) : SettleResponse :=
  ⟨true, [], Utf8.encode (Facilitator.simulatedTransactionHash Facilitator.plainPlatform
    (((payloadJsonFor (nonceOf again) "129990000".toList).prop "authorization").getD .null)),
    Utf8.str "base-sepolia", Utf8.encode payer⟩

/-- The answer of the facilitator to a payment on `/verify`. -/
def verifiedAnswer : Facilitator.FacilitatorResponse :=
  ⟨200, .obj [("isValid".toList, .bool true), ("payer".toList, .str payer)]⟩

/-- And the one on `/settle`. -/
def settledAnswer (again : Bool) : Facilitator.FacilitatorResponse :=
  Facilitator.granted Facilitator.plainPlatform (payloadJsonFor (nonceOf again) "129990000".toList) (some (.str payer))

theorem carry_verify (again : Bool) : (Transit.answered 5).carry goCodec Facilitator.plainPlatform (ledgerFor again)
    Facilitator.ROUTE.Verify (payment again) =
      (ledgerFor again, .answered verifiedAnswer.wire.1 verifiedAnswer.wire.2) := by
  have hhandle : Facilitator.handle Facilitator.plainPlatform (ledgerFor again)
      (Facilitator.post Facilitator.ROUTE.Verify (bodyJson again) 5) = (ledgerFor again, some verifiedAnswer) := by
    cases again <;> rfl
  rw [Transit.carry_answered, Codec.request, readJson_payment, hhandle, Facilitator.served, Option.getD_some]

theorem carry_settle (again : Bool) : (Transit.answered 5).carry goCodec Facilitator.plainPlatform (ledgerFor again)
    Facilitator.ROUTE.Settle (payment again) =
      (granted (ledgerFor again) again, .answered (settledAnswer again).wire.1 (settledAnswer again).wire.2) := by
  have hhandle : Facilitator.handle Facilitator.plainPlatform (ledgerFor again)
      (Facilitator.post Facilitator.ROUTE.Settle (bodyJson again) 5)
        = (granted (ledgerFor again) again, some (settledAnswer again)) := by
    cases again <;> rfl
  rw [Transit.carry_answered, Codec.request, readJson_payment, hhandle, Facilitator.served, Option.getD_some]

theorem verified_sample : HTTPFacilitator.post goCodec.unmarshalVerify (.answered verifiedAnswer.wire.1
    verifiedAnswer.wire.2) = .ok ⟨true, [], Utf8.encode payer⟩ :=
  post_wire rfl (Json.legible_flat (by simp)) (by decide +kernel) rfl

theorem settled_sample (again : Bool) : HTTPFacilitator.post goCodec.unmarshalSettle (.answered
    (settledAnswer again).wire.1 (settledAnswer again).wire.2) = .ok (settledResponse again) := by
  refine post_wire rfl ?_ (by cases again <;> decide +kernel) (by cases again <;> rfl)
  show Json.Legible jsQuote (.obj [("success".toList, .bool true),
    ("transaction".toList, .str (Facilitator.simulatedTransactionHash Facilitator.plainPlatform
      (((payloadJsonFor (nonceOf again) "129990000".toList).prop "authorization").getD .null))),
    ("network".toList, .str "base-sepolia".toList), ("payer".toList, .str payer)])
  exact Json.legible_flat (by simp)

/-- What a payment leaves. -/
def paidBehind (sys : Sys) (again : Bool) (newID : Bytes) : Sys :=
  let p := (payment again).pending listingRow.listing newID
  ((sys.withDB ((sys.db.claim p).confirm p (settledResponse again).transaction 0)).withExchange
    ((payment again).exchange p true (.ok (settledResponse again)))).push
      ⟨payment again, 0, some (listingRow.listing, p), .returned (.ok (p.result (settledResponse again)))⟩

theorem run_payment (again : Bool) (sys : Sys) {newID : Bytes}
    (h : Claimable service sys.db (payment again) 0 listingRow.listing 0 ⟨true, [], Utf8.encode payer⟩ newID) :
    Joint.run service goCodec Facilitator.plainPlatform ⟨sys, ledgerFor again⟩
      (jointActions (payment again) 0 0 newID 0 (.answered 5) (.answered 5) sys.calls.length)
      = some ⟨paidBehind sys again newID, granted (ledgerFor again) again⟩ :=
  joint_confirms (s := ⟨sys, ledgerFor again⟩) h (carry_verify again) verified_sample (carry_settle again)
    (by cases again <;> decide) (settled_sample again) rfl (by cases again <;> decide +kernel)

def confirmedSys : Sys := paidBehind (Sys.init catalog) false settlementID

theorem run_first : Joint.run service goCodec Facilitator.plainPlatform (Joint.init catalog ledger)
    (jointActions (payment false) 0 0 settlementID 0 (.answered 5) (.answered 5) 0)
    = some ⟨confirmedSys, paidLedger⟩ :=
  run_payment false (Sys.init catalog)
    ⟨claimable.verifies, claimable.found, claimable.matching, rfl, claimable.admits⟩

/-- Both payments, one after the other. -/
def twiceActions : List JointAction :=
  jointActions (payment false) 0 0 settlementID 0 (.answered 5) (.answered 5) 0 ++
    jointActions (payment true) 0 0 secondID 0 (.answered 5) (.answered 5) 1

theorem run_twice : ∃ s, Joint.run service goCodec Facilitator.plainPlatform (Joint.init catalog ledger) twiceActions
    = some s ∧ s.sys.db.confirmed.map (·.settlementID) = [settlementID, secondID] := by
  have hclaim : Claimable service confirmedSys.db second 0 listingRow.listing 0 verified secondID :=
    claimable_second rfl rfl (by decide)
  have hsecond := run_payment true confirmedSys
    ⟨hclaim.verifies, hclaim.found, hclaim.matching, rfl, hclaim.admits⟩
  exact ⟨_, Runs.run_append_eq_some.mpr ⟨_, run_first, hsecond⟩, by decide⟩

end Sample

theorem confirmed_covered_sample :
    (∃ as', run Sample.service (Sys.init Sample.catalog) as' = some Sample.confirmedSys) ∧
      Covered Facilitator.plainPlatform Sample.ledger ⟨Sample.confirmedSys, Sample.paidLedger⟩ :=
  confirmed_covered Sample.service Sample.goCodec Facilitator.plainPlatform Sample.catalog Sample.ledger
    Sample.run_first

/-- Two settlements are confirmed, each under a nonce of its own. -/
theorem nonce_pays_once_sample : ∃ s, Joint.run Sample.service Sample.goCodec Facilitator.plainPlatform
    (Joint.init Sample.catalog Sample.ledger) Sample.twiceActions = some s ∧
      s.sys.db.confirmed.map (·.settlementID) = [Sample.settlementID, Sample.secondID] ∧ PaysOnce s.sys := by
  obtain ⟨s, hrun, hconfirmed⟩ := Sample.run_twice
  exact ⟨s, hrun, hconfirmed, nonce_pays_once Sample.service Sample.goCodec Facilitator.plainPlatform Sample.catalog
    Sample.ledger hrun (by simp [Sample.twiceActions, jointActions])⟩

end Settlement
