import AgenticAttribution.Facilitator.Verify
import AgenticAttribution.Settlement.Payments
import AgenticAttribution.Settlement.Progress

/-!
# Settlement.Amount — what was paid for a confirmed settlement

A price is compared in three places: the service compares the gross amount with the listing, the facilitator
compares the signed value with the payment requirements, and the merchant compares the signed value with the
listing.  The service passes the requirements of a request on as they come, so it is the caller that joins the two
comparisons.  `paid_iff` says what that leaves: the transfer is worth the gross amount exactly if the requirements
ask for it.
-/

namespace Settlement

open Attribution Digits BigInt

/-! ## What the facilitator reads -/

theorem prop_authorization (p : PaymentPayload) : p.toJson.prop "authorization" = some p.authorization.toJson := by
  simp [PaymentPayload.toJson, jsonText, jsonInt, Json.prop_ofProps_of_ne, Json.prop_ofProps_self]

theorem prop_value (a : Eip3009Authorization) : a.toJson.prop "value" = jsonText a.value := by
  simp [Eip3009Authorization.toJson, jsonText, Json.prop_ofProps_of_ne, Json.prop_ofProps_self]

theorem prop_maxAmountRequired (r : PaymentRequirements) :
    r.toJson.prop "maxAmountRequired" = jsonText r.maxAmountRequired := by
  simp [PaymentRequirements.toJson, jsonText, Json.prop_ofProps_of_ne, Json.prop_ofProps_self]

theorem prop_network (p : PaymentPayload) : p.toJson.prop "network" = jsonText p.network := by
  simp [PaymentPayload.toJson, jsonText, jsonInt, Json.prop_ofProps_of_ne, Json.prop_ofProps_self]

theorem prop_network_requirements (r : PaymentRequirements) : r.toJson.prop "network" = jsonText r.network := by
  simp [PaymentRequirements.toJson, jsonText, Json.prop_ofProps_of_ne, Json.prop_ofProps_self]

/-- A string that reads as a text without a replacement character is the text. -/
theorem eq_encode_of_wireText {s : Bytes} {cs : List Char} (h : wireText s = cs) (hcs : '�' ∉ cs) :
    s = Utf8.encode cs := by
  refine Utf8.decode_eq_some_iff.mp ?_
  have hsome : ∀ r ∈ Utf8.decode s, some (r.getD '�') = r := by
    intro r hr
    cases r with
    | some c => rfl
    | none => exact absurd (h ▸ List.mem_map.mpr ⟨none, hr, rfl⟩) hcs
  rw [← h, wireText, List.map_map]
  exact ((List.map_congr_left hsome).trans (List.map_id _)).symm

/-! ## The transfer and the requirements -/

/-- The facilitator enforces what `verifyPayment` enforces: it executes no other transfer, and says that it settled
only when it executed one. -/
structure Enforces (p : Facilitator.Platform) (x : Exchange) : Prop where
  accepted : x.moved = true → ∃ now payer,
    Facilitator.verifyPayment p x.payload.toJson x.requirements.toJson now = some (.valid payer)
  executed : succeeded x.answer = true → x.moved = true

/-- The signed value of the transfer, in atomic units. -/
def Exchange.Worth (x : Exchange) (units : ℤ) : Prop :=
  Types.toUint256 (jsonText x.payload.authorization.value) "value" = .ok units

/-- A transfer of so many units was executed for the settlement. -/
def Transferred (s : Sys) (id : Bytes) (units : ℤ) : Prop :=
  ∃ x ∈ s.exchanges, x.settlementID = id ∧ x.moved = true ∧ x.Worth units

/-- The call returned `result`, to be answered or answered already. -/
def Call.Confirmed (call : Call) (result : Result) : Prop :=
  call.pc = .returned (.ok result) ∨ call.pc = .answered (.ok result)

/-- Atomic units in a cent. -/
def unitsPerCent : ℤ := 10000

theorem typedData_value {payload : PaymentPayload} {m : Types.Eip3009Message} {d : Types.Eip712Domain}
    (h : Facilitator.typedData payload.toJson = some (m, d)) :
    Types.toUint256 (jsonText payload.authorization.value) "value" = .ok m.value := by
  simp only [Facilitator.typedData, prop_authorization] at h
  split at h
  · rename_i message domain hm hd
    obtain ⟨rfl, rfl⟩ := Prod.mk.inj (Option.some.inj h)
    obtain ⟨-, -, hv, -⟩ := Types.toTypedMessage_eq_ok hm
    rw [prop_value] at hv
    exact hv
  · cases h

/-- **An executed transfer is worth what the requirements ask for.** -/
theorem Enforces.worth {p : Facilitator.Platform} {x : Exchange} (h : Enforces p x) (hmoved : x.moved = true) :
    ∃ units, x.Worth units ∧ bigInt (wireText x.requirements.maxAmountRequired) = some units := by
  obtain ⟨now, payer, hv⟩ := h.accepted hmoved
  obtain ⟨m, d, hacc, -⟩ := Facilitator.verifyPayment_eq_valid_iff.mp hv
  have hamount := hacc.accepted.amount
  rw [prop_maxAmountRequired] at hamount
  exact ⟨m.value, typedData_value hacc.typed, hamount⟩

/-- A payment that verifies is on the network that the facilitator knows. -/
theorem network_of_accepted {p : Facilitator.Platform} {payload : PaymentPayload} {r : PaymentRequirements} {now : ℤ}
    {payer : Option Json}
    (h : Facilitator.verifyPayment p payload.toJson r.toJson now = some (.valid payer)) :
    r.network = Utf8.str "base-sepolia" := by
  obtain ⟨m, d, hacc, -⟩ := Facilitator.verifyPayment_eq_valid_iff.mp h
  have hdomain : Types.eip712Domain (jsonText payload.network) = some d := by
    have htyped := hacc.typed
    simp only [Facilitator.typedData, prop_authorization, prop_network] at htyped
    split at htyped
    · rename_i message domain hm hd
      rw [hd, (Prod.mk.inj (Option.some.inj htyped)).2]
    · cases htyped
  -- a name that is inherited has no asset to compare
  have hknown : wireText payload.network = "base-sepolia".toList := by
    have hasset := hacc.accepted.asset
    simp only [Types.eip712Domain, jsonText, Types.NETWORKS] at hdomain
    split_ifs at hdomain with hname hinherited
    · exact hname
    · obtain rfl := Option.some.inj hdomain
      unfold Facilitator.sameAddress at hasset
      split at hasset
      · rename_i hnone
        cases hnone
      · cases hasset
  have hsame := hacc.network
  rw [prop_network, prop_network_requirements, jsonText, hknown] at hsame
  have heq : jsonText r.network = some (.str "base-sepolia".toList) := (Json.eq_of_strictEq hsame).symm
  exact eq_encode_of_wireText (Json.str.inj (Option.some.inj heq)) (by decide)

theorem Exchange.Worth.unique {x : Exchange} {m n : ℤ} (hm : x.Worth m) (hn : x.Worth n) : m = n :=
  Except.ok.inj (hm.symm.trans hn)

/-- **A confirmed settlement was paid in full exactly if the requirements of its request ask for the gross
amount.** -/
theorem paid_iff (svc : Service) (catalog : Catalog) (p : Facilitator.Platform) {as : List Action} {s : Sys}
    (h : run svc (Sys.init catalog) as = some s) (henf : ∀ x ∈ s.exchanges, Enforces p x)
    {call : Call} (hc : call ∈ s.calls) {result : Result} (hresult : call.Confirmed result) :
    Transferred s result.settlementID (call.req.grossAmountCents * unitsPerCent) ↔
      bigInt (wireText call.req.paymentRequirements.maxAmountRequired)
        = some (call.req.grossAmountCents * unitsPerCent) := by
  have hi : Inv s := inv_reachable h
  have hp : Payments s := payments_run h
  have hout : call.pc.outcome = some (result.settlementID, true) := by
    rcases hresult with hpc | hpc <;> rw [hpc] <;> rfl
  obtain ⟨x, hx, hid, -, hreq, hgood⟩ := hp.calls call hc _ _ hout
  have hmoved : x.moved = true := (henf x hx).executed hgood
  obtain ⟨units, hworth, hasked⟩ := (henf x hx).worth hmoved
  rw [hreq] at hasked
  constructor
  · rintro ⟨y, hy, hyid, -, hyworth⟩
    have hxy : x = y := exchange_unique hp hi hx hy (hid.trans hyid.symm)
    subst hxy
    rw [hasked, hworth.unique hyworth]
  · intro hfull
    rw [hfull, Option.some.injEq] at hasked
    exact ⟨x, hx, hid, hmoved, hasked ▸ hworth⟩

namespace Sample

def payer : List Char := '0' :: 'x' :: List.replicate 40 '1'

def nonce : List Char := '0' :: 'x' :: List.replicate 64 'a'

def payee : List Char := '0' :: 'x' :: List.replicate 40 '7'

/-- A request, with a payment of `units` for requirements that ask for as much. -/
def payingFor (req : Request) (nonce units : List Char) : Request :=
  { req with
    paymentPayload :=
      { payload with
        authorization := ⟨Utf8.encode payer, Utf8.encode payee, Utf8.encode units, Utf8.str "0", Utf8.str "9",
          Utf8.encode nonce⟩
        signature := Utf8.encode (Facilitator.plainSignature payer nonce) }
    paymentRequirements :=
      { requirements with
        asset := Utf8.str Types.BASE_SEPOLIA.usdcAddress
        maxAmountRequired := Utf8.encode units
        payTo := Utf8.encode payee } }

/-- The sample request with such a payment. -/
def paying (units : List Char) : Request := payingFor request nonce units

/-- The payment plays no part before it is made. -/
theorem claimable_paying (units : List Char) :
    Claimable service (DB.empty catalog) (paying units) 0 listingRow.listing 0 verified settlementID := by
  have h := claimable
  exact ⟨h.verifies, h.found, h.matching, h.valid, h.admits⟩

def paidState (units : List Char) : Sys :=
  ⟨((DB.empty catalog).claim pending).confirm pending response.transaction 0,
    [⟨paying units, 0, some (listingRow.listing, pending), .returned (.ok (pending.result response))⟩], [],
    [(paying units).exchange pending true (.ok response)]⟩

theorem run_paying (units : List Char) :
    run service (Sys.init catalog) (beginActions (paying units) 0 0 verified settlementID 0 ++
      payActions 0 true response 0) = some (paidState units) :=
  run_confirms (s := Sys.init catalog) (claimable_paying units) rfl (by decide)

/-- What the facilitator reads of a payment. -/
def payloadJsonFor (nonce units : List Char) : Json :=
  Json.ofProps [("x402Version", jsonInt 1), ("scheme", Json.str "exact".toList),
    ("network", Json.str "base-sepolia".toList),
    ("authorization", Json.ofProps [("from", Json.str payer), ("to", Json.str payee), ("value", Json.str units),
      ("validAfter", Json.str "0".toList), ("validBefore", Json.str "9".toList), ("nonce", Json.str nonce)]),
    ("signature", Json.str (Facilitator.plainSignature payer nonce))]

def payloadJson (units : List Char) : Json := payloadJsonFor nonce units

def requirementsJson (units : List Char) : Json :=
  Json.ofProps [("scheme", Json.str "exact".toList), ("network", Json.str "base-sepolia".toList),
    ("asset", Json.str Types.BASE_SEPOLIA.usdcAddress.toList), ("maxAmountRequired", Json.str units),
    ("payTo", Json.str payee), ("maxTimeoutSeconds", jsonInt 60), ("resource", Json.str []),
    ("description", Json.str [])]

theorem payload_payingFor (req : Request) (nonce units : List Char) :
    (payingFor req nonce units).paymentPayload.toJson = payloadJsonFor nonce units := by
  simp only [PaymentPayload.toJson, Eip3009Authorization.toJson, jsonText, payingFor, payload, Utf8.str,
    wireText_encode, payloadJsonFor]

theorem requirements_payingFor (req : Request) (nonce units : List Char) :
    (payingFor req nonce units).paymentRequirements.toJson = requirementsJson units := by
  simp only [PaymentRequirements.toJson, jsonText, payingFor, requirements, Utf8.str, wireText_encode, requirementsJson]
  rfl

/-- The facilitator accepts the payment. -/
def Pays (units : List Char) : Prop :=
  (Facilitator.verifyPayment Facilitator.plainPlatform (payloadJson units) (requirementsJson units) 5).any
    Facilitator.VerifyOutcome.isValid = true

theorem accepted_paying {units : List Char} (h : Pays units) :
    ∃ payer, Facilitator.verifyPayment Facilitator.plainPlatform (paying units).paymentPayload.toJson
      (paying units).paymentRequirements.toJson 5 = some (.valid payer) := by
  obtain ⟨outcome, hout, hvalid⟩ := (Option.any_eq_true _ _).mp h
  rw [paying, payload_payingFor, requirements_payingFor, ← payloadJson, hout]
  cases outcome with
  | invalid reason => cases hvalid
  | valid payer => exact ⟨payer, rfl⟩

theorem pays_full : Pays "129990000".toList := by
  unfold Pays
  decide

theorem pays_one : Pays ['1'] := by
  unfold Pays
  decide

theorem enforces_paying {units : List Char} (h : Pays units) :
    ∀ x ∈ (paidState units).exchanges, Enforces Facilitator.plainPlatform x := by
  intro x hx
  rw [List.mem_singleton.mp hx]
  exact ⟨fun _ => ⟨5, accepted_paying h⟩, fun _ => rfl⟩

end Sample

theorem paid_iff_sample :
    Transferred (Sample.paidState "129990000".toList) (Sample.pending.result Sample.response).settlementID
      (12999 * unitsPerCent) :=
  (paid_iff Sample.service Sample.catalog Facilitator.plainPlatform (Sample.run_paying "129990000".toList)
    (Sample.enforces_paying Sample.pays_full) List.mem_cons_self (Or.inl rfl)).mpr (by decide)

/-- A listing of 129.99 is settled for one atomic unit. -/
theorem underpaid :
    run Sample.service (Sys.init Sample.catalog) (beginActions (Sample.paying ['1']) 0 0 Sample.verified
        Sample.settlementID 0 ++ payActions 0 true Sample.response 0) = some (Sample.paidState ['1']) ∧
      (∀ x ∈ (Sample.paidState ['1']).exchanges, Enforces Facilitator.plainPlatform x) ∧
      (∃ call ∈ (Sample.paidState ['1']).calls,
        call.Confirmed (Sample.pending.result Sample.response) ∧ call.req.grossAmountCents = 12999) ∧
      ¬Transferred (Sample.paidState ['1']) Sample.settlementID (12999 * unitsPerCent) := by
  refine ⟨Sample.run_paying ['1'], Sample.enforces_paying Sample.pays_one, ?_, ?_⟩
  · exact ⟨_, List.mem_cons_self, Or.inl rfl, rfl⟩
  · rintro ⟨x, hx, -, -, hworth⟩
    rw [List.mem_singleton.mp hx] at hworth
    have hone : ((Sample.paying ['1']).exchange Sample.pending true (.ok Sample.response)).Worth 1 :=
      Types.toUint256_of_bigInt (by decide) (by decide) (by decide) (by decide)
    exact absurd (hworth.unique hone) (by decide)

end Settlement
