import AgenticAttribution.Lib.Run
import AgenticAttribution.Settlement.Handler

/-!
# Settlement.System — concurrent settlements over one database

The state is the database and every call of `Service.Settle` so far, each at its program counter.  An action runs
one atomic step of one call: a transaction of the store, or a request to the facilitator, with the local
computation around it.  A call whose steps stop occurring has crashed.  The facilitator's answers, the identifiers
of `newID`, the clock and the fates of the transactions come with the actions, so they are arbitrary.

Beside what the program has, the state keeps a history: the assertions minted so far, and the `facilitator.Settle`
invocations so far, each with whether the transfer was executed.

`Moves` says, constructor by constructor, what a step can do (`moves_of_step`).
-/

namespace Settlement

open Attribution

/-- Where a call of `Service.Settle` stands. -/
inductive Pc where
  /-- The assertion verified. -/
  | verified
  /-- The listing was found and matches. -/
  | checked (listing : Listing)
  /-- The facilitator took the payment to be valid. -/
  | accepted (listing : Listing)
  /-- `Begin` returned without an error. -/
  | claimed (p : PendingSettlement)
  /-- The facilitator settled. -/
  | settled (p : PendingSettlement) (response : SettleResponse)
  /-- The facilitator did not settle, and `Fail` is next. -/
  | refused (p : PendingSettlement) (err : Err)
  | returned (result : Except Err Result)
  /-- `handleSettle` has answered. -/
  | answered (result : Except Err Result)

/-- The pending settlement between `Begin` and the last write. -/
def Pc.holding : Pc → Option PendingSettlement
  | claimed p | settled p _ | refused p _ => some p
  | _ => none

/-- One call of `Service.Settle`. -/
structure Call where
  req : Request
  now : ℤ
  /-- What `Begin` was called with, and the listing it was made from. -/
  begun : Option (Listing × PendingSettlement)
  pc : Pc

/-- One invocation of `facilitator.Settle`. -/
structure Exchange where
  settlementID : Bytes
  assertionID : Bytes
  payload : PaymentPayload
  requirements : PaymentRequirements
  /-- The transfer was executed. -/
  moved : Bool
  answer : Except Err SettleResponse

/-- The invocation that pays for the settlement `p` of a request. -/
def Request.exchange (req : Request) (p : PendingSettlement) (moved : Bool) (answer : Except Err SettleResponse) :
    Exchange :=
  ⟨p.settlementID, p.assertionID, req.paymentPayload, req.paymentRequirements, moved, answer⟩

structure Sys where
  db : DB
  calls : List Call
  minted : List MintArgs
  exchanges : List Exchange

/-- The empty ledger, before any call. -/
def Sys.init (catalog : Catalog) : Sys := ⟨DB.empty catalog, [], [], []⟩

inductive Action where
  /-- A request arrives at `now`, and its assertion is verified. -/
  | enter (req : Request) (now : ℤ)
  /-- `LookupListing` and the checks against the listing. -/
  | lookup (call pick : ℕ) (fate : Fate)
  /-- `facilitator.Verify`. -/
  | verifyPayment (call : ℕ) (answer : Except Err VerifyResponse)
  /-- `newID` and `Store.Begin`. -/
  | begin (call : ℕ) (newID : Bytes) (fate : Fate)
  /-- `facilitator.Settle`, which executes the transfer or does not, whatever it answers. -/
  | settlePayment (call : ℕ) (moved : Bool) (answer : Except Err SettleResponse)
  /-- `Store.Confirm` at `now`. -/
  | confirm (call : ℕ) (now : ℤ) (fate : Fate)
  /-- `Store.Fail`. -/
  | fail (call : ℕ) (fate : Fate)
  /-- The journalling of `handleSettle`, and its answer. -/
  | journal (call : ℕ) (fate : Fate)
  /-- `Signer.Mint`, in the search service. -/
  | mint (args : MintArgs)
  /-- A change of the reference data by another service. -/
  | catalog (new : Catalog)
  /-- A `POST /rejections`. -/
  | reject (body : Option Rejection) (fate : Fate)

/-- The call whose step an action is. -/
def Action.caller : Action → Option ℕ
  | .lookup c _ _ | .verifyPayment c _ | .begin c _ _ | .settlePayment c _ _ | .confirm c _ _ | .fail c _
  | .journal c _ => some c
  | _ => none

/-- The call `c` in a new state. -/
def Sys.put (s : Sys) (c : ℕ) (call : Call) : Sys := { s with calls := s.calls.set c call }

/-- A call at its first step. -/
def Service.entered (svc : Service) (req : Request) (now : ℤ) : Call :=
  { req, now, begun := none
    pc := match svc.verify req now with
      | some e => .returned (.error e)
      | none => .verified }

section Steps

variable (svc : Service)

/-- What becomes of a call at `verified`. -/
def Service.lookup (s : Sys) (call : Call) (pick : ℕ) (fate : Fate) : Pc :=
  match Store.lookupListing svc.driver s.db call.req.assertion.productID call.req.merchantID pick fate with
  | .error e => .returned (.error e)
  | .ok listing =>
    match call.req.checkListing listing with
    | some e => .returned (.error e)
    | none => .checked listing

/-- The program counter behind `facilitator.Verify`. -/
def verifyPc (listing : Listing) (answer : Except Err VerifyResponse) : Pc :=
  match checkVerified answer with
  | some e => .returned (.error e)
  | none => .accepted listing

/-- The program counter behind `Begin`. -/
def beginPc (p : PendingSettlement) : Option Err → Pc
  | some e => .returned (.error e)
  | none => .claimed p

/-- The program counter behind `facilitator.Settle`. -/
def settlePc (p : PendingSettlement) (answer : Except Err SettleResponse) : Pc :=
  match settleFailure answer with
  | .error e => .refused p e
  | .ok response => .settled p response

/-- The program counter behind `Confirm`. -/
def confirmPc (p : PendingSettlement) (response : SettleResponse) : Option Err → Pc
  | some e => .returned (.error e)
  | none => .returned (.ok (p.result response))

/-- One atomic step. -/
def step (s : Sys) : Action → Option Sys
  | .enter req now => some { s with calls := s.calls ++ [svc.entered req now] }
  | .lookup c pick fate => do
    let call ← s.calls[c]?
    match call.pc with
    | .verified => some (s.put c { call with pc := svc.lookup s call pick fate })
    | _ => none
  | .verifyPayment c answer => do
    let call ← s.calls[c]?
    match call.pc with
    | .checked listing =>
      match checkVerified answer with
      | some e => some (s.put c { call with pc := .returned (.error e) })
      | none => some (s.put c { call with pc := .accepted listing })
    | _ => none
  | .begin c newID fate => do
    let call ← s.calls[c]?
    match call.pc with
    | .accepted listing =>
      let p := call.req.pending listing newID
      let (db, r) := Store.begin svc.driver s.db p fate
      some ({ s with db }.put c { call with begun := some (listing, p), pc := beginPc p r })
    | _ => none
  | .settlePayment c moved answer => do
    let call ← s.calls[c]?
    match call.pc with
    | .claimed p =>
      some ({ s with exchanges := s.exchanges ++ [call.req.exchange p moved answer] }.put c
        { call with pc := settlePc p answer })
    | _ => none
  | .confirm c now fate => do
    let call ← s.calls[c]?
    match call.pc with
    | .settled p response =>
      let (db, r) := Store.confirm svc.driver s.db p response.transaction now fate
      some ({ s with db }.put c { call with pc := confirmPc p response r })
    | _ => none
  | .fail c fate => do
    let call ← s.calls[c]?
    match call.pc with
    | .refused p err =>
      let (db, r) := Store.fail svc.driver s.db p.settlementID fate
      some ({ s with db }.put c { call with pc := .returned (.error (err.join r)) })
    | _ => none
  | .journal c fate => do
    let call ← s.calls[c]?
    match call.pc with
    | .returned (.error err) =>
      let db := Handler.journal svc.driver s.db call.req err fate
      some ({ s with db }.put c { call with pc := .answered (.error err) })
    | .returned (.ok result) => some (s.put c { call with pc := .answered (.ok result) })
    | _ => none
  | .mint args => if args.inRange then some { s with minted := s.minted ++ [args] } else none
  | .catalog new => if new.extends s.db.catalog then some { s with db := { s.db with catalog := new } } else none
  | .reject body fate => some { s with db := (Handler.recordRejection svc.driver s.db body fate).1 }

/-- A run of the system. -/
abbrev run (s : Sys) (as : List Action) : Option Sys := Runs.run (step svc) s as

end Steps

/-! ## The steps, one by one -/

section Inversion

variable {svc : Service} {s t : Sys} {c : ℕ}

theorem step_lookup_iff {pick : ℕ} {fate : Fate} : step svc s (.lookup c pick fate) = some t ↔
    ∃ call, s.calls[c]? = some call ∧ call.pc = .verified ∧
      t = s.put c { call with pc := svc.lookup s call pick fate } := by
  constructor
  · intro h
    obtain ⟨call, hc, h⟩ := Option.bind_eq_some_iff.mp h
    split at h
    · rename_i hpc
      exact ⟨call, hc, hpc, (Option.some.inj h).symm⟩
    · cases h
  · rintro ⟨call, hc, hpc, rfl⟩
    simp only [step, hc, Option.bind_eq_bind, Option.bind_some, hpc]

theorem step_verifyPayment_iff {answer : Except Err VerifyResponse} :
    step svc s (.verifyPayment c answer) = some t ↔
      ∃ call listing, s.calls[c]? = some call ∧ call.pc = .checked listing ∧
        t = s.put c { call with pc := verifyPc listing answer } := by
  constructor
  · intro h
    obtain ⟨call, hc, h⟩ := Option.bind_eq_some_iff.mp h
    split at h
    · rename_i listing hpc
      refine ⟨call, listing, hc, hpc, ?_⟩
      unfold verifyPc
      cases hv : checkVerified answer <;> rw [hv] at h <;> exact (Option.some.inj h).symm
    · cases h
  · rintro ⟨call, listing, hc, hpc, rfl⟩
    simp only [step, hc, Option.bind_eq_bind, Option.bind_some, hpc, verifyPc]
    cases checkVerified answer <;> rfl

theorem step_begin_iff {newID : Bytes} {fate : Fate} : step svc s (.begin c newID fate) = some t ↔
    ∃ call listing db r, s.calls[c]? = some call ∧ call.pc = .accepted listing ∧
      Store.begin svc.driver s.db (call.req.pending listing newID) fate = (db, r) ∧
      t = { s with db }.put c
        { call with
          begun := some (listing, call.req.pending listing newID)
          pc := beginPc (call.req.pending listing newID) r } := by
  constructor
  · intro h
    obtain ⟨call, hc, h⟩ := Option.bind_eq_some_iff.mp h
    split at h
    · rename_i listing hpc
      exact ⟨call, listing, _, _, hc, hpc, rfl, (Option.some.inj h).symm⟩
    · cases h
  · rintro ⟨call, listing, db, r, hc, hpc, hb, rfl⟩
    simp only [step, hc, Option.bind_eq_bind, Option.bind_some, hpc, hb]

theorem step_settlePayment_iff {moved : Bool} {answer : Except Err SettleResponse} :
    step svc s (.settlePayment c moved answer) = some t ↔
      ∃ call p, s.calls[c]? = some call ∧ call.pc = .claimed p ∧
        t = { s with exchanges := s.exchanges ++ [call.req.exchange p moved answer] }.put c
          { call with pc := settlePc p answer } := by
  constructor
  · intro h
    obtain ⟨call, hc, h⟩ := Option.bind_eq_some_iff.mp h
    split at h
    · rename_i p hpc
      exact ⟨call, p, hc, hpc, (Option.some.inj h).symm⟩
    · cases h
  · rintro ⟨call, p, hc, hpc, rfl⟩
    simp only [step, hc, Option.bind_eq_bind, Option.bind_some, hpc]

theorem step_confirm_iff {now : ℤ} {fate : Fate} : step svc s (.confirm c now fate) = some t ↔
    ∃ call p response db r, s.calls[c]? = some call ∧ call.pc = .settled p response ∧
      Store.confirm svc.driver s.db p response.transaction now fate = (db, r) ∧
      t = { s with db }.put c { call with pc := confirmPc p response r } := by
  constructor
  · intro h
    obtain ⟨call, hc, h⟩ := Option.bind_eq_some_iff.mp h
    split at h
    · rename_i p response hpc
      exact ⟨call, p, response, _, _, hc, hpc, rfl, (Option.some.inj h).symm⟩
    · cases h
  · rintro ⟨call, p, response, db, r, hc, hpc, hb, rfl⟩
    simp only [step, hc, Option.bind_eq_bind, Option.bind_some, hpc, hb]

theorem step_fail_iff {fate : Fate} : step svc s (.fail c fate) = some t ↔
    ∃ call p err db r, s.calls[c]? = some call ∧ call.pc = .refused p err ∧
      Store.fail svc.driver s.db p.settlementID fate = (db, r) ∧
      t = { s with db }.put c { call with pc := .returned (.error (err.join r)) } := by
  constructor
  · intro h
    obtain ⟨call, hc, h⟩ := Option.bind_eq_some_iff.mp h
    split at h
    · rename_i p err hpc
      exact ⟨call, p, err, _, _, hc, hpc, rfl, (Option.some.inj h).symm⟩
    · cases h
  · rintro ⟨call, p, err, db, r, hc, hpc, hf, rfl⟩
    simp only [step, hc, Option.bind_eq_bind, Option.bind_some, hpc, hf]

/-- The database behind the answer of a call. -/
def Service.journalled (svc : Service) (db : DB) (req : Request) (fate : Fate) : Except Err Result → DB
  | .error err => Handler.journal svc.driver db req err fate
  | .ok _ => db

theorem step_journal_iff {fate : Fate} : step svc s (.journal c fate) = some t ↔
    ∃ call result, s.calls[c]? = some call ∧ call.pc = .returned result ∧
      t = { s with db := svc.journalled s.db call.req fate result }.put c
        { call with pc := .answered result } := by
  constructor
  · intro h
    obtain ⟨call, hc, h⟩ := Option.bind_eq_some_iff.mp h
    split at h
    · rename_i err hpc
      exact ⟨call, .error err, hc, hpc, (Option.some.inj h).symm⟩
    · rename_i result hpc
      exact ⟨call, .ok result, hc, hpc, (Option.some.inj h).symm⟩
    · cases h
  · rintro ⟨call, result, hc, hpc, rfl⟩
    cases result <;> simp only [step, hc, Option.bind_eq_bind, Option.bind_some, hpc] <;> rfl

theorem step_mint_iff {args : MintArgs} :
    step svc s (.mint args) = some t ↔ args.inRange = true ∧ t = { s with minted := s.minted ++ [args] } := by
  rw [step, Option.ite_none_right_eq_some, Option.some.injEq, eq_comm (a := t)]

theorem step_catalog_iff {new : Catalog} : step svc s (.catalog new) = some t ↔
    new.extends s.db.catalog = true ∧ t = { s with db := { s.db with catalog := new } } := by
  rw [step, Option.ite_none_right_eq_some, Option.some.injEq, eq_comm (a := t)]

end Inversion

/-! ## What a step can do -/

section Moves

variable {svc : Service}

/-- The lookup succeeded: the listing is a row of the catalog for the product and the merchant, and it matches. -/
structure Found (s : Sys) (req : Request) (listing : Listing) : Prop where
  row : ∃ row ∈ s.db.catalog.listings,
    row.productID = req.assertion.productID ∧ row.merchantID = req.merchantID ∧ row.listing = listing
  inStock : listing.inStock = true
  currency : listing.currency = req.currency
  price : listing.priceCents = req.grossAmountCents

/-- The steps of the system, with what each leaves behind. -/
inductive Moves (svc : Service) (s : Sys) : Action → Sys → Prop where
  | entered (req : Request) (now : ℤ) :
    Moves svc s (.enter req now) { s with calls := s.calls ++ [svc.entered req now] }
  | turnedDown {c : ℕ} {call : Call} {a : Action} (e : Err) (hc : s.calls[c]? = some call)
    (hpc : call.pc = .verified ∨ ∃ l, call.pc = .checked l) :
    Moves svc s a (s.put c { call with pc := .returned (.error e) })
  | found {c pick : ℕ} {fate : Fate} {call : Call} {listing : Listing} (hc : s.calls[c]? = some call)
    (hpc : call.pc = .verified) (hl : Found s call.req listing) :
    Moves svc s (.lookup c pick fate) (s.put c { call with pc := .checked listing })
  | accepted {c : ℕ} {answer : Except Err VerifyResponse} {call : Call} {listing : Listing}
    (hc : s.calls[c]? = some call) (hpc : call.pc = .checked listing) (hv : checkVerified answer = none) :
    Moves svc s (.verifyPayment c answer) (s.put c { call with pc := .accepted listing })
  | notBegun {c : ℕ} {newID : Bytes} {fate : Fate} {call : Call} {listing : Listing} (e : Err)
    (hc : s.calls[c]? = some call) (hpc : call.pc = .accepted listing) :
    Moves svc s (.begin c newID fate) (s.put c
      { call with begun := some (listing, call.req.pending listing newID), pc := .returned (.error e) })
  | begun {c : ℕ} {newID : Bytes} {fate : Fate} {call : Call} {listing : Listing} (r : Option Err)
    (hc : s.calls[c]? = some call) (hpc : call.pc = .accepted listing)
    (hadm : s.db.Admits (call.req.pending listing newID)) :
    Moves svc s (.begin c newID fate) ({ s with db := s.db.claim (call.req.pending listing newID) }.put c
      { call with
        begun := some (listing, call.req.pending listing newID)
        pc := beginPc (call.req.pending listing newID) r })
  | paid {c : ℕ} {moved : Bool} {answer : Except Err SettleResponse} {call : Call} {p : PendingSettlement}
    (hc : s.calls[c]? = some call) (hpc : call.pc = .claimed p) :
    Moves svc s (.settlePayment c moved answer)
      ({ s with exchanges := s.exchanges ++ [call.req.exchange p moved answer] }.put c
        { call with pc := settlePc p answer })
  | notConfirmed {c : ℕ} {now : ℤ} {fate : Fate} {call : Call} {p : PendingSettlement} {response : SettleResponse}
    (e : Err) (hc : s.calls[c]? = some call) (hpc : call.pc = .settled p response) :
    Moves svc s (.confirm c now fate) (s.put c { call with pc := .returned (.error e) })
  | confirmed {c : ℕ} {now : ℤ} {fate : Fate} {call : Call} {p : PendingSettlement} {response : SettleResponse}
    (r : Option Err) (hc : s.calls[c]? = some call) (hpc : call.pc = .settled p response)
    (hconf : s.db.Confirmable p response.transaction) :
    Moves svc s (.confirm c now fate) ({ s with db := s.db.confirm p response.transaction now }.put c
      { call with pc := confirmPc p response r })
  | notFailed {c : ℕ} {fate : Fate} {call : Call} {p : PendingSettlement} {err : Err} (e : Err)
    (hc : s.calls[c]? = some call) (hpc : call.pc = .refused p err) :
    Moves svc s (.fail c fate) (s.put c { call with pc := .returned (.error e) })
  | failed {c : ℕ} {fate : Fate} {call : Call} {p : PendingSettlement} {err : Err} (e : Err)
    (hc : s.calls[c]? = some call) (hpc : call.pc = .refused p err) :
    Moves svc s (.fail c fate) ({ s with db := s.db.fail p.settlementID }.put c
      { call with pc := .returned (.error e) })
  | journalled {c : ℕ} {fate : Fate} {call : Call} {result : Except Err Result} (rows : List RejectedAttempt)
    (hc : s.calls[c]? = some call) (hpc : call.pc = .returned result) :
    Moves svc s (.journal c fate) ({ s with db := { s.db with rejected := rows } }.put c
      { call with pc := .answered result })
  | minted {args : MintArgs} (h : args.inRange = true) :
    Moves svc s (.mint args) { s with minted := s.minted ++ [args] }
  | catalogued {new : Catalog} (h : new.extends s.db.catalog = true) :
    Moves svc s (.catalog new) { s with db := { s.db with catalog := new } }
  | rejected {body : Option Rejection} {fate : Fate} (rows : List RejectedAttempt) :
    Moves svc s (.reject body fate) { s with db := { s.db with rejected := rows } }

theorem Service.lookup_cases (svc : Service) (s : Sys) (call : Call) (pick : ℕ) (fate : Fate) :
    (∃ e, svc.lookup s call pick fate = .returned (.error e)) ∨
      ∃ l, svc.lookup s call pick fate = .checked l ∧ Found s call.req l := by
  unfold Service.lookup
  split
  · rename_i e _
    exact Or.inl ⟨e, rfl⟩
  · rename_i l hl
    split
    · rename_i e _
      exact Or.inl ⟨e, rfl⟩
    · rename_i hcheck
      obtain ⟨hstock, hcur, hprice⟩ := Request.checkListing_eq_none.mp hcheck
      exact Or.inr ⟨l, rfl, Store.lookupListing_eq_ok hl, hstock, hcur, hprice⟩

/-- **Inversion of a step.** -/
theorem moves_of_step {s t : Sys} {a : Action} (h : step svc s a = some t) : Moves svc s a t := by
  cases a with
  | enter req now =>
    cases h
    exact .entered req now
  | lookup c pick fate =>
    obtain ⟨call, hc, hpc, rfl⟩ := step_lookup_iff.mp h
    rcases svc.lookup_cases s call pick fate with ⟨e, he⟩ | ⟨l, hl, hfound⟩
    · rw [he]
      exact .turnedDown e hc (Or.inl hpc)
    · rw [hl]
      exact .found hc hpc hfound
  | verifyPayment c answer =>
    obtain ⟨call, listing, hc, hpc, rfl⟩ := step_verifyPayment_iff.mp h
    unfold verifyPc
    cases hv : checkVerified answer with
    | some e => exact .turnedDown e hc (Or.inr ⟨listing, hpc⟩)
    | none => exact .accepted hc hpc hv
  | begin c newID fate =>
    obtain ⟨call, listing, db, r, hc, hpc, hb, rfl⟩ := step_begin_iff.mp h
    rcases Store.begin_cases hb with ⟨rfl, hr⟩ | ⟨hadm, rfl⟩
    · obtain ⟨e, rfl⟩ := Option.ne_none_iff_exists'.mp hr
      exact .notBegun e hc hpc
    · exact .begun r hc hpc hadm
  | settlePayment c moved answer =>
    obtain ⟨call, p, hc, hpc, rfl⟩ := step_settlePayment_iff.mp h
    exact .paid hc hpc
  | confirm c now fate =>
    obtain ⟨call, p, response, db, r, hc, hpc, hb, rfl⟩ := step_confirm_iff.mp h
    rcases Store.confirm_cases hb with ⟨rfl, hr⟩ | ⟨hconf, rfl⟩
    · obtain ⟨e, rfl⟩ := Option.ne_none_iff_exists'.mp hr
      exact .notConfirmed e hc hpc
    · exact .confirmed r hc hpc hconf
  | fail c fate =>
    obtain ⟨call, p, err, db, r, hc, hpc, hf, rfl⟩ := step_fail_iff.mp h
    rcases Store.fail_cases hf with ⟨rfl, -⟩ | rfl
    · exact .notFailed (err.join r) hc hpc
    · exact .failed (err.join r) hc hpc
  | journal c fate =>
    obtain ⟨call, result, hc, hpc, rfl⟩ := step_journal_iff.mp h
    cases result with
    | error err =>
      obtain ⟨rows, hrows⟩ := Handler.journal_frame svc.driver s.db call.req err fate
      rw [Service.journalled, hrows]
      exact .journalled rows hc hpc
    | ok result => exact .journalled s.db.rejected hc hpc
  | mint args =>
    obtain ⟨hr, rfl⟩ := step_mint_iff.mp h
    exact .minted hr
  | catalog new =>
    obtain ⟨hx, rfl⟩ := step_catalog_iff.mp h
    exact .catalogued hx
  | reject body fate =>
    obtain ⟨rows, hrows⟩ := Handler.recordRejection_frame svc.driver s.db body fate
    simp only [step, hrows, Option.some.injEq] at h
    subst h
    exact .rejected rows

end Moves

end Settlement
