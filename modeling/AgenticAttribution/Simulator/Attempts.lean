import AgenticAttribution.Lib.Run
import AgenticAttribution.Simulator.Fraud

/-!
# Simulator.Attempts — what the runner counts

`simulator/src/runner.ts`: `runOnce`, taken from one `await` to the next, for any number of attempts at a time.  An
attempt is counted where it ends: by the class it ends in, and by the `catch` around all of its stages.  The counts
add up as long as nothing fails on the way to a tampered purchase (`accounts_iff`).
-/

namespace Simulator

open Types Digits

/-! ## The agent -/

section Agent

/-- What a request comes to: a response with its body, `none` where that cannot be read, or nothing. -/
inductive Reply where
  | lost
  | answered (status : ℕ) (text : Option (List Char))

/-- What the agent throws. -/
inductive Caught where
  /-- `AgentError`. -/
  | refused (status : ℕ) (body : Json)
  | other

structure Agent where
  /-- `JSON.parse`; `none` is a `SyntaxError`. -/
  parse : List Char → Option Json
  /-- The assertion out of `selectCheapestInStock`, on a body of any shape; `none` if it throws. -/
  selectCheapestInStock : Json → Option (Option AttributionAssertion)

/-- `response.ok`. -/
def ok (status : ℕ) : Bool := 200 ≤ status ∧ status ≤ 299

namespace Agent

variable (agent : Agent)

def readErrorBody (text : List Char) : Json := (agent.parse text).getD (.str text)

/-- `response.json()`. -/
def json (text : List Char) : Except Caught Json :=
  match agent.parse text with
  | none => .error .other
  | some body => .ok body

/-- What both `search` and `completePurchase` make of a reply. -/
def post : Reply → Except Caught Json
  | .lost | .answered _ none => .error .other
  | .answered status (some text) =>
    if ok status then agent.json text else .error (.refused status (agent.readErrorBody text))

def search (reply : Reply) : Except Caught Json := agent.post reply

def completePurchase (reply : Reply) : Except Caught Json := agent.post reply

end Agent

/-- `value[0]` -/
def first : Json → Option Json
  | .arr (v :: _) => some v
  | .str (c :: _) => some (.str [c])
  | .obj members => (Json.obj members).prop "0"
  | _ => none

/-- What is asked for in the body of a challenge. -/
def accepted (body : Json) : Except Caught Json :=
  match body.prop "accepts" with
  | none | some .null => .error .other
  | some accepts =>
    match first accepts with
    | none => .error (.refused 402 body)
    | some requirements =>
      if Json.truthy (some requirements) then .ok requirements else .error (.refused 402 body)

def Agent.requestChallenge (agent : Agent) : Reply → Except Caught Json
  | .lost | .answered _ none => .error .other
  | .answered status (some text) =>
    if status ≠ 402 then .error (.refused status (agent.readErrorBody text))
    else (agent.json text).bind accepted

end Agent

/-! ## The runner -/

section Attempts

/-- The three counters in which an attempt ends. -/
inductive Exit where
  | settled
  | blocked
  | failed
  deriving DecidableEq

/-- `reasonOf`; `none` if it throws. -/
def reasonOf (status : ℕ) (body : Json) : Option (List Char) :=
  match body.prop "reason" with
  | none | some .null => some ("http_".toList ++ natChars status)
  | some (.str reason) =>
    some (if BigInt.trim reason = [] then "http_".toList ++ natChars status else BigInt.trim reason)
  | _ => none

/-- The reason that is recorded for a failure. -/
def failureReason : Caught → Option (List Char)
  | .refused status body => reasonOf status body
  | .other => some "transport_error".toList

/-- `#handleFailure`. -/
def handleFailure (fraudMode : Option FraudMode) (caught : Caught) : List Exit :=
  match failureReason caught with
  | none => []
  | some _ => if fraudMode.isSome then [.blocked] else [.failed]

/-- The event that is told of a purchase can be written. -/
def tells (fraudMode : Option FraudMode) (fulfillment : Json) : Bool :=
  match fulfillment with
  | .null => false
  | _ =>
    if fraudMode.isSome then Json.displayable (fulfillment.prop "settlement_id")
    else Json.displayable (fulfillment.prop "publisher_commission_cents") &&
      Json.displayable (fulfillment.prop "amount_cents")

/-- What is counted behind a purchase that went through. -/
def handleFulfillment (fraudMode : Option FraudMode) (fulfillment : Json) : List Exit :=
  (if fraudMode.isSome then .failed else .settled) ::
    if tells fraudMode fulfillment then [] else handleFailure fraudMode .other

/-- The `await` that an attempt is at. -/
inductive Stage where
  | searching
  | challenging (assertion : AttributionAssertion)
  | signing (assertion : AttributionAssertion)
  | purchasing
  | finished

/-- A call of `runOnce`.  What it counted is kept beside it, and what became of its purchase. -/
structure Attempt where
  fraudMode : Option FraudMode
  stage : Stage
  presented : Option AttributionAssertion
  /-- The platform answered the purchase with an error. -/
  refused : Bool
  counted : List Exit

/-- What an attempt is resumed with. -/
inductive Event where
  | replied (reply : Reply)
  /-- What `signAuthorization` returns, `none` if it throws, with the time behind it. -/
  | signed (payment : Option Json) (nowMs : ℤ)

/-- What is run between two `await`s. -/
inductive Segment where
  | awaits (stage : Stage) (presented : Option AttributionAssertion)
  | ends (refused : Bool) (exits : List Exit)

/-- What is presented of a selection. -/
def present (fraudMode : Option FraudMode) (assertion : AttributionAssertion) (nowMs : ℤ) : AttributionAssertion :=
  match fraudMode with
  | none => assertion
  | some mode => applyFraud assertion mode nowMs

/-- The body of the `try` in `runOnce`, with its `catch`; `none` where the attempt does not wait for the event. -/
def Attempt.segment (agent : Agent) (a : Attempt) : Event → Option Segment
  | .replied reply =>
    match a.stage with
    | .searching =>
      match agent.search reply with
      | .error caught => some (.ends false (handleFailure a.fraudMode caught))
      | .ok results =>
        match agent.selectCheapestInStock results with
        | none => some (.ends false (handleFailure a.fraudMode .other))
        | some none => some (.ends false [.failed])
        | some (some assertion) => some (.awaits (.challenging assertion) none)
    | .challenging assertion =>
      match agent.requestChallenge reply with
      | .error caught => some (.ends false (handleFailure a.fraudMode caught))
      | .ok _ => some (.awaits (.signing assertion) none)
    | .purchasing =>
      match agent.completePurchase reply with
      | .error (.refused status body) => some (.ends true (handleFailure a.fraudMode (.refused status body)))
      | .error .other => some (.ends false (handleFailure a.fraudMode .other))
      | .ok fulfillment => some (.ends false (handleFulfillment a.fraudMode fulfillment))
    | _ => none
  | .signed payment nowMs =>
    match a.stage with
    | .signing assertion =>
      match payment with
      | none => some (.ends false (handleFailure a.fraudMode .other))
      | some _ => some (.awaits .purchasing (some (present a.fraudMode assertion nowMs)))
    | _ => none

def Attempt.after (a : Attempt) : Segment → Attempt
  | .awaits stage presented => { a with stage := stage, presented := presented }
  | .ends refused exits => { a with stage := .finished, refused := refused, counted := a.counted ++ exits }

def Segment.exits : Segment → List Exit
  | .awaits _ _ => []
  | .ends _ exits => exits

/-- The counters of `RunnerStats`. -/
structure Counters where
  started : ℕ
  settled : ℕ
  blocked : ℕ
  failed : ℕ

def Counters.bump (c : Counters) : Exit → Counters
  | .settled => { c with settled := c.settled + 1 }
  | .blocked => { c with blocked := c.blocked + 1 }
  | .failed => { c with failed := c.failed + 1 }

structure Attempts where
  stats : Counters
  /-- The calls of `runOnce` so far. -/
  attempts : List Attempt

def Attempts.initial : Attempts := ⟨⟨0, 0, 0, 0⟩, []⟩

inductive Move where
  /-- A call, with what was drawn for it. -/
  | begin (publisherId query : Option (List Char)) (fraudMode : Option FraudMode)
  | resume (i : ℕ) (event : Event)

/-- There is a publisher and a query. -/
def configured (publisherId query : Option (List Char)) : Bool := publisherId.getD [] ≠ [] ∧ query.getD [] ≠ []

/-- `runOnce`, up to its first `await`. -/
def Attempts.begin (s : Attempts) (publisherId query : Option (List Char)) (fraudMode : Option FraudMode) : Attempts :=
  if configured publisherId query then
    ⟨{ s.stats with started := s.stats.started + 1 }, s.attempts ++ [⟨fraudMode, .searching, .none, false, []⟩]⟩
  else ⟨s.stats.bump .failed, s.attempts ++ [⟨.none, .finished, .none, false, [.failed]⟩]⟩

/-- One step of one of the attempts, or a further attempt. -/
def attemptStep (agent : Agent) (s : Attempts) : Move → Option Attempts
  | .begin publisherId query fraudMode => some (s.begin publisherId query fraudMode)
  | .resume i event =>
    match s.attempts[i]? with
    | .none => .none
    | some a =>
      (a.segment agent event).map fun segment =>
        ⟨segment.exits.foldl Counters.bump s.stats, s.attempts.set i (a.after segment)⟩

end Attempts

/-! ## The account -/

section Account

variable {agent : Agent} {a : Attempt} {s t : Attempts} {event : Event} {segment : Segment}

def Attempt.inFlight (a : Attempt) : Bool :=
  match a.stage with
  | .finished => false
  | _ => true

/-- The platform refused the tampered assertion that the attempt presented.  A refusal is what `completePurchase`
throws an `AgentError` for: an answer that is not a success, one of 500 and above among them, but none whose
body breaks off, be it a 401.  Tampered is what `applyFraud` returns, also where that is the assertion it was given. -/
def Attempt.RefusedFraud (a : Attempt) : Prop :=
  ∃ mode assertion nowMs, a.fraudMode = some mode ∧ a.presented = some (applyFraud assertion mode nowMs) ∧
    a.refused = true

/-- **The counters account for every attempt.** -/
structure Accounts (s : Attempts) : Prop where
  total : s.stats.started = s.stats.settled + s.stats.blocked + s.stats.failed + s.attempts.countP Attempt.inFlight
  once : ∀ a ∈ s.attempts, a.inFlight = false → a.counted.length = 1
  blocked : ∀ a ∈ s.attempts, .blocked ∈ a.counted → a.RefusedFraud

/-- The event does not end the attempt in the wrong class, in two, or in none. -/
def Attempt.Meets (agent : Agent) (a : Attempt) : Event → Prop
  | .replied reply =>
    match a.stage with
    | .searching =>
      match agent.search reply with
      | .error caught => a.fraudMode = none ∧ (failureReason caught).isSome = true
      | .ok results => agent.selectCheapestInStock results = none → a.fraudMode = none
    | .challenging _ =>
      match agent.requestChallenge reply with
      | .error caught => a.fraudMode = none ∧ (failureReason caught).isSome = true
      | .ok _ => True
    | .purchasing =>
      match agent.completePurchase reply with
      | .error (.refused status body) => (reasonOf status body).isSome = true
      | .error .other => a.fraudMode = none
      | .ok fulfillment => tells a.fraudMode fulfillment = true
    | _ => True
  | .signed payment _ =>
    match a.stage with
    | .signing _ => payment = none → a.fraudMode = none
    | _ => True

def Attempts.Meets (agent : Agent) (s : Attempts) : Move → Prop
  | .begin publisherId query _ => configured publisherId query = true
  | .resume i event => ∀ a, s.attempts[i]? = some a → a.Meets agent event

/-! ### One attempt -/

/-- What holds of an attempt at each of its stages. -/
structure Attempt.Sound (a : Attempt) : Prop where
  fresh : a.inFlight = true → a.counted = []
  presents : a.stage = .purchasing → ∀ mode, a.fraudMode = some mode →
    ∃ assertion nowMs, a.presented = some (applyFraud assertion mode nowMs)

/-- The part of the account that one attempt has. -/
structure Attempt.Fine (a : Attempt) : Prop where
  once : a.inFlight = false → a.counted.length = 1
  blocked : .blocked ∈ a.counted → a.RefusedFraud

theorem length_handleFailure (fraudMode : Option FraudMode) (caught : Caught) :
    (handleFailure fraudMode caught).length = 1 ↔ (failureReason caught).isSome = true := by
  unfold handleFailure
  cases failureReason caught with
  | none => exact iff_of_false Nat.zero_ne_one Bool.false_ne_true
  | some reason =>
    refine iff_of_true ?_ rfl
    split_ifs <;> rfl

theorem blocked_mem_handleFailure {fraudMode : Option FraudMode} {caught : Caught} :
    .blocked ∈ handleFailure fraudMode caught ↔
      (failureReason caught).isSome = true ∧ fraudMode.isSome = true := by
  unfold handleFailure
  cases failureReason caught with
  | none => simp
  | some reason => cases fraudMode <;> simp

theorem fine_ends (hfresh : a.counted = []) (refused : Bool) (exits : List Exit) :
    (a.after (.ends refused exits)).Fine ↔ exits.length = 1 ∧ (.blocked ∈ exits → ∃ mode assertion nowMs,
      a.fraudMode = some mode ∧ a.presented = some (applyFraud assertion mode nowMs) ∧ refused = true) := by
  have hcounted : (a.after (.ends refused exits)).counted = exits := by
    rw [Attempt.after, hfresh, List.nil_append]
  constructor
  · rintro ⟨honce, hblocked⟩
    rw [hcounted] at honce hblocked
    exact ⟨honce rfl, hblocked⟩
  · rintro ⟨honce, hblocked⟩
    refine ⟨fun _ => ?_, fun hmem => ?_⟩
    · rw [hcounted]
      exact honce
    · rw [hcounted] at hmem
      exact hblocked hmem

/-- A failure before an answer to the purchase. -/
theorem fine_unanswered (hfresh : a.counted = []) (caught : Caught) :
    (a.after (.ends false (handleFailure a.fraudMode caught))).Fine ↔
      a.fraudMode = none ∧ (failureReason caught).isSome = true := by
  rw [fine_ends hfresh, length_handleFailure, blocked_mem_handleFailure]
  constructor
  · rintro ⟨hreason, hblocked⟩
    refine ⟨?_, hreason⟩
    by_contra hfraud
    obtain ⟨-, -, -, -, -, hrefused⟩ := hblocked ⟨hreason, Option.isSome_iff_ne_none.mpr hfraud⟩
    cases hrefused
  · rintro ⟨hfraud, hreason⟩
    refine ⟨hreason, fun hmem => ?_⟩
    rw [hfraud] at hmem
    cases hmem.2

/-- A refusal of the purchase. -/
theorem fine_refused (hsound : a.Sound) (hfresh : a.counted = []) (hstage : a.stage = .purchasing) (caught : Caught) :
    (a.after (.ends true (handleFailure a.fraudMode caught))).Fine ↔ (failureReason caught).isSome = true := by
  rw [fine_ends hfresh, length_handleFailure, blocked_mem_handleFailure]
  refine ⟨fun h => h.1, fun hreason => ⟨hreason, fun hmem => ?_⟩⟩
  obtain ⟨mode, hmode⟩ := Option.isSome_iff_exists.mp hmem.2
  obtain ⟨assertion, nowMs, hpresented⟩ := hsound.presents hstage mode hmode
  exact ⟨mode, assertion, nowMs, hmode, hpresented, rfl⟩

/-- A purchase that went through. -/
theorem fine_fulfilled (hfresh : a.counted = []) (fulfillment : Json) :
    (a.after (.ends false (handleFulfillment a.fraudMode fulfillment))).Fine ↔
      tells a.fraudMode fulfillment = true := by
  rw [fine_ends hfresh, handleFulfillment]
  cases htells : tells a.fraudMode fulfillment with
  | false =>
    refine iff_of_false (fun h => ?_) (by decide)
    have hlen := (length_handleFailure a.fraudMode .other).mpr rfl
    have hone := h.1
    rw [List.length_cons, if_neg Bool.false_ne_true, hlen] at hone
    omega
  | true =>
    refine iff_of_true ⟨rfl, fun hmem => ?_⟩ rfl
    rw [if_pos rfl, List.mem_singleton] at hmem
    split_ifs at hmem

theorem fine_awaits (hfresh : a.counted = []) {stage : Stage} {presented : Option AttributionAssertion}
    (h : (a.after (.awaits stage presented)).inFlight = true) : (a.after (.awaits stage presented)).Fine := by
  have hcounted : (a.after (.awaits stage presented)).counted = [] := hfresh
  refine ⟨fun hfinished => ?_, fun hmem => ?_⟩
  · rw [h] at hfinished
    cases hfinished
  · rw [hcounted] at hmem
    cases hmem

/-- Only an attempt in flight can be resumed. -/
theorem inFlight_of_segment (h : a.segment agent event = some segment) : a.inFlight = true := by
  unfold Attempt.segment at h
  unfold Attempt.inFlight
  cases hstage : a.stage with
  | finished =>
    rw [hstage] at h
    cases event <;> cases h
  | searching => rfl
  | challenging assertion => rfl
  | signing assertion => rfl
  | purchasing => rfl

/-- What a segment comes to, and when the event meets the condition. -/
inductive Attempt.Takes (a : Attempt) (meets : Prop) : Segment → Prop where
  | fails (caught : Caught) (h : meets ↔ a.fraudMode = none ∧ (failureReason caught).isSome = true) :
    Takes a meets (.ends false (handleFailure a.fraudMode caught))
  | nothing (h : meets) : Takes a meets (.ends false [.failed])
  | challenges (assertion : AttributionAssertion) (h : meets) :
    Takes a meets (.awaits (.challenging assertion) none)
  | signs (assertion : AttributionAssertion) (h : meets) : Takes a meets (.awaits (.signing assertion) none)
  | presents (assertion : AttributionAssertion) (nowMs : ℤ) (h : meets) :
    Takes a meets (.awaits .purchasing (some (present a.fraudMode assertion nowMs)))
  | refused (caught : Caught) (hstage : a.stage = .purchasing) (h : meets ↔ (failureReason caught).isSome = true) :
    Takes a meets (.ends true (handleFailure a.fraudMode caught))
  | fulfilled (fulfillment : Json) (h : meets ↔ tells a.fraudMode fulfillment = true) :
    Takes a meets (.ends false (handleFulfillment a.fraudMode fulfillment))

theorem takes_of_search {reply : Reply} (hstage : a.stage = .searching)
    (h : a.segment agent (.replied reply) = some segment) : a.Takes (a.Meets agent (.replied reply)) segment := by
  simp only [Attempt.segment, Attempt.Meets, hstage] at h ⊢
  cases hsearch : agent.search reply with
  | error caught =>
    simp only [hsearch] at h
    obtain rfl := Option.some.inj h
    exact .fails caught Iff.rfl
  | ok results =>
    simp only [hsearch] at h ⊢
    cases hselect : agent.selectCheapestInStock results with
    | none =>
      rw [hselect] at h
      obtain rfl := Option.some.inj h
      exact .fails .other ⟨fun hmeets => ⟨hmeets rfl, rfl⟩, fun hfraud _ => hfraud.1⟩
    | some selection =>
      rw [hselect] at h
      cases selection with
      | none =>
        obtain rfl := Option.some.inj h
        exact .nothing nofun
      | some assertion =>
        obtain rfl := Option.some.inj h
        exact .challenges assertion nofun

theorem takes_of_challenge {reply : Reply} {assertion : AttributionAssertion}
    (hstage : a.stage = .challenging assertion) (h : a.segment agent (.replied reply) = some segment) :
    a.Takes (a.Meets agent (.replied reply)) segment := by
  simp only [Attempt.segment, Attempt.Meets, hstage] at h ⊢
  cases hchallenge : agent.requestChallenge reply with
  | error caught =>
    simp only [hchallenge] at h
    obtain rfl := Option.some.inj h
    exact .fails caught Iff.rfl
  | ok requirements =>
    simp only [hchallenge] at h
    obtain rfl := Option.some.inj h
    exact .signs assertion trivial

theorem takes_of_purchase {reply : Reply} (hstage : a.stage = .purchasing)
    (h : a.segment agent (.replied reply) = some segment) : a.Takes (a.Meets agent (.replied reply)) segment := by
  simp only [Attempt.segment, Attempt.Meets, hstage] at h ⊢
  cases hpurchase : agent.completePurchase reply with
  | error caught =>
    simp only [hpurchase] at h
    cases caught with
    | refused status body =>
      obtain rfl := Option.some.inj h
      exact .refused (.refused status body) hstage Iff.rfl
    | other =>
      obtain rfl := Option.some.inj h
      exact .fails .other (and_iff_left rfl).symm
  | ok fulfillment =>
    simp only [hpurchase] at h
    obtain rfl := Option.some.inj h
    exact .fulfilled fulfillment Iff.rfl

theorem takes_of_signed {payment : Option Json} {nowMs : ℤ} {assertion : AttributionAssertion}
    (hstage : a.stage = .signing assertion) (h : a.segment agent (.signed payment nowMs) = some segment) :
    a.Takes (a.Meets agent (.signed payment nowMs)) segment := by
  simp only [Attempt.segment, Attempt.Meets, hstage] at h ⊢
  cases payment with
  | none =>
    obtain rfl := Option.some.inj h
    exact .fails .other ⟨fun hmeets => ⟨hmeets rfl, rfl⟩, fun hfraud _ => hfraud.1⟩
  | some payment =>
    obtain rfl := Option.some.inj h
    exact .presents assertion nowMs nofun

/-- **What a piece of `runOnce` can do.** -/
theorem takes_of_segment (h : a.segment agent event = some segment) : a.Takes (a.Meets agent event) segment := by
  cases event with
  | replied reply =>
    cases hstage : a.stage with
    | searching => exact takes_of_search hstage h
    | challenging assertion => exact takes_of_challenge hstage h
    | purchasing => exact takes_of_purchase hstage h
    | signing _ | finished =>
      simp only [Attempt.segment, hstage] at h
      cases h
  | signed payment nowMs =>
    cases hstage : a.stage with
    | signing assertion => exact takes_of_signed hstage h
    | searching | challenging _ | purchasing | finished =>
      simp only [Attempt.segment, hstage] at h
      cases h

/-- **A segment leaves its attempt well counted exactly if the event meets the condition.** -/
theorem fine_after_iff (hsound : a.Sound) (h : a.segment agent event = some segment) :
    (a.after segment).Fine ↔ a.Meets agent event := by
  have hfresh : a.counted = [] := hsound.fresh (inFlight_of_segment h)
  cases takes_of_segment h with
  | fails caught hmeets => exact (fine_unanswered hfresh caught).trans hmeets.symm
  | nothing hmeets =>
    refine iff_of_true ((fine_ends hfresh false [.failed]).mpr ⟨rfl, fun hmem => ?_⟩) hmeets
    cases List.mem_singleton.mp hmem
  | challenges assertion hmeets => exact iff_of_true (fine_awaits hfresh rfl) hmeets
  | signs assertion hmeets => exact iff_of_true (fine_awaits hfresh rfl) hmeets
  | presents assertion nowMs hmeets => exact iff_of_true (fine_awaits hfresh rfl) hmeets
  | refused caught hstage hmeets => exact (fine_refused hsound hfresh hstage caught).trans hmeets.symm
  | fulfilled fulfillment hmeets => exact (fine_fulfilled hfresh fulfillment).trans hmeets.symm

theorem sound_after (hsound : a.Sound) (h : a.segment agent event = some segment) : (a.after segment).Sound := by
  have hfresh : a.counted = [] := hsound.fresh (inFlight_of_segment h)
  cases takes_of_segment h with
  | fails | nothing | refused | fulfilled => exact ⟨nofun, nofun⟩
  | challenges | signs => exact ⟨fun _ => hfresh, nofun⟩
  | presents assertion nowMs =>
    refine ⟨fun _ => hfresh, fun _ mode hmode => ⟨assertion, nowMs, ?_⟩⟩
    have hfraud : a.fraudMode = some mode := hmode
    show some (present a.fraudMode assertion nowMs) = _
    rw [hfraud, present]

theorem counted_after (a : Attempt) (segment : Segment) : (a.after segment).counted = a.counted ++ segment.exits := by
  cases segment with
  | ends refused exits => rfl
  | awaits stage presented => exact (List.append_nil _).symm

/-- A segment ends its attempt, or counts nothing. -/
theorem exits_of_segment (h : a.segment agent event = some segment) :
    (a.after segment).inFlight = false ∨ segment.exits = [] ∧ (a.after segment).inFlight = true := by
  cases takes_of_segment h with
  | fails | nothing | refused | fulfilled => exact Or.inl rfl
  | challenges | signs | presents => exact Or.inr ⟨rfl, rfl⟩

/-! ### All attempts -/

theorem started_foldl_bump (exits : List Exit) (c : Counters) : (exits.foldl Counters.bump c).started = c.started := by
  induction exits generalizing c with
  | nil => rfl
  | cons exit rest ih =>
    rw [List.foldl_cons, ih]
    cases exit <;> rfl

def Counters.ended (c : Counters) : ℕ := c.settled + c.blocked + c.failed

theorem ended_foldl_bump (exits : List Exit) (c : Counters) :
    (exits.foldl Counters.bump c).ended = c.ended + exits.length := by
  induction exits generalizing c with
  | nil => rfl
  | cons exit rest ih =>
    have hbump : (c.bump exit).ended = c.ended + 1 := by
      unfold Counters.ended
      cases exit <;> simp only [Counters.bump] <;> omega
    rw [List.foldl_cons, ih, hbump, List.length_cons]
    omega

def Counters.of (c : Counters) : Exit → ℕ
  | .settled => c.settled
  | .blocked => c.blocked
  | .failed => c.failed

theorem of_foldl_bump (exits : List Exit) (c : Counters) (exit : Exit) :
    (exits.foldl Counters.bump c).of exit = c.of exit + exits.count exit := by
  induction exits generalizing c with
  | nil => rfl
  | cons first rest ih =>
    have hbump : (c.bump first).of exit = c.of exit + if first == exit then 1 else 0 := by
      cases first <;> cases exit <;> rfl
    rw [List.foldl_cons, ih, hbump, List.count_cons]
    omega

theorem sum_map_set (f : Attempt → ℕ) (b : Attempt) :
    ∀ {l : List Attempt} {i : ℕ}, l[i]? = some a → ((l.set i b).map f).sum + f a = (l.map f).sum + f b
  | [], _, h => by cases h
  | c :: l, 0, h => by
    obtain rfl := Option.some.inj h
    simp only [List.set_cons_zero, List.map_cons, List.sum_cons]
    omega
  | c :: l, i + 1, h => by
    have hrest : ((l.set i b).map f).sum + f a = (l.map f).sum + f b := sum_map_set f b h
    simp only [List.set_cons_succ, List.map_cons, List.sum_cons]
    omega

/-- The account that the attempts keep, with what holds of each of them on the way. -/
structure Attempts.Kept (s : Attempts) : Prop where
  total : s.stats.started = s.stats.ended + s.attempts.countP Attempt.inFlight
  fine : ∀ a ∈ s.attempts, a.Fine
  sound : ∀ a ∈ s.attempts, a.Sound

theorem accounts_iff_fine : Accounts s ↔
    s.stats.started = s.stats.ended + s.attempts.countP Attempt.inFlight ∧ ∀ a ∈ s.attempts, a.Fine :=
  ⟨fun h => ⟨h.total, fun a ha => ⟨h.once a ha, h.blocked a ha⟩⟩,
    fun h => ⟨h.1, fun a ha => (h.2 a ha).once, fun a ha => (h.2 a ha).blocked⟩⟩

/-- A step of an attempt. -/
theorem resume_cases {i : ℕ} (h : attemptStep agent s (.resume i event) = some t) :
    ∃ a segment, s.attempts[i]? = some a ∧ a.segment agent event = some segment ∧
      t = ⟨segment.exits.foldl Counters.bump s.stats, s.attempts.set i (a.after segment)⟩ := by
  unfold attemptStep at h
  dsimp only at h
  cases ha : s.attempts[i]? with
  | none =>
    rw [ha] at h
    cases h
  | some a =>
    rw [ha] at h
    obtain ⟨segment, hsegment, rfl⟩ := Option.map_eq_some_iff.mp h
    exact ⟨a, segment, rfl, hsegment, rfl⟩

/-- One attempt fewer is in flight, if it ended. -/
theorem countP_set {l : List Attempt} {i : ℕ} (hi : l[i]? = some a) (ha : a.inFlight = true) (b : Attempt) :
    (l.set i b).countP Attempt.inFlight + 1 = l.countP Attempt.inFlight + if b.inFlight then 1 else 0 := by
  obtain ⟨hlt, hget⟩ := List.getElem?_eq_some_iff.mp hi
  have hpos : 0 < l.countP Attempt.inFlight := List.countP_pos_iff.mpr ⟨a, List.mem_of_getElem? hi, ha⟩
  rw [List.countP_set hlt, hget, if_pos ha]
  omega

/-- **A counter holds what the attempts counted**, on every run. -/
theorem stats_eq_counted {moves : List Move} (h : Runs.run (attemptStep agent) .initial moves = some t) (exit : Exit) :
    t.stats.of exit = (t.attempts.map fun a => a.counted.count exit).sum := by
  refine Runs.run_invariant (P := fun s => s.stats.of exit = (s.attempts.map fun a => a.counted.count exit).sum)
    (fun s move t hs hstep => ?_) ?_ h
  · cases move with
    | begin publisherId query fraudMode =>
      obtain rfl := Option.some.inj hstep
      unfold Attempts.begin
      split_ifs
      · rw [List.map_append, List.sum_append, ← hs]
        cases exit <;> rfl
      · rw [List.map_append, List.sum_append, ← hs]
        cases exit <;> rfl
    | resume i event =>
      obtain ⟨a, segment, ha, hsegment, rfl⟩ := resume_cases hstep
      have hset := sum_map_set (fun a => a.counted.count exit) (a.after segment) ha
      rw [counted_after, List.count_append] at hset
      rw [of_foldl_bump]
      dsimp only
      omega
  · cases exit <;> rfl

theorem kept_begin (hs : s.Kept) {publisherId query : Option (List Char)} (fraudMode : Option FraudMode)
    (h : configured publisherId query = true) : (s.begin publisherId query fraudMode).Kept := by
  rw [Attempts.begin, if_pos h]
  refine ⟨?_, fun a ha => ?_, fun a ha => ?_⟩
  · have htotal := hs.total
    unfold Counters.ended at htotal ⊢
    rw [List.countP_append]
    simp only [List.countP_cons, List.countP_nil, Attempt.inFlight, if_true]
    omega
  · rcases List.mem_append.mp ha with hold | hnew
    · exact hs.fine a hold
    · rw [List.mem_singleton.mp hnew]
      exact ⟨nofun, nofun⟩
  · rcases List.mem_append.mp ha with hold | hnew
    · exact hs.sound a hold
    · rw [List.mem_singleton.mp hnew]
      exact ⟨fun _ => rfl, nofun⟩

theorem kept_resume (hs : s.Kept) {i : ℕ} (h : attemptStep agent s (.resume i event) = some t)
    (hmeets : s.Meets agent (.resume i event)) : t.Kept := by
  obtain ⟨a, segment, ha, hsegment, rfl⟩ := resume_cases h
  have hmem : a ∈ s.attempts := List.mem_of_getElem? ha
  have hfine : (a.after segment).Fine := (fine_after_iff (hs.sound a hmem) hsegment).mpr (hmeets a ha)
  have hflight := inFlight_of_segment hsegment
  refine ⟨?_, fun b hb => ?_, fun b hb => ?_⟩
  · have hcount := countP_set ha hflight (a.after segment)
    have htotal := hs.total
    rw [started_foldl_bump, ended_foldl_bump]
    dsimp only
    rcases exits_of_segment hsegment with hended | ⟨hnone, hwaits⟩
    · have hexits := hfine.once hended
      rw [counted_after, (hs.sound a hmem).fresh hflight, List.nil_append] at hexits
      rw [hended] at hcount
      simp only [Bool.false_eq_true, if_false] at hcount
      omega
    · rw [hwaits, if_pos rfl] at hcount
      rw [hnone, List.length_nil]
      omega
  · rcases List.mem_or_eq_of_mem_set hb with hold | rfl
    · exact hs.fine b hold
    · exact hfine
  · rcases List.mem_or_eq_of_mem_set hb with hold | rfl
    · exact hs.sound b hold
    · exact sound_after (hs.sound a hmem) hsegment

theorem Attempts.Kept.accounts (hs : s.Kept) : Accounts s := accounts_iff_fine.mpr ⟨hs.total, hs.fine⟩

/-- The step that the account survives is one of those that are allowed. -/
theorem meets_of_accounts (hs : s.Kept) {move : Move} (h : attemptStep agent s move = some t) (ht : Accounts t) :
    s.Meets agent move := by
  cases move with
  | begin publisherId query fraudMode =>
    obtain rfl := Option.some.inj h
    unfold Attempts.Meets
    by_contra hmissing
    -- a call without a publisher or a query is counted where it ends, and not where it starts
    have htotal := hs.total
    have hended := ht.total
    rw [Attempts.begin, if_neg hmissing] at hended
    unfold Counters.ended at htotal
    rw [List.countP_append] at hended
    simp only [Counters.bump, List.countP_cons, List.countP_nil, Attempt.inFlight, Bool.false_eq_true,
      if_false] at hended
    omega
  | resume i event =>
    obtain ⟨a, segment, ha, hsegment, rfl⟩ := resume_cases h
    intro b hb
    obtain rfl := Option.some.inj (ha.symm.trans hb)
    obtain ⟨hlt, -⟩ := List.getElem?_eq_some_iff.mp ha
    have hfine := (accounts_iff_fine.mp ht).2 _ (List.mem_set hlt (a.after segment))
    exact (fine_after_iff (hs.sound a (List.mem_of_getElem? ha)) hsegment).mp hfine

theorem kept_initial : Attempts.initial.Kept where
  total := rfl
  fine a ha := by cases ha
  sound a ha := by cases ha

/-- **The counters account for every attempt exactly** if each call has a publisher and a query, nothing fails on the
way to a tampered purchase, and what comes back can be written down. -/
theorem accounts_iff (agent : Agent) {moves : List Move}
    (h : Runs.run (attemptStep agent) .initial moves = some t) :
    Runs.Always (attemptStep agent) Accounts .initial moves ↔
      Runs.Each (attemptStep agent) (Attempts.Meets agent) .initial moves := by
  refine Runs.always_iff (R := fun _ _ => True) (fun _ hs => hs.accounts) ?_
    (fun s move t hs hstep ht => meets_of_accounts hs hstep ht) kept_initial (Runs.each_true _ _) h
  intro s move t hs _ hmeets hstep
  cases move with
  | begin publisherId query fraudMode =>
    obtain rfl := Option.some.inj hstep
    exact kept_begin hs fraudMode hmeets
  | resume i event => exact kept_resume hs hstep hmeets

end Account

/-! ## A search that is lost -/

namespace Unreached

/-- A platform that cannot be read. -/
def agent : Agent := ⟨fun _ => none, fun _ => none⟩

def moves : List Move :=
  [.begin (some "pub_1".toList) (some "lamp".toList) (some .forged_signature), .resume 0 (.replied .lost)]

def final : Attempts := ⟨⟨1, 0, 1, 0⟩, [⟨some .forged_signature, .finished, none, false, [.blocked]⟩]⟩

theorem run_moves : Runs.run (attemptStep agent) .initial moves = some final := rfl

theorem accounts_iff_sample : Runs.Always (attemptStep agent) Accounts .initial moves ↔
    Runs.Each (attemptStep agent) (Attempts.Meets agent) .initial moves :=
  accounts_iff agent run_moves

/-- **An attempt that presents nothing is counted as blocked.** -/
theorem lost_blocked : ¬Runs.Always (attemptStep agent) Accounts .initial moves := by
  intro h
  have haccounts := h moves final (List.prefix_refl _) run_moves
  obtain ⟨mode, assertion, nowMs, -, hpresented, -⟩ := haccounts.blocked _ List.mem_cons_self List.mem_cons_self
  cases hpresented

end Unreached

end Simulator
