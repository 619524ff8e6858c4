import AgenticAttribution.Gateway.Handler
import AgenticAttribution.Lib.BigInt
import AgenticAttribution.Lib.Run

/-!
# Gateway.KeyCache — the verification key across requests

The calls of `handle` in one isolate share `cachedKey` and `cachedKeyMaterial`.  A call is suspended while it reads
its body, while its key is imported and while it verifies; what it does between two suspensions is one step, so any
interleaving of calls is a run.  Whatever the order, and whenever `resetKeyCache` is called, a call ends the way
`handle` does alone with the key of its own environment (`kept_run`).
-/

namespace Gateway
namespace KeyCache

open Types Attribution Digits

/-- The environment that a request comes with, the key not imported. -/
abbrev Env := GatewayEnv (List Char)

def ED25519_PUBLIC_KEY_BYTES : ℕ := 32

/-- What the verifier needs of the platform. -/
structure Platform (E : Ed25519) where
  rt : Runtime
  /-- `crypto.subtle.importKey`, with the wording of what it rejects. -/
  importKey : Bytes → Except (List Char) E.PublicKey
  /-- The wording of what `atob` throws. -/
  invalidCharacter : List Char

section Functions

variable {E : Ed25519} (p : Platform E)

/-- `importVerificationKey`. -/
def importVerificationKey (base64Key : List Char) : Except (List Char) E.PublicKey :=
  match Base64.forgiving (Base64.symsOfText (BigInt.trim base64Key)) with
  | none => .error p.invalidCharacter
  | some raw =>
    if raw.length ≠ ED25519_PUBLIC_KEY_BYTES then
      .error ("public key holds ".toList ++ natChars raw.length ++ " bytes, expected ".toList ++
        natChars ED25519_PUBLIC_KEY_BYTES)
    else p.importKey raw

/-- The environment once its key is there. -/
def keyed (env : Env) (key : E.PublicKey) : GatewayEnv E.PublicKey := { env with key }

/-- What `handle` comes to, up to its key. -/
inductive Prepared where
  | done (outcome : Outcome)
  | presents (assertion : Json) (body : List Char)

/-- `handle` on a purchase with both headers, up to its key. -/
def prepareAssertion (env : Env) (header body : List Char) : Prepared :=
  match p.rt.decodeHeaderJson header with
  | none =>
    .done (reject env 400 unknownPublisher (.str []) "malformed_headers".toList
      "assertion header is not base64 JSON".toList)
  | some assertion => .presents assertion body

/-- `handle` on a purchase, up to its key. -/
def preparePurchase (env : Env) (r : HttpRequest) (body : List Char) : Prepared :=
  if presented r.payment = [] then .done (.proxy .merchant body)
  else if presented r.assertion = [] then
    .done (reject env 400 unknownPublisher (.str []) "assertion_missing".toList
      "payment supplied without an assertion".toList)
  else prepareAssertion p env (presented r.assertion) body

/-- `handle`, up to its key. -/
def prepare (env : Env) (r : HttpRequest) : Prepared :=
  if r.method = "GET" ∧ r.path = ROUTE.Health then
    .done (.answer ⟨200, Json.ofProps [("status", some (.str "ok".toList))]⟩ none)
  else if r.method ≠ "POST" then .done (.answer (fault 405 "method not allowed".toList) none)
  else
    match readBoundedText p.rt r with
    | none => .done (.answer (refuse 413 "request body exceeds 262144 bytes".toList "body_too_large".toList) none)
    | some body =>
      if r.path = ROUTE.Search then .done (.proxy .search body)
      else if r.path ≠ ROUTE.Purchase then .done (.answer (fault 404 "not found".toList) none)
      else preparePurchase p env r body

/-- `handle`, behind its key. -/
def conclude (env : Env) (key : E.PublicKey) (assertion : Json) (body : List Char) (nowMs : ℤ) : Outcome :=
  match verifyAssertion E key p.rt.otherDate (.ofJson assertion) nowMs with
  | .ok () => .proxy .merchant body
  | .error (.verification reason message) =>
    reject env 401 (Json.orElse (assertion.prop "publisher_id") unknownPublisher)
      (Json.orDefault (assertion.prop "assertion_id") (.str [])) reason.text.toList message
  | .error .typeError => .throws p.rt.typeError

/-- What becomes of a call that has been prepared, under a key. -/
def Prepared.outcome (env : Env) (key : E.PublicKey) (nowMs : ℤ) : Prepared → Outcome
  | done outcome => outcome
  | presents assertion body => conclude p env key assertion body nowMs

theorem handlePurchase_eq (env : Env) (key : E.PublicKey) (r : HttpRequest) (body : List Char) (nowMs : ℤ) :
    handlePurchase (keyed env key) p.rt r body nowMs = (preparePurchase p env r body).outcome p env key nowMs := by
  unfold handlePurchase preparePurchase
  split_ifs
  · rfl
  · rfl
  · unfold handleAssertion prepareAssertion
    cases p.rt.decodeHeaderJson (presented r.assertion) with
    | none => rfl
    | some assertion => rfl

/-- **`handle` is its two halves**, with a key between them. -/
theorem handle_eq (env : Env) (key : E.PublicKey) (r : HttpRequest) (nowMs : ℤ) :
    handle (keyed env key) p.rt r nowMs = (prepare p env r).outcome p env key nowMs := by
  unfold handle prepare
  cases readBoundedText p.rt r with
  | none =>
    dsimp only
    split_ifs <;> rfl
  | some body =>
    dsimp only
    split_ifs
    · rfl
    · rfl
    · rfl
    · rfl
    · exact handlePurchase_eq p env key r body nowMs

end Functions

/-! ## The isolate -/

/-- How a call came by its key, or why it has none. -/
inductive Keying (E : Ed25519) where
  /-- It has ended before it needed one. -/
  | unneeded
  /-- Its assertion was verified under this key. -/
  | verified (key : E.PublicKey)
  /-- Its import failed: for a reason of the platform's, or else because of the key itself. -/
  | failed (failure : Option (List Char))

/-- Where a call of `handle` is suspended. -/
inductive Pc (E : Ed25519) where
  /-- In `readBoundedText`. -/
  | reading
  /-- In `importVerificationKey`. -/
  | importing (assertion : Json) (body : List Char)
  /-- In `verifyAssertion`, under the key. -/
  | verifying (key : E.PublicKey) (assertion : Json) (body : List Char)
  /-- It has ended, and how it came by its key. -/
  | ended (keying : Keying E) (outcome : Outcome)

structure Call (E : Ed25519) where
  request : HttpRequest
  env : Env
  nowMs : ℤ
  pc : Pc E

/-- The variables of the module, and the calls. -/
structure Isolate (E : Ed25519) where
  cachedKey : Option E.PublicKey
  cachedKeyMaterial : Option (List Char)
  calls : List (Call E)

def Isolate.init (E : Ed25519) : Isolate E := ⟨none, none, []⟩

inductive Action where
  /-- `handle` is called. -/
  | enter (request : HttpRequest) (env : Env) (nowMs : ℤ)
  /-- The body of a call is there. -/
  | read (call : ℕ)
  /-- The import of a key comes back; the platform may fail it for reasons of its own. -/
  | imported (call : ℕ) (failure : Option (List Char))
  /-- The verification comes back. -/
  | verified (call : ℕ)
  /-- `resetKeyCache`. -/
  | reset

section Steps

variable {E : Ed25519} (p : Platform E)

def Isolate.put (s : Isolate E) (c : ℕ) (call : Call E) (pc : Pc E) : Isolate E :=
  { s with calls := s.calls.set c { call with pc } }

/-- The key in the cache, if it is the one that the environment asks for. -/
def Isolate.hit (s : Isolate E) (env : Env) : Option E.PublicKey :=
  if s.cachedKeyMaterial = some env.key then s.cachedKey else none

/-- Where a call goes when its body is there: through `verificationKey`, if it needs a key. -/
def Isolate.prepared (s : Isolate E) (call : Call E) : Pc E :=
  match prepare p call.env call.request with
  | .done outcome => .ended .unneeded outcome
  | .presents assertion body =>
    match s.hit call.env with
    | some key => .verifying key assertion body
    | none => .importing assertion body

/-- What an import comes to. -/
def importOf (env : Env) : Option (List Char) → Except (List Char) E.PublicKey
  | some failure => .error failure
  | none => importVerificationKey p env.key

/-- One step, from a suspension to the next. -/
def step (s : Isolate E) : Action → Option (Isolate E)
  | .enter request env nowMs => some { s with calls := s.calls ++ [⟨request, env, nowMs, .reading⟩] }
  | .read c => do
    let call ← s.calls[c]?
    match call.pc with
    | .reading => some (s.put c call (s.prepared p call))
    | _ => none
  | .imported c failure => do
    let call ← s.calls[c]?
    match call.pc with
    | .importing assertion body =>
      match importOf p call.env failure with
      | .error message => some (s.put c call (.ended (.failed failure) (.throws message)))
      | .ok key =>
        some ({ s with cachedKey := some key, cachedKeyMaterial := some call.env.key }.put c call
          (.verifying key assertion body))
    | _ => none
  | .verified c => do
    let call ← s.calls[c]?
    match call.pc with
    | .verifying key assertion body =>
      some (s.put c call (.ended (.verified key) (conclude p call.env key assertion body call.nowMs)))
    | _ => none
  | .reset => some { s with cachedKey := none, cachedKeyMaterial := none }

abbrev run (s : Isolate E) (as : List Action) : Option (Isolate E) := Runs.run (step p) s as

end Steps

/-! ## What holds in every state -/

section Kept

variable {E : Ed25519} {p : Platform E} {s t : Isolate E} {c : ℕ} {call : Call E}

/-- A call is where `handle` is on its request, and has no other key than its environment's. -/
def Own (p : Platform E) (call : Call E) : Prop :=
  match call.pc with
  | .reading => True
  | .importing assertion body => prepare p call.env call.request = .presents assertion body
  | .verifying key assertion body =>
    importVerificationKey p call.env.key = .ok key ∧ prepare p call.env call.request = .presents assertion body
  -- an assertion that was verified was verified under the key of its environment
  | .ended (.verified key) outcome =>
    importVerificationKey p call.env.key = .ok key ∧
      outcome = handle (keyed call.env key) p.rt call.request call.nowMs
  -- a call that needs no key comes to the same under any
  | .ended .unneeded outcome =>
    prepare p call.env call.request = .done outcome ∧
      ∀ key : E.PublicKey, outcome = handle (keyed call.env key) p.rt call.request call.nowMs
  -- a call throws what its own import has failed with: the import of its environment's key, unless the platform failed
  | .ended (.failed failure) outcome =>
    (∃ assertion body, prepare p call.env call.request = .presents assertion body) ∧
      ∃ message, importOf p call.env failure = .error message ∧ outcome = .throws message

/-- **Keys are never mixed up.** -/
structure Kept (p : Platform E) (s : Isolate E) : Prop where
  cache : ∀ material, s.cachedKeyMaterial = some material →
    ∃ key, s.cachedKey = some key ∧ importVerificationKey p material = .ok key
  calls : ∀ call ∈ s.calls, Own p call

theorem kept_init : Kept p (Isolate.init E) := by
  refine ⟨?_, ?_⟩
  · intro material h
    cases h
  · intro call h
    cases h

/-- The key that the cache hands out is that of the environment. -/
theorem Kept.hit (h : Kept p s) {env : Env} {key : E.PublicKey} (hhit : s.hit env = some key) :
    importVerificationKey p env.key = .ok key := by
  unfold Isolate.hit at hhit
  split_ifs at hhit with hmaterial
  obtain ⟨cached, hcached, himport⟩ := h.cache _ hmaterial
  obtain rfl := Option.some.inj (hcached.symm.trans hhit)
  exact himport

/-- A call goes on to its next suspension. -/
theorem Kept.put (h : Kept p s) {pc : Pc E} (hcall : Own p { call with pc }) : Kept p (s.put c call pc) := by
  refine ⟨h.cache, fun other hother => ?_⟩
  rcases List.mem_or_eq_of_mem_set hother with hother | rfl
  · exact h.calls other hother
  · exact hcall

theorem own_prepared (h : Kept p s) (call : Call E) : Own p { call with pc := s.prepared p call } := by
  unfold Isolate.prepared
  cases hprepare : prepare p call.env call.request with
  | done outcome =>
    refine ⟨hprepare, fun key => ?_⟩
    rw [handle_eq, hprepare]
    rfl
  | presents assertion body =>
    cases hhit : s.hit call.env with
    | some key => exact ⟨h.hit hhit, hprepare⟩
    | none => exact hprepare

/-- An import that comes back fills the cache with the key of its own material. -/
theorem Kept.fill (h : Kept p s) {material : List Char} {key : E.PublicKey}
    (himport : importVerificationKey p material = .ok key) :
    Kept p { s with cachedKey := some key, cachedKeyMaterial := some material } := by
  refine ⟨fun material' hmaterial => ?_, h.calls⟩
  obtain rfl := Option.some.inj hmaterial
  exact ⟨key, rfl, himport⟩

/-- **Every step keeps the keys apart.** -/
theorem kept_step {a : Action} (h : Kept p s) (hs : step p s a = some t) : Kept p t := by
  cases a with
  | enter request env nowMs =>
    obtain rfl := Option.some.inj hs
    refine ⟨h.cache, fun call hcall => ?_⟩
    rcases List.mem_append.mp hcall with hcall | hcall
    · exact h.calls call hcall
    · obtain rfl := List.mem_singleton.mp hcall
      exact trivial
  | read c =>
    obtain ⟨call, -, hs⟩ := Option.bind_eq_some_iff.mp hs
    split at hs
    · obtain rfl := Option.some.inj hs
      exact h.put (own_prepared h call)
    · cases hs
  | imported c failure =>
    obtain ⟨call, hc, hs⟩ := Option.bind_eq_some_iff.mp hs
    have hown := h.calls call (List.mem_of_getElem? hc)
    split at hs
    swap
    · cases hs
    rename_i assertion body hpc
    rw [Own, hpc] at hown
    cases himport : importOf p call.env failure with
    | error message =>
      rw [himport] at hs
      obtain rfl := Option.some.inj hs
      exact h.put ⟨⟨assertion, body, hown⟩, message, himport, rfl⟩
    | ok key =>
      rw [himport] at hs
      obtain rfl := Option.some.inj hs
      have hkey : importVerificationKey p call.env.key = .ok key := by
        cases failure with
        | none => exact himport
        | some message => cases himport
      exact (h.fill hkey).put ⟨hkey, hown⟩
  | verified c =>
    obtain ⟨call, hc, hs⟩ := Option.bind_eq_some_iff.mp hs
    have hown := h.calls call (List.mem_of_getElem? hc)
    split at hs
    swap
    · cases hs
    rename_i key assertion body hpc
    rw [Own, hpc] at hown
    obtain ⟨hkey, hprepare⟩ := hown
    obtain rfl := Option.some.inj hs
    refine h.put ⟨hkey, ?_⟩
    rw [handle_eq, hprepare]
    rfl
  | reset =>
    obtain rfl := Option.some.inj hs
    refine ⟨fun material hmaterial => ?_, h.calls⟩
    cases hmaterial

/-- A call that the platform has failed is one whose import the run has failed. -/
def Blamed (as : List Action) (s : Isolate E) : Prop :=
  ∀ c call failure outcome, s.calls[c]? = some call → call.pc = .ended (.failed (some failure)) outcome →
    .imported c (some failure) ∈ as

theorem Blamed.put {as : List Action} (h : Blamed as s) {a : Action} {pc : Pc E}
    (hpc : ∀ failure outcome, pc = .ended (.failed (some failure)) outcome → a = .imported c (some failure)) :
    Blamed (as ++ [a]) (s.put c call pc) := by
  intro c' call' failure outcome hcall hended
  rw [Isolate.put, List.getElem?_set] at hcall
  split_ifs at hcall with hc hlt
  · subst hc
    obtain rfl := Option.some.inj hcall
    rw [hpc failure outcome hended]
    simp
  · exact List.mem_append_left _ (h c' call' failure outcome hcall hended)

/-- Nothing of this sort comes out of `read`. -/
theorem prepared_ne_failed {pc : Pc E} (h : s.prepared p call = pc) (failure : List Char) (outcome : Outcome) :
    pc ≠ .ended (.failed (some failure)) outcome := by
  rintro rfl
  unfold Isolate.prepared at h
  split at h
  · cases h
  · split at h <;> cases h

theorem blamed_step {as : List Action} {a : Action} (h : Blamed as s) (hs : step p s a = some t) :
    Blamed (as ++ [a]) t := by
  cases a with
  | enter request env nowMs =>
    obtain rfl := Option.some.inj hs
    intro c call failure outcome hcall hended
    rw [List.getElem?_append] at hcall
    split_ifs at hcall with hlt
    · exact List.mem_append_left _ (h c call failure outcome hcall hended)
    · obtain rfl := List.mem_singleton.mp (List.mem_of_getElem? hcall)
      cases hended
  | read c =>
    obtain ⟨call, -, hs⟩ := Option.bind_eq_some_iff.mp hs
    split at hs
    · obtain rfl := Option.some.inj hs
      exact h.put fun failure outcome hpc => absurd hpc (prepared_ne_failed rfl failure outcome)
    · cases hs
  | imported c failure =>
    obtain ⟨call, -, hs⟩ := Option.bind_eq_some_iff.mp hs
    split at hs
    swap
    · cases hs
    cases himport : importOf p call.env failure with
    | error message =>
      rw [himport] at hs
      obtain rfl := Option.some.inj hs
      refine h.put fun failure' outcome hpc => ?_
      obtain ⟨hkeying, -⟩ := Pc.ended.inj hpc
      rw [Keying.failed.inj hkeying]
    | ok key =>
      rw [himport] at hs
      obtain rfl := Option.some.inj hs
      have hfill : Blamed as { s with cachedKey := some key, cachedKeyMaterial := some call.env.key } := h
      exact hfill.put fun failure' outcome hpc => by cases hpc
  | verified c =>
    obtain ⟨call, -, hs⟩ := Option.bind_eq_some_iff.mp hs
    split at hs
    · obtain rfl := Option.some.inj hs
      exact h.put fun failure outcome hpc => by cases hpc
    · cases hs
  | reset =>
    obtain rfl := Option.some.inj hs
    exact fun c call failure outcome hcall hended => List.mem_append_left _ (h c call failure outcome hcall hended)

theorem blamed_run {as before : List Action} (h : Blamed before s) (hs : run p s as = some t) :
    Blamed (before ++ as) t := by
  induction as generalizing s before with
  | nil =>
    obtain rfl := Option.some.inj hs
    rw [List.append_nil]
    exact h
  | cons a as ih =>
    obtain ⟨u, hu, hs⟩ := Runs.run_cons_eq_some.mp hs
    have htail := ih (blamed_step h hu) hs
    rw [List.append_assoc, List.singleton_append] at htail
    exact htail

/-- **In every interleaving**, a call is verified under the key of its own environment, a call throws for no
other import than its own, and the cache holds the key of its material. -/
theorem kept_run {as : List Action} (h : run p (Isolate.init E) as = some s) : Kept p s ∧ Blamed as s := by
  refine ⟨Runs.run_invariant (fun _ _ _ hk hst => kept_step hk hst) kept_init h, ?_⟩
  have hinit : Blamed [] (Isolate.init E) := by
    intro c call failure outcome hcall
    cases hcall
  exact blamed_run hinit h

end Kept

/-! ## A rotation -/

namespace Rotation

/-- A scheme in which a key is a text that goes into the signature. -/
def scheme : Ed25519 where
  PrivateKey := Bytes
  PublicKey := Bytes
  publicKey sk := sk
  sign sk msg := (sk ++ msg ++ List.replicate 64 0).take 64
  verify pk msg sig := sig == (pk ++ msg ++ List.replicate 64 0).take 64
  length_of_verify := by
    intro pk msg sig h
    rw [eq_of_beq h, List.length_take, List.length_append, List.length_replicate]
    omega
  verify_sign _ _ := beq_self_eq_true _

def platform : Platform scheme where
  rt :=
    { parse := fun text => if text = "\x7b\x7d".toList then some (.obj []) else none
      readText := Utf8.text
      bufferFrom := fun text => (Base64.forgiving (Base64.symsOfText text)).getD []
      otherDate := fun _ => none
      typeError := []
      syntaxError := []
      parse_mark := fun text => if_neg fun h => absurd (List.cons.inj h).1 (by decide)
      readText_mark := text_mark
      bufferFrom_of_forgiving := @getD_forgiving }
  importKey raw := .ok raw
  invalidCharacter := []

/-- The environment with the key `n`. -/
def env (n : UInt8) : Env := ⟨[], Base64.encodeStd (List.replicate 32 n)⟩

/-- A purchase with the assertion `{}`. -/
def request : HttpRequest where
  method := "POST"
  path := ROUTE.Purchase
  contentLength := none
  chunks := []
  assertion := some "e30=".toList
  payment := some "e30=".toList

/-- Two calls across a rotation, whose imports come back in the other order, with the cache emptied between. -/
def actions : List Action :=
  [.enter request (env 1) 0, .read 0, .enter request (env 2) 0, .read 1, .imported 1 none, .reset,
    .imported 0 none, .verified 1, .verified 0]

/-- The key that a call was verified under. -/
def verifiedUnder (call : Call scheme) : Option Bytes :=
  match call.pc with
  | .ended (.verified key) _ => some key
  | _ => none

theorem runs : (run platform (Isolate.init scheme) actions).map (fun s => s.calls.map verifiedUnder)
    = some [some (List.replicate 32 1), some (List.replicate 32 2)] := by decide +kernel

end Rotation

/-- Each of the two calls is verified under its own key. -/
theorem kept_run_sample : ∃ s, run Rotation.platform (Isolate.init Rotation.scheme) Rotation.actions = some s ∧
    s.calls.map Rotation.verifiedUnder = [some (List.replicate 32 1), some (List.replicate 32 2)] ∧
    Kept Rotation.platform s ∧ Blamed Rotation.actions s := by
  obtain ⟨s, hs, hkeys⟩ := Option.map_eq_some_iff.mp Rotation.runs
  exact ⟨s, hs, hkeys, kept_run hs⟩

end KeyCache
end Gateway
