import AgenticAttribution.Search.Query

/-!
# Search.ModelLookup — the embedding model of a service

`Service.Search` of `internal/search/service.go` with `embeddingModelID`, over a sequence of calls.  `sync.Once` makes
concurrent calls wait for the first, so calls come in the order in which they get through `Do`.  Each call brings what
the cluster would answer it, to the lookup and to the search; a cancelled context or a cluster out of reach is an
error.  `recovers_iff` says when an early failure does no lasting harm.
-/

namespace Search.ModelLookup

open Attribution

/-! ## The service -/

section Calls

structure Answer where
  status : ℕ
  payload : Bytes

/-- `post`, of what came back. -/
def post : Except Err Answer → Except Err Bytes
  | .error err => .error err
  | .ok answer =>
    if answer.status ≥ 300 then
      .error (GoError.plain (Utf8.str "opensearch returned " ++ Utf8.encode (Digits.natChars answer.status) ++
        Utf8.str ": " ++ answer.payload.take 512))
    else .ok answer.payload

/-- A hit, with what its source decodes to. -/
structure RawHit where
  id : Bytes
  source : Except Err Hit

structure Response where
  took : ℤ
  total : ℤ
  hits : List RawHit

/-- `json.Unmarshal` of the two answers, the first to the ids of the models. -/
structure Decoder where
  models : Bytes → Except Err (List Bytes)
  response : Bytes → Except Err Response

structure Results where
  query : Bytes
  totalHits : ℤ
  tookMillis : ℤ
  products : List Hit

structure Service where
  modelOnce : Bool
  modelID : Bytes
  modelErr : Option Err
  /-- The lookups that were sent. -/
  lookups : ℕ

def NewService : Service := ⟨false, [], none, 0⟩

/-- A call of `Search`, and what the cluster would answer it. -/
structure SearchCall where
  req : Request
  lookup : Except Err Answer
  search : SearchBody → Except Err Answer

variable (dec : Decoder)

/-- The answer to a lookup: the first deployed model. -/
def deployedModel (lookup : Except Err Answer) : Except Err Bytes := do
  let raw ← post lookup
  match ← dec.models raw with
  | [] => .error (.plain (Utf8.str "no deployed embedding model; run the ingest service first"))
  | id :: _ => .ok id

/-- `embeddingModelID`. -/
def Service.embeddingModelID (s : Service) (lookup : Except Err Answer) : (Bytes × Option Err) × Service :=
  let s :=
    if s.modelOnce then s
    else
      let s := { s with modelOnce := true, lookups := s.lookups + 1 }
      match deployedModel dec lookup with
      | .error err => { s with modelErr := some err }
      | .ok id => { s with modelID := id }
  ((s.modelID, s.modelErr), s)

def RawHit.product (hit : RawHit) : Except Err Hit :=
  match hit.source with
  | .error err => .error (.wrap (Utf8.str "decode hit " ++ hit.id ++ Utf8.str ": ") err)
  | .ok p => .ok { p with offers := sortOffers p.offers }

/-- The search itself. -/
def execute (call : SearchCall) (modelID : Bytes) : Except Err Results := do
  let raw ← post (call.search (BuildQuery call.req modelID))
  match dec.response raw with
  | .error err => .error (.wrap (Utf8.str "decode search response: ") err)
  | .ok parsed =>
    let products ← parsed.hits.mapM RawHit.product
    return ⟨call.req.query, parsed.total, parsed.took, products⟩

/-- `Service.Search`. -/
def Service.search (s : Service) (call : SearchCall) : Except Err Results × Service :=
  match s.embeddingModelID dec call.lookup with
  | ((_, some err), s) => (.error (.wrap (Utf8.str "resolve embedding model: ") err), s)
  | ((id, none), s) => (execute dec call id, s)

/-- The service behind the calls. -/
def after (calls : List SearchCall) : Service := calls.foldl (fun s call => (s.search dec call).2) NewService

end Calls

/-! ## What is asked -/

section Spec

variable (dec : Decoder)

/-- The context is live, and the cluster is there and reports a deployed model. -/
def SearchCall.Live (call : SearchCall) : Prop := ∃ id, deployedModel dec call.lookup = .ok id

/-- A call in the state `s` has a model to search with. -/
def Resolves (s : Service) (call : SearchCall) : Prop :=
  ∃ id, s.embeddingModelID dec call.lookup = ((id, none), (s.search dec call).2) ∧
    (s.search dec call).1 = execute dec call id

/-- **Failed lookups pass**: a live call resolves a model, whatever was before it; and none is looked up behind a call
that did. -/
def Recovers (calls : List SearchCall) : Prop :=
  ∀ before call rest, calls = before ++ call :: rest →
    (call.Live dec → Resolves dec (after dec before) call) ∧
    ((∃ before' call' rest', before = before' ++ call' :: rest' ∧ Resolves dec (after dec before') call') →
      ((after dec before).search dec call).2.lookups = (after dec before).lookups)

end Spec

/-! ## The first call decides -/

section First

variable {dec : Decoder} {s : Service} {call first : SearchCall} {calls : List SearchCall}

theorem search_state (s : Service) (call : SearchCall) :
    (s.search dec call).2 = (s.embeddingModelID dec call.lookup).2 := by
  unfold Service.search
  split <;> rename_i h <;> rw [h]

theorem embeddingModelID_done (h : s.modelOnce = true) (lookup : Except Err Answer) :
    s.embeddingModelID dec lookup = ((s.modelID, s.modelErr), s) := by
  simp only [Service.embeddingModelID, h, if_true]

theorem modelOnce_search (s : Service) (call : SearchCall) : (s.search dec call).2.modelOnce = true := by
  rw [search_state]
  unfold Service.embeddingModelID
  dsimp only
  split_ifs with hdone
  · exact hdone
  · split <;> rfl

/-- Once is once: the state stays. -/
theorem search_done (h : s.modelOnce = true) (call : SearchCall) : (s.search dec call).2 = s := by
  rw [search_state, embeddingModelID_done h]

theorem foldl_search (h : s.modelOnce = true) :
    calls.foldl (fun s call => (s.search dec call).2) s = s := by
  induction calls with
  | nil => rfl
  | cons call calls ih => rw [List.foldl_cons, search_done h, ih]

/-- **The first call decides**: it leaves what every call finds. -/
theorem after_cons (first : SearchCall) (calls : List SearchCall) :
    after dec (first :: calls) = (NewService.search dec first).2 := by
  rw [after, List.foldl_cons, foldl_search (modelOnce_search _ _)]

theorem modelErr_first (first : SearchCall) :
    (NewService.search dec first).2.modelErr = none ↔ first.Live dec := by
  rw [search_state]
  unfold Service.embeddingModelID SearchCall.Live
  cases h : deployedModel dec first.lookup with
  | error err => simp [NewService]
  | ok id => simp [NewService]

theorem resolves_iff (s : Service) (call : SearchCall) : Resolves dec s call ↔
    (s.search dec call).2.modelErr = none := by
  have hresult : s.embeddingModelID dec call.lookup =
      (((s.search dec call).2.modelID, (s.search dec call).2.modelErr), (s.search dec call).2) := by
    rw [search_state]
    rfl
  constructor
  · rintro ⟨id, hid, -⟩
    rw [hresult] at hid
    exact (Prod.mk.inj (Prod.mk.inj hid).1).2
  · intro herr
    rw [herr] at hresult
    refine ⟨_, hresult, ?_⟩
    unfold Service.search
    rw [hresult]

theorem resolves_after (calls : List SearchCall) (call : SearchCall) :
    Resolves dec (after dec calls) call ↔ ∃ first, (calls ++ [call]).head? = some first ∧ first.Live dec := by
  rw [resolves_iff]
  cases calls with
  | nil =>
    show (NewService.search dec call).2.modelErr = none ↔ _
    simp [modelErr_first]
  | cons first calls =>
    rw [after_cons, search_done (modelOnce_search _ _), modelErr_first]
    simp

/-- **A failed lookup does no lasting harm exactly if the first call is live whenever any is.** -/
theorem recovers_iff (dec : Decoder) (calls : List SearchCall) : Recovers dec calls ↔
    ((∃ call ∈ calls, call.Live dec) → ∃ first, calls.head? = some first ∧ first.Live dec) := by
  have hhead : ∀ {before rest : List SearchCall} {call}, calls = before ++ call :: rest →
      calls.head? = (before ++ [call]).head? := by
    rintro before rest call rfl
    cases before <;> rfl
  constructor
  · rintro h ⟨call, hcall, hlive⟩
    obtain ⟨before, rest, hsplit⟩ := List.append_of_mem hcall
    rw [hhead hsplit]
    exact (resolves_after before call).mp ((h before call rest hsplit).1 hlive)
  · intro h before call rest hsplit
    constructor
    · intro hlive
      have hmem : call ∈ calls := hsplit ▸ List.mem_append_right _ List.mem_cons_self
      rw [resolves_after, ← hhead hsplit]
      exact h ⟨call, hmem, hlive⟩
    · rintro ⟨before', call', rest', rfl, -⟩
      -- the guard is closed behind the first call
      obtain ⟨first, calls', hcons⟩ := List.exists_cons_of_ne_nil
        (List.append_ne_nil_of_right_ne_nil before' (List.cons_ne_nil call' rest'))
      rw [hcons, after_cons, search_done (modelOnce_search _ _)]

end First

/-! ## A cancelled call -/

namespace Cancelled

/-- Models that are named by the whole answer. -/
def decoder : Decoder := ⟨fun raw => .ok [raw], fun _ => .ok ⟨0, 0, []⟩⟩

def request : Request := ⟨Utf8.str "pack", 0, [], [], [], false, 0⟩

def cancelled : SearchCall where
  req := request
  lookup := .error (.plain (Utf8.str "context canceled"))
  search _ := .error (.plain (Utf8.str "context canceled"))

def live : SearchCall where
  req := request
  lookup := .ok ⟨200, Utf8.str "model_1"⟩
  search _ := .ok ⟨200, []⟩

/-- **One cancelled call, and no search finds its model again.** -/
theorem recovers_not : live.Live decoder ∧ ¬Recovers decoder [cancelled, live] ∧
    (((after decoder [cancelled]).search decoder live).1 =
      .error (.wrap (Utf8.str "resolve embedding model: ") (.plain (Utf8.str "context canceled")))) := by
  have hlive : live.Live decoder := ⟨Utf8.str "model_1", rfl⟩
  refine ⟨hlive, fun h => ?_, rfl⟩
  obtain ⟨first, hfirst, id, hid⟩ := (resolves_after [cancelled] live).mp ((h [cancelled] live [] rfl).1 hlive)
  obtain rfl := Option.some.inj hfirst
  cases hid

end Cancelled

end Search.ModelLookup
