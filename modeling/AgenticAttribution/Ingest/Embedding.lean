import AgenticAttribution.Ingest.Documents
import AgenticAttribution.Lib.Digits
import AgenticAttribution.Lib.Retry
import Mathlib.Data.List.Infix

/-!
# Ingest.Embedding — the bulk phase

`Embed`, `BulkIndex` and `retryUnderPressure` of `internal/ingest/opensearch.go`, and the batches of `Pipeline.Run`.
What the cluster answers to each request is given, together with `encoding/json` on both sides.

`embed_eq_ok` says what `Embed` returns when the model is a function of the text; `bulk_phase_embeds` follows the
vectors through the batches, the groups and the retries into the index.
-/

namespace Ingest

open Fallible

def EmbeddingDimensions : ℕ := 384

def EmbedBatchSize : ℕ := 50

def bulkMaxAttempts : ℕ := 8

/-- `errBulkRejected`. -/
def errBulkRejected : Err := ⟨[.bulkRejected], Utf8.str "rejected under pressure"⟩

/-- An item of a bulk response. -/
structure BulkItem where
  status : ℕ
  error : Bytes

structure BulkResponse where
  errors : Bool
  items : List BulkItem

/-- The two lines of a document in a bulk request. -/
structure BulkLine where
  index : Bytes
  id : Bytes
  source : Bytes

/-- What a run meets: the answers to its requests, which are numbered, and the encoding of its documents. -/
structure Cluster (F : Type) where
  /-- `do` for a prediction by a model. -/
  predict : ℕ → Bytes → List Bytes → Except Err Bytes
  /-- `do` for a bulk request. -/
  bulk : ℕ → List BulkLine → Except Err Bytes
  /-- `ctx.Err()` while the run waits after a request. -/
  cancelled : ℕ → Option Err
  /-- `json.Unmarshal` of predictions: for each text its outputs, and for each output its data. -/
  unmarshalPredictions : Bytes → Except Err (List (List (List F)))
  unmarshalBulk : Bytes → Except Err BulkResponse
  marshal : ProductDocument F → Except Err Bytes

/-- A bulk request, with what came back. -/
structure BulkAttempt where
  body : List BulkLine
  response : Except Err BulkResponse

/-- The attempt was reported free of errors. -/
def BulkAttempt.Free (t : BulkAttempt) : Prop := ∃ r, t.response = .ok r ∧ r.errors = false

/-- The requests that were made: how many, and those that wrote. -/
structure Session where
  requests : ℕ
  attempts : List BulkAttempt

/-- The bytes contain a text. -/
def contains (bs : Bytes) (s : String) : Bool := decide (Utf8.str s <:+: bs)

def rejectedUnderPressure (err : Err) : Bool :=
  contains err.text "returned 429" || contains err.text "circuit_breaking_exception"

def truncate (bs : Bytes) (max : ℕ) : Bytes := if bs.length ≤ max then bs else bs.take max ++ Utf8.str "..."

/-- A number in an error. -/
def number (n : ℕ) : Bytes := Utf8.encode (Digits.natChars n)

section Client

variable {F : Type} (cl : Cluster F)

/-- An error of `do`, marked where it is worth another attempt. -/
def markRejected (err : Err) : Err :=
  if rejectedUnderPressure err then errBulkRejected.annotate (Utf8.str ": " ++ err.text) else err

/-- `retryUnderPressure`. -/
def retryUnderPressure {α : Type} (attempt : Session → Except Err α × Session) (w : Session) : Except Err α × Session :=
  Retry.run (fun err w => if !err.is .bulkRejected then some err else cl.cancelled w.requests) attempt
    (bulkMaxAttempts - 1) w

/-! ## Embedding -/

def predictAttempt (modelID : Bytes) (texts : List Bytes) (w : Session) : Except Err Bytes × Session :=
  ((cl.predict w.requests modelID texts).mapError markRejected, { w with requests := w.requests + 1 })

/-- The first vector of each result; `i` counts the documents. -/
def firstVectors (i : ℕ) : List (List (List F)) → Except Err (List (List F))
  | [] => .ok []
  | [] :: _ => .error (.plain (Utf8.str "document " ++ number i ++ Utf8.str " came back without an embedding"))
  | (data :: _) :: rest =>
    if data.length ≠ EmbeddingDimensions then
      .error (.plain (Utf8.str "document " ++ number i ++ Utf8.str " embedded to " ++ number data.length ++
        Utf8.str " dimensions, mapping expects " ++ number EmbeddingDimensions))
    else do
      let vectors ← firstVectors (i + 1) rest
      return data :: vectors

/-- What `Embed` makes of the answer to a request. -/
def readPredictions (texts : List Bytes) (raw : Bytes) : Except Err (List (List F)) := do
  let results ← (cl.unmarshalPredictions raw).mapError (.wrap (Utf8.str "decode predictions: "))
  if results.length ≠ texts.length then
    .error (.plain (Utf8.str "model returned " ++ number results.length ++ Utf8.str " vectors for " ++
      number texts.length ++ Utf8.str " documents"))
  else firstVectors 0 results

/-- `Embed` of texts that go into one request. -/
def embedGroup (modelID : Bytes) (texts : List Bytes) (w : Session) : Except Err (List (List F)) × Session :=
  match retryUnderPressure cl (predictAttempt cl modelID texts) w with
  | (.error err, w) => (.error (.wrap (Utf8.str "predict embeddings: ") err), w)
  | (.ok raw, w) => (readPredictions cl texts raw, w)

mutual

def Embed (modelID : Bytes) (texts : List Bytes) (w : Session) : Except Err (List (List F)) × Session :=
  if texts = [] then (.ok [], w)
  else if texts.length > EmbedBatchSize then embedGroups modelID texts [] w
  else embedGroup cl modelID texts w
termination_by if texts.length > EmbedBatchSize then texts.length + 1 else 0
decreasing_by
  rename_i h
  rw [if_pos h]
  exact Nat.lt_succ_self _

/-- The loop over the groups, with the texts that are left. -/
def embedGroups (modelID : Bytes) (texts : List Bytes) (vectors : List (List F)) (w : Session) :
    Except Err (List (List F)) × Session :=
  if texts = [] then (.ok vectors, w)
  else
    match Embed modelID (texts.take EmbedBatchSize) w with
    | (.error err, w) => (.error err, w)
    | (.ok group, w) => embedGroups modelID (texts.drop EmbedBatchSize) (vectors ++ group) w
termination_by texts.length
decreasing_by
  · have hshort : ¬(texts.take EmbedBatchSize).length > EmbedBatchSize := by
      rw [List.length_take]
      omega
    rw [if_neg hshort]
    exact List.length_pos_of_ne_nil ‹¬texts = []›
  · have hpos := List.length_pos_of_ne_nil ‹¬texts = []›
    rw [List.length_drop, EmbedBatchSize]
    omega

end

/-! ## The bulk requests -/

/-- `errors.New` for an item that failed, if one did; `i` counts the items. -/
def itemFailure (i : ℕ) : List BulkItem → Err
  | [] => .plain (Utf8.str "bulk reported errors but no item carried a failure status")
  | item :: rest =>
    if item.status = 429 then
      errBulkRejected.annotate (Utf8.str ": item " ++ number i ++ Utf8.str ": " ++ truncate item.error 256)
    else if item.status ≥ 300 then
      .plain (Utf8.str "bulk item " ++ number i ++ Utf8.str " failed with " ++ number item.status ++ Utf8.str ": " ++
        truncate item.error 256)
    else itemFailure (i + 1) rest

/-- What comes back from a bulk request. -/
def bulkResponse (body : List BulkLine) (n : ℕ) : Except Err BulkResponse := do
  let raw ← (cl.bulk n body).mapError markRejected
  (cl.unmarshalBulk raw).mapError (.wrap (Utf8.str "decode bulk response: "))

/-- What `bulkAttempt` returns for it. -/
def bulkOutcome : Except Err BulkResponse → Except Err Unit
  | .error err => .error err
  | .ok result => if !result.errors then .ok () else .error (itemFailure 0 result.items)

def bulkAttempt (body : List BulkLine) (w : Session) : Except Err Unit × Session :=
  let response := bulkResponse cl body w.requests
  (bulkOutcome response, { requests := w.requests + 1, attempts := w.attempts ++ [⟨body, response⟩] })

/-- The body of a bulk request.  `%q` writes a text as JSON has it, or as nothing that JSON allows. -/
def bulkBody (index : Bytes) : List (ProductDocument F) → Except Err (List BulkLine)
  | [] => .ok []
  | doc :: docs => do
    let source ← (cl.marshal doc).mapError (.wrap (Utf8.str "marshal " ++ doc.productID ++ Utf8.str ": "))
    let lines ← bulkBody index docs
    return ⟨index, doc.productID, source⟩ :: lines

def BulkIndex (index : Bytes) (docs : List (ProductDocument F)) (w : Session) : Except Err Unit × Session :=
  if docs = [] then (.ok (), w)
  else
    match bulkBody cl index docs with
    | .error err => (.error err, w)
    | .ok body => retryUnderPressure cl (bulkAttempt cl body) w

/-! ## A batch of the run -/

/-- `batch[i].Embedding = vectors[i]`; an index out of range is a panic. -/
def assign : List (ProductDocument F) → List (List F) → Option (List (ProductDocument F))
  | [], _ => some []
  | _ :: _, [] => none
  | doc :: docs, vector :: vectors => do
    let docs ← assign docs vectors
    return { doc with embedding := vector } :: docs

/-- The function that `Pipeline.Run` streams the batches into. -/
def emitBatch (modelID index : Bytes) (w : Session) (batch : List (ProductDocument F)) : Except Err Session :=
  match Embed cl modelID (batch.map (·.embeddingSource)) w with
  | (.error err, _) => .error err
  | (.ok vectors, w) =>
    match assign batch vectors with
    | none => .error (.plain (Utf8.str "index out of range"))
    | some batch =>
      match BulkIndex cl index batch w with
      | (.error err, _) => .error err
      | (.ok (), w) => .ok w

end Client

/-! ## The vectors -/

section Vectors

variable {F : Type} {cl : Cluster F} {model : Bytes → List F} {modelID : Bytes} {w w' : Session} {texts : List Bytes}
  {vectors : List (List F)}

/-- Results in the order of the texts, each of which is the model's if it has an output. -/
def InOrder (model : Bytes → List F) (texts : List Bytes) (results : List (List (List F))) : Prop :=
  ∀ (i : ℕ) (text : Bytes) (data : List F) (more : List (List F)),
    texts[i]? = some text → results[i]? = some (data :: more) → data = model text

/-- The model is a function of the text, and answers in the order of the request; it may answer too little. -/
def Cluster.Answers (cl : Cluster F) (modelID : Bytes) (model : Bytes → List F) : Prop :=
  ∀ n texts raw results, cl.predict n modelID texts = .ok raw → cl.unmarshalPredictions raw = .ok results →
    InOrder model texts results

theorem mapError_eq_ok {ε ε' α : Type} {f : ε → ε'} {x : Except ε α} {a : α} : x.mapError f = .ok a ↔ x = .ok a := by
  cases x <;> simp [Except.mapError]

theorem InOrder.tail {text : Bytes} {result : List (List F)} {results : List (List (List F))}
    (h : InOrder model (text :: texts) (result :: results)) : InOrder model texts results :=
  fun i t data more ht hr => h (i + 1) t data more ht hr

theorem firstVectors_eq_ok {results : List (List (List F))} {i : ℕ} (hlen : results.length = texts.length)
    (ho : InOrder model texts results) (h : firstVectors i results = .ok vectors) :
    vectors = texts.map model ∧ ∀ text ∈ texts, (model text).length = EmbeddingDimensions := by
  induction results generalizing texts vectors i with
  | nil =>
    obtain rfl := List.length_eq_zero_iff.mp hlen.symm
    obtain rfl := Except.ok.inj h
    exact ⟨rfl, fun _ ht => by cases ht⟩
  | cons result results ih =>
    obtain ⟨text, texts, rfl⟩ := List.exists_cons_of_length_pos (l := texts) (by
      rw [← hlen]
      exact Nat.succ_pos _)
    cases result with
    | nil => cases h
    | cons data more =>
      rw [firstVectors] at h
      split_ifs at h with hdim
      obtain ⟨rest, hrest, h⟩ := bind_eq_ok.mp h
      obtain rfl := Except.ok.inj h
      obtain ⟨rfl, hdims⟩ := ih (Nat.succ.inj hlen) ho.tail hrest
      have hdata : data = model text := ho 0 text data more rfl rfl
      refine ⟨by rw [hdata, List.map_cons], fun t ht => ?_⟩
      rcases List.mem_cons.mp ht with rfl | ht
      · rw [← hdata]
        exact not_not.mp hdim
      · exact hdims t ht

theorem embedGroup_eq_ok (hm : cl.Answers modelID model) (h : embedGroup cl modelID texts w = (.ok vectors, w')) :
    vectors = texts.map model ∧ (∀ text ∈ texts, (model text).length = EmbeddingDimensions) ∧
      w'.attempts = w.attempts := by
  unfold embedGroup at h
  split at h
  · cases (Prod.mk.inj h).1
  · rename_i raw w₁ hretry
    obtain ⟨hread, rfl⟩ := Prod.mk.inj h
    obtain ⟨w₀, hw₀, hattempt⟩ := Retry.run_eq_ok (P := fun s => s.attempts = w.attempts)
      (fun _ hs => hs) rfl hretry
    obtain ⟨hraw, rfl⟩ := Prod.mk.inj hattempt
    obtain ⟨results, hresults, hread⟩ := bind_eq_ok.mp hread
    split_ifs at hread with hlen
    have ho : InOrder model texts results :=
      hm w₀.requests texts raw results (mapError_eq_ok.mp hraw) (mapError_eq_ok.mp hresults)
    obtain ⟨hvectors, hdims⟩ := firstVectors_eq_ok (not_not.mp hlen) ho hread
    exact ⟨hvectors, hdims, hw₀⟩

theorem embed_of_short (hm : cl.Answers modelID model) (hlen : texts.length ≤ EmbedBatchSize)
    (h : Embed cl modelID texts w = (.ok vectors, w')) :
    vectors = texts.map model ∧ (∀ text ∈ texts, (model text).length = EmbeddingDimensions) ∧
      w'.attempts = w.attempts := by
  rw [Embed] at h
  split_ifs at h with hnil hlong
  · obtain ⟨hvectors, rfl⟩ := Prod.mk.inj h
    obtain rfl := Except.ok.inj hvectors
    rw [hnil]
    exact ⟨rfl, fun _ ht => (by cases ht), rfl⟩
  · omega
  · exact embedGroup_eq_ok hm h

theorem embedGroups_eq_ok (hm : cl.Answers modelID model) (n : ℕ) :
    ∀ {texts : List Bytes} {done vectors : List (List F)}
    {w : Session}, texts.length ≤ n → embedGroups cl modelID texts done w = (.ok vectors, w') →
    vectors = done ++ texts.map model ∧ (∀ text ∈ texts, (model text).length = EmbeddingDimensions) ∧
      w'.attempts = w.attempts := by
  induction n with
  | zero =>
    intro texts done vectors w hn h
    obtain rfl := List.length_eq_zero_iff.mp (Nat.le_zero.mp hn)
    rw [embedGroups, if_pos rfl] at h
    obtain ⟨hvectors, rfl⟩ := Prod.mk.inj h
    obtain rfl := Except.ok.inj hvectors
    exact ⟨(List.append_nil _).symm, fun _ ht => (by cases ht), rfl⟩
  | succ n ih =>
    intro texts done vectors w hn h
    rw [embedGroups] at h
    split_ifs at h with hnil
    · obtain ⟨hvectors, rfl⟩ := Prod.mk.inj h
      obtain rfl := Except.ok.inj hvectors
      rw [hnil]
      exact ⟨(List.append_nil _).symm, fun _ ht => (by cases ht), rfl⟩
    · split at h
      · cases (Prod.mk.inj h).1
      · rename_i group w₁ hgroup
        have hpos := List.length_pos_of_ne_nil hnil
        obtain ⟨rfl, hdims, hwrites⟩ := embed_of_short hm (List.length_take_le _ _) hgroup
        have hrest : (texts.drop EmbedBatchSize).length ≤ n := by
          rw [List.length_drop, EmbedBatchSize]
          omega
        obtain ⟨rfl, hdims', hwrites'⟩ := ih hrest h
        refine ⟨?_, ?_, hwrites'.trans hwrites⟩
        · rw [List.append_assoc, ← List.map_append, List.take_append_drop]
        · intro text ht
          rw [← List.take_append_drop EmbedBatchSize texts] at ht
          exact (List.mem_append.mp ht).elim (hdims text) (hdims' text)

/-- **What `Embed` returns**: the model's vector for each text, in order and of the right dimension. -/
theorem embed_eq_ok (hm : cl.Answers modelID model) (h : Embed cl modelID texts w = (.ok vectors, w')) :
    vectors = texts.map model ∧ (∀ text ∈ texts, (model text).length = EmbeddingDimensions) ∧
      w'.attempts = w.attempts := by
  by_cases hlen : texts.length ≤ EmbedBatchSize
  · exact embed_of_short hm hlen h
  · have hnil : texts ≠ [] := by
      rintro rfl
      exact hlen (Nat.zero_le _)
    rw [Embed, if_neg hnil, if_pos (Nat.lt_of_not_le hlen)] at h
    exact embedGroups_eq_ok hm _ (Nat.le_refl _) h

end Vectors

/-! ## The index -/

section Index

variable {F : Type} {cl : Cluster F} {model : Bytes → List F} {modelID index indexedAt : Bytes} {w w' : Session}
  {docs docs' batch : List (ProductDocument F)} {tried tried' : List BulkAttempt}

/-- The line writes the document into the index. -/
def Carries (cl : Cluster F) (index : Bytes) (d : ProductDocument F) (line : BulkLine) : Prop :=
  line.index = index ∧ line.id = d.productID ∧ cl.marshal d = .ok line.source

/-- A document with its own vector. -/
def ProductDocument.embedded (model : Bytes → List F) (d : ProductDocument F) : ProductDocument F :=
  { d with embedding := model d.embeddingSource }

theorem bulkBody_eq_ok {body : List BulkLine} (h : bulkBody cl index docs = .ok body) :
    List.Forall₂ (Carries cl index) docs body := by
  induction docs generalizing body with
  | nil =>
    obtain rfl := Except.ok.inj h
    exact .nil
  | cons d docs ih =>
    obtain ⟨source, hsource, h⟩ := bind_eq_ok.mp h
    obtain ⟨lines, hlines, h⟩ := bind_eq_ok.mp h
    obtain rfl := Except.ok.inj h
    exact .cons ⟨rfl, rfl, mapError_eq_ok.mp hsource⟩ (ih hlines)

/-- Attempts with one body, of which one was free of errors. -/
structure Accepts (body : List BulkLine) (tried : List BulkAttempt) : Prop where
  bodies : ∀ t ∈ tried, t.body = body
  free : ∃ t ∈ tried, t.Free

theorem free_of_outcome {body : List BulkLine} {response : Except Err BulkResponse}
    (h : bulkOutcome response = .ok ()) : (⟨body, response⟩ : BulkAttempt).Free := by
  unfold bulkOutcome at h
  split at h
  · cases h
  · rename_i result
    split_ifs at h with herrors
    exact ⟨result, rfl, by simpa using herrors⟩

/-- The attempts since `before` had one body. -/
def Tries (before : Session) (body : List BulkLine) (tried : List BulkAttempt) (s : Session) : Prop :=
  s.attempts = before.attempts ++ tried ∧ ∀ t ∈ tried, t.body = body

theorem tries_bulkAttempt {body : List BulkLine} {s : Session} (h : Tries w body tried s) :
    Tries w body (tried ++ [⟨body, bulkResponse cl body s.requests⟩]) (bulkAttempt cl body s).2 := by
  refine ⟨?_, fun t ht => ?_⟩
  · rw [← List.append_assoc, ← h.1]
    rfl
  · rcases List.mem_append.mp ht with ht | ht
    · exact h.2 t ht
    · rw [List.mem_singleton.mp ht]

theorem bulkIndex_eq_ok (hne : docs ≠ []) (h : BulkIndex cl index docs w = (.ok (), w')) :
    ∃ body tried, List.Forall₂ (Carries cl index) docs body ∧ w'.attempts = w.attempts ++ tried ∧
      Accepts body tried := by
  rw [BulkIndex, if_neg hne] at h
  split at h
  · cases (Prod.mk.inj h).1
  · rename_i body hbody
    obtain ⟨s, ⟨tried, hs⟩, hattempt⟩ := Retry.run_eq_ok (P := fun s => ∃ tried, Tries w body tried s)
      (fun s hs => by
        obtain ⟨tried, hs⟩ := hs
        exact ⟨_, tries_bulkAttempt hs⟩)
      ⟨[], (List.append_nil _).symm, fun _ ht => by cases ht⟩ h
    have htries : Tries w body (tried ++ [⟨body, bulkResponse cl body s.requests⟩]) (bulkAttempt cl body s).2 :=
      tries_bulkAttempt hs
    obtain ⟨hlog, hbodies⟩ := htries
    obtain ⟨houtcome, rfl⟩ := Prod.mk.inj hattempt
    exact ⟨body, _, bulkBody_eq_ok hbody, hlog, hbodies, _, List.mem_append_right _ (List.mem_singleton_self _),
      free_of_outcome houtcome⟩

theorem assign_map (model : Bytes → List F) (batch : List (ProductDocument F)) :
    assign batch ((batch.map (·.embeddingSource)).map model) = some (batch.map (·.embedded model)) := by
  induction batch with
  | nil => rfl
  | cons d batch ih =>
    simp only [List.map_cons, assign, ih]
    rfl

/-- Documents that were written, each with its own vector, and nothing else that was. -/
structure Written (cl : Cluster F) (model : Bytes → List F) (index : Bytes) (docs : List (ProductDocument F))
    (tried : List BulkAttempt) : Prop where
  dimensions : ∀ d ∈ docs, (model d.embeddingSource).length = EmbeddingDimensions
  accepted : ∀ d ∈ docs, ∃ t ∈ tried, t.Free ∧ ∃ line ∈ t.body, Carries cl index (d.embedded model) line
  only : ∀ t ∈ tried, ∀ line ∈ t.body, ∃ d ∈ docs, Carries cl index (d.embedded model) line

theorem written_nil (cl : Cluster F) (model : Bytes → List F) (index : Bytes) : Written cl model index [] [] :=
  ⟨fun _ hd => (by cases hd), fun _ hd => (by cases hd), fun _ ht => (by cases ht)⟩

theorem Written.append (h : Written cl model index docs tried) (h' : Written cl model index docs' tried') :
    Written cl model index (docs ++ docs') (tried ++ tried') where
  dimensions d hd := (List.mem_append.mp hd).elim (h.dimensions d) (h'.dimensions d)
  accepted d hd := by
    rcases List.mem_append.mp hd with hd | hd
    · obtain ⟨t, ht, hfree⟩ := h.accepted d hd
      exact ⟨t, List.mem_append_left _ ht, hfree⟩
    · obtain ⟨t, ht, hfree⟩ := h'.accepted d hd
      exact ⟨t, List.mem_append_right _ ht, hfree⟩
  only t ht line hline := by
    rcases List.mem_append.mp ht with ht | ht
    · obtain ⟨d, hd, hcarries⟩ := h.only t ht line hline
      exact ⟨d, List.mem_append_left _ hd, hcarries⟩
    · obtain ⟨d, hd, hcarries⟩ := h'.only t ht line hline
      exact ⟨d, List.mem_append_right _ hd, hcarries⟩

theorem exists_of_forall₂ {α β : Type} {R : α → β → Prop} {as : List α} {bs : List β} (h : List.Forall₂ R as bs) {a : α}
    (ha : a ∈ as) : ∃ b ∈ bs, R a b := by
  induction h with
  | nil => cases ha
  | @cons a' b as bs hab _ ih =>
    rcases List.mem_cons.mp ha with rfl | ha
    · exact ⟨b, List.mem_cons_self, hab⟩
    · obtain ⟨b', hb', hr⟩ := ih ha
      exact ⟨b', List.mem_cons_of_mem _ hb', hr⟩

theorem written_of_accepts {body : List BulkLine}
    (hdims : ∀ d ∈ batch, (model d.embeddingSource).length = EmbeddingDimensions)
    (hbody : List.Forall₂ (Carries cl index) (batch.map (·.embedded model)) body) (ha : Accepts body tried) :
    Written cl model index batch tried := by
  have hlines : List.Forall₂ (fun d line => Carries cl index (d.embedded model) line) batch body :=
    List.forall₂_map_left_iff.mp hbody
  refine ⟨hdims, fun d hd => ?_, fun t ht line hline => ?_⟩
  · obtain ⟨t, ht, hfree⟩ := ha.free
    obtain ⟨line, hline, hcarries⟩ := exists_of_forall₂ hlines hd
    exact ⟨t, ht, hfree, line, ha.bodies t ht ▸ hline, hcarries⟩
  · rw [ha.bodies t ht] at hline
    exact exists_of_forall₂ hlines.flip hline

/-- A batch is written, each document with its own vector. -/
theorem emitBatch_eq_ok (hm : cl.Answers modelID model) (hne : batch ≠ [])
    (h : emitBatch cl modelID index w batch = .ok w') :
    ∃ tried, w'.attempts = w.attempts ++ tried ∧ Written cl model index batch tried := by
  unfold emitBatch at h
  split at h
  · cases h
  · rename_i vectors w₁ hembed
    obtain ⟨rfl, hdims, hwrites⟩ := embed_eq_ok hm hembed
    rw [assign_map] at h
    simp only at h
    split at h
    · cases h
    · rename_i w₂ hbulk
      obtain rfl := Except.ok.inj h
      have hne' : batch.map (·.embedded model) ≠ [] := fun he => hne (List.map_eq_nil_iff.mp he)
      obtain ⟨body, tried, hbody, hlog, ha⟩ := bulkIndex_eq_ok hne' hbulk
      refine ⟨tried, by rw [hlog, hwrites], written_of_accepts (fun d hd => ?_) hbody ha⟩
      exact hdims _ (List.mem_map_of_mem hd)

theorem written_of_foldlM (hm : cl.Answers modelID model) {batches : List (List (ProductDocument F))}
    (hsizes : ∀ batch ∈ batches, Batch BulkBatchSize batch)
    (h : batches.foldlM (emitBatch cl modelID index) w = .ok w') :
    ∃ tried, w'.attempts = w.attempts ++ tried ∧ Written cl model index batches.flatten tried := by
  induction batches generalizing w with
  | nil =>
    obtain rfl := foldlM_nil_eq_ok.mp h
    exact ⟨[], (List.append_nil _).symm, written_nil cl model index⟩
  | cons batch batches ih =>
    obtain ⟨w₁, hbatch, h⟩ := foldlM_cons_eq_ok.mp h
    obtain ⟨tried, hlog, hwritten⟩ := emitBatch_eq_ok hm (hsizes batch List.mem_cons_self).1 hbatch
    obtain ⟨tried', hlog', hwritten'⟩ := ih (fun b hb => hsizes b (List.mem_cons_of_mem _ hb)) h
    refine ⟨tried ++ tried', by rw [hlog', hlog, List.append_assoc], ?_⟩
    rw [List.flatten_cons]
    exact hwritten.append hwritten'

/-- **The bulk phase.**  Every product of the catalog has a document, and every document is in the index with the
vector of its own text. -/
theorem bulk_phase_embeds (cl : Cluster F) (modelID index indexedAt : Bytes) (model : Bytes → List F)
    (hm : cl.Answers modelID model) {collation : Collation} {catalog : Settlement.Catalog} {cursor : Cursor}
    (hq : DocumentQuery collation catalog cursor.rows) {n : ℕ}
    (h : Stream indexedAt BulkBatchSize (emitBatch cl modelID index) cursor w = .ok (n, w')) :
    ∃ docs tried, assemble indexedAt cursor.rows = .ok docs ∧ n = docs.length ∧ (docs.map (·.productID)).Nodup ∧
      (∀ l ∈ catalog.listings, ∃ d ∈ docs, d.productID = l.productID) ∧
      w'.attempts = w.attempts ++ tried ∧ Written cl model index docs tried := by
  obtain ⟨-, batches, hdocs, hsizes, heffects, hn⟩ := stream_eq_ok (by decide) h
  obtain ⟨hnodup, -, hcovered⟩ := assembled hq.ordered hdocs
  obtain ⟨tried, hlog, hwritten⟩ := written_of_foldlM hm hsizes heffects
  refine ⟨batches.flatten, tried, hdocs, hn, hnodup, fun l hl => ?_, hlog, hwritten⟩
  obtain ⟨r, hr, rfl⟩ := List.mem_map.mp (hq.listings.mem_iff.mpr hl)
  obtain ⟨d, hd, hid⟩ := hcovered r hr
  exact ⟨d, hd, hid.trans (hq.joined r hr)⟩

end Index

/-! ## A phase that is rejected twice -/

namespace Bulk

def listing : Settlement.ListingRow where
  listingID := Utf8.str "lst_1"
  productID := Utf8.str "prod_1"
  merchantID := Utf8.str "mer_1"
  priceCents := 12999
  currency := Utf8.str "USD"
  inStock := true
  commissionBps := 1200

def secondListing : Settlement.ListingRow :=
  { listing with listingID := Utf8.str "lst_2", productID := Utf8.str "prod_2", priceCents := 2499 }

def catalog : Settlement.Catalog where
  publishers := []
  merchants := [⟨Utf8.str "mer_1"⟩]
  products := [⟨Utf8.str "prod_1"⟩, ⟨Utf8.str "prod_2"⟩]
  listings := [listing, secondListing]
  searchRequests := []
  listings_ok := by decide
  listings_product := by decide
  listings_merchant := by decide
  searchRequests_ok := Settlement.Catalog.empty.searchRequests_ok
  searchRequests_publisher := Settlement.Catalog.empty.searchRequests_publisher

def row : Row :=
  ⟨⟨Utf8.str "prod_1", Utf8.str "Pack", Utf8.str "A pack", Utf8.str "Acme", Utf8.str "packs", .ok []⟩, listing,
    Utf8.str "Pack", Utf8.str "/pack"⟩

def secondRow : Row :=
  ⟨⟨Utf8.str "prod_2", Utf8.str "Lamp", Utf8.str "A camp lamp", Utf8.str "Acme", Utf8.str "lamps", .ok []⟩,
    secondListing, Utf8.str "Lamp", Utf8.str "/lamp"⟩

/-- What the cluster sends for a text. -/
def digest (text : Bytes) : UInt8 := UInt8.ofNat (text.length % 2)

/-- The vector behind it. -/
def vector (b : UInt8) : List Bool := List.replicate EmbeddingDimensions (b == 0)

def model (text : Bytes) : List Bool := vector (digest text)

/-- The first prediction and the first bulk request are rejected. -/
def cluster : Cluster Bool where
  predict n _ texts := if n = 0 then .error (.plain (Utf8.str "POST returned 429")) else .ok (texts.map digest)
  bulk n _ := .ok (if n = 2 then [1] else [])
  cancelled _ := none
  unmarshalPredictions raw := .ok (raw.map fun b => [vector b])
  unmarshalBulk raw := .ok (if raw = [] then ⟨false, []⟩ else ⟨true, [⟨429, []⟩]⟩)
  marshal d := .ok d.productID

theorem predict_eq_ok {n : ℕ} {texts : List Bytes} {raw : Bytes} (h : cluster.predict n [] texts = .ok raw) :
    raw = texts.map digest := by
  simp only [cluster] at h
  split_ifs at h
  exact (Except.ok.inj h).symm

theorem answers : cluster.Answers [] model := by
  intro n texts raw results hraw hresults i text data more ht hr
  obtain rfl := predict_eq_ok hraw
  obtain rfl := Except.ok.inj hresults
  simp only [List.getElem?_map, ht, Option.map_some, Option.some.injEq, List.cons.injEq] at hr
  exact hr.1.symm

def index : Bytes := Utf8.str "products_v1"

def line : BulkLine := ⟨index, Utf8.str "prod_1", Utf8.str "prod_1"⟩

def secondLine : BulkLine := ⟨index, Utf8.str "prod_2", Utf8.str "prod_2"⟩

def body : List BulkLine := [line, secondLine]

/-- The session after the phase. -/
def session : Session := ⟨4, [⟨body, .ok ⟨true, [⟨429, []⟩]⟩⟩, ⟨body, .ok ⟨false, []⟩⟩]⟩

def tooMany : Err := .plain (Utf8.str "POST returned 429")

theorem rejected_tooMany : rejectedUnderPressure tooMany = true := by
  have hcontains : Utf8.str "returned 429" <:+: Utf8.str "POST returned 429" := ⟨Utf8.str "POST ", [], by decide⟩
  exact Bool.or_eq_true_iff.mpr (Or.inl (decide_eq_true hcontains))

theorem retry_predict (texts : List Bytes) :
    retryUnderPressure cluster (predictAttempt cluster [] texts) ⟨0, []⟩ = (.ok (texts.map digest), ⟨2, []⟩) := by
  have hfirst : predictAttempt cluster [] texts ⟨0, []⟩
      = (.error (errBulkRejected.annotate (Utf8.str ": " ++ tooMany.text)), ⟨1, []⟩) := by
    show (Except.error (markRejected tooMany), _) = _
    rw [markRejected, if_pos rejected_tooMany]
  have hsecond : predictAttempt cluster [] texts ⟨1, []⟩ = (.ok (texts.map digest), ⟨2, []⟩) := rfl
  exact (Retry.run_of_again hfirst rfl).trans (Retry.run_of_ok hsecond)

theorem firstVectors_sample (raw : Bytes) (i : ℕ) :
    firstVectors i (raw.map fun b => [vector b]) = .ok (raw.map vector) := by
  induction raw generalizing i with
  | nil => rfl
  | cons b raw ih =>
    have hdim : ¬(vector b).length ≠ EmbeddingDimensions := by
      rw [vector, List.length_replicate]
      exact not_not.mpr rfl
    rw [List.map_cons, firstVectors, if_neg hdim, ih, ok_bind]
    rfl

theorem embed_sample {texts : List Bytes} (hne : texts ≠ []) (hshort : texts.length ≤ EmbedBatchSize) :
    Embed cluster [] texts ⟨0, []⟩ = (.ok (texts.map model), ⟨2, []⟩) := by
  have hread : readPredictions cluster texts (texts.map digest) = .ok (texts.map model) := by
    have hvectors := firstVectors_sample (texts.map digest) 0
    rw [List.map_map, List.map_map] at hvectors
    simp only [readPredictions, cluster, Except.mapError, ok_bind, List.length_map, List.map_map, ne_eq, not_true,
      if_false]
    exact hvectors
  rw [Embed, if_neg hne, if_neg (not_lt.mpr hshort), embedGroup, retry_predict]
  simp only [hread]

def document : ProductDocument Bool := (row.document [] []).add row

def secondDocument : ProductDocument Bool := (secondRow.document [] []).add secondRow

/-- The two documents with their vectors. -/
def embedded : List (ProductDocument Bool) := [document.embedded model, secondDocument.embedded model]

theorem bulkIndex_sample : BulkIndex cluster index embedded ⟨2, []⟩ = (.ok (), session) := by
  have hfirst : bulkAttempt cluster body ⟨2, []⟩
      = (.error (errBulkRejected.annotate (Utf8.str ": item 0: ")), ⟨3, [⟨body, .ok ⟨true, [⟨429, []⟩]⟩⟩]⟩) := rfl
  have hsecond : bulkAttempt cluster body ⟨3, [⟨body, .ok ⟨true, [⟨429, []⟩]⟩⟩]⟩ = (.ok (), session) := rfl
  have hne : embedded ≠ [] := List.cons_ne_nil _ _
  rw [BulkIndex, if_neg hne]
  show retryUnderPressure cluster (bulkAttempt cluster body) ⟨2, []⟩ = _
  exact (Retry.run_of_again hfirst rfl).trans (Retry.run_of_ok hsecond)

theorem emitBatch_sample : emitBatch cluster [] index ⟨0, []⟩ [document, secondDocument] = .ok session := by
  have hassign : assign [document, secondDocument] ([document, secondDocument].map fun d => model d.embeddingSource)
      = some embedded := rfl
  have hembed : Embed cluster [] ([document, secondDocument].map (·.embeddingSource)) ⟨0, []⟩ = _ :=
    embed_sample (List.cons_ne_nil _ _) (by decide)
  rw [emitBatch, hembed]
  simp only [List.map_map, Function.comp_def, hassign, bulkIndex_sample]

theorem closeCurrent_sample (batch : List (ProductDocument Bool)) (d : ProductDocument Bool)
    (hshort : (batch ++ [d]).length < BulkBatchSize) :
    closeCurrent BulkBatchSize (emitBatch cluster [] index) ⟨batch, some d, 0, ⟨0, []⟩⟩
      = .ok ⟨batch ++ [d], none, 0, ⟨0, []⟩⟩ := by
  rw [closeCurrent]
  exact if_neg (not_le.mpr hshort)

theorem stream_sample :
    Stream [] BulkBatchSize (emitBatch cluster [] index) ⟨[row, secondRow], none⟩ ⟨0, []⟩ = .ok (2, session) := by
  have hflush : flush (emitBatch cluster [] index) ⟨[document, secondDocument], none, 0, ⟨0, []⟩⟩
      = .ok ⟨[], none, 2, session⟩ := by
    rw [flush, if_neg (by decide), emitBatch_sample]
    rfl
  have hscan : [row, secondRow].foldlM (scanRow [] BulkBatchSize (emitBatch cluster [] index)) ⟨[], none, 0, ⟨0, []⟩⟩
      = .ok ⟨[document], some secondDocument, 0, ⟨0, []⟩⟩ := by
    have hopen : scanRow [] BulkBatchSize (emitBatch cluster [] index) ⟨[], none, 0, ⟨0, []⟩⟩ row
        = .ok ⟨[], some document, 0, ⟨0, []⟩⟩ := rfl
    have hnew : document.productID ≠ secondRow.product.productID := by decide
    refine foldlM_cons_eq_ok.mpr ⟨_, hopen, foldlM_singleton_eq_ok.mpr ?_⟩
    rw [scanRow]
    dsimp only
    rw [if_neg hnew, closeCurrent_sample [] document (by decide)]
    rfl
  rw [Stream, hscan, ok_bind]
  dsimp only
  rw [closeCurrent_sample [document] secondDocument (by decide), ok_bind]
  simp only [List.singleton_append, hflush, ok_bind]
  rfl

/-- The two texts have different vectors. -/
theorem model_ne : model document.embeddingSource ≠ model secondDocument.embeddingSource := by
  intro h
  have hfirst : (model document.embeddingSource)[0]? = some true := rfl
  have hsecond : (model secondDocument.embeddingSource)[0]? = some false := rfl
  rw [h, hsecond] at hfirst
  cases hfirst

end Bulk

/-- Both products have a document in the index, each with the vector of its own text. -/
theorem bulk_phase_embeds_sample :
    Bulk.model Bulk.document.embeddingSource ≠ Bulk.model Bulk.secondDocument.embeddingSource ∧ ∃ docs tried,
      Bulk.session.attempts = tried ∧ Written Bulk.cluster Bulk.model Bulk.index docs tried ∧
        (∃ d ∈ docs, d.productID = Utf8.str "prod_1") ∧ ∃ d ∈ docs, d.productID = Utf8.str "prod_2" := by
  have hq : DocumentQuery .bytewise Bulk.catalog [Bulk.row, Bulk.secondRow] := by
    refine ⟨.refl _, ?_, List.pairwise_pair.mpr ?_⟩
    · simp only [List.forall_mem_cons]
      exact ⟨rfl, rfl, List.forall_mem_nil _⟩
    · show Bulk.row.product.productID ≤ Bulk.secondRow.product.productID
      decide
  obtain ⟨docs, tried, -, -, -, hcovered, hlog, hwritten⟩ := bulk_phase_embeds Bulk.cluster [] Bulk.index [] Bulk.model
    Bulk.answers hq Bulk.stream_sample
  exact ⟨Bulk.model_ne, docs, tried, hlog, hwritten, hcovered Bulk.listing (by simp [Bulk.catalog]),
    hcovered Bulk.secondListing (by simp [Bulk.catalog])⟩

end Ingest
