import AgenticAttribution.Ingest.Embedding
import AgenticAttribution.Lib.Run
import AgenticAttribution.Lib.Table

/-!
# Ingest.Pipeline — the requests of a rebuild

The index half of `Pipeline.Run`, with `CreateVersionedIndex`, `FinalizeIndex`, `SwapAlias` and `DeleteIndex` of
`internal/ingest/opensearch.go`.  A system is a cluster and the run that is going on in it, if there is one; one step
is one request, with what came back.  A request that fails may have taken effect or not, and a run may stop between
any two of them.  What comes before the new index (the health of the cluster, the model, the search pipeline,
Postgres) leaves indices and aliases alone and is not among the steps.
-/

namespace Ingest

open Fallible

/-- What names mean to OpenSearch. -/
structure Naming where
  /-- The text is the name of an index, in a path and in a body. -/
  valid : Bytes → Bool
  /-- The path of a `DELETE` addresses the index: by its name, in a list of names, by a pattern. -/
  covers : Bytes → Bytes → Bool
  covers_iff : ∀ {name other}, valid name = true → (covers name other = true ↔ other = name)

structure IndexName (nm : Naming) where
  text : Bytes
  valid : nm.valid text = true
  deriving DecidableEq

/-- An index: the documents that it received, and whether the alias `products` has it. -/
structure Index (nm : Naming) (F : Type) where
  name : IndexName nm
  received : List (ProductDocument F)
  aliased : Bool

/-! ## What the requests do -/

section Cluster

variable {nm : Naming} {F : Type}

/-- `CountDocuments`: a document that comes again replaces the one with its id. -/
def Index.count (i : Index nm F) : ℕ := (i.received.map (·.productID)).dedup.length

/-- `DELETE /path`; the alias loses an index that is deleted. -/
def delete (path : Bytes) (indices : List (Index nm F)) : List (Index nm F) :=
  indices.filter fun i => !nm.covers path i.name.text

/-- A new index. -/
def put (name : IndexName nm) (indices : List (Index nm F)) : List (Index nm F) := indices ++ [⟨name, [], false⟩]

/-- Documents are stored in the index. -/
def store (name : IndexName nm) (docs : List (ProductDocument F)) (indices : List (Index nm F)) :
    List (Index nm F) :=
  Table.update (fun i => decide (i.name = name)) (fun i => { i with received := i.received ++ docs }) indices

/-- The actions of `SwapAlias`, which are carried out at once. -/
def repoint (name : IndexName nm) (old : List (IndexName nm)) (indices : List (Index nm F)) : List (Index nm F) :=
  indices.map fun i =>
    { i with aliased := if i.name = name then true else if i.name ∈ old then false else i.aliased }

/-- What the alias resolves to. -/
def resolved (indices : List (Index nm F)) : List (Index nm F) := indices.filter (·.aliased)

end Cluster

/-! ## A run -/

/-- What a run streams into the index. -/
structure Feed (F : Type) where
  indexedAt : Bytes
  rows : List Row
  /-- `CountProducts`. -/
  expected : ℕ
  /-- The batches that are emitted, and the error that ends them early, if one does. -/
  batches : List (List (ProductDocument F))
  err : Option Err
  streamed : err = none → ∃ n,
    Stream indexedAt BulkBatchSize (fun done batch => .ok (done ++ [batch])) ⟨rows, none⟩ [] = .ok (n, batches)

/-- Where a run is: the request that comes next. -/
inductive Pc (nm : Naming) (F : Type) where
  | drop
  | create
  | bulk (index : IndexName nm) (rest : List (List (ProductDocument F))) (tries : ℕ)
  | settings (index : IndexName nm)
  | refresh (index : IndexName nm)
  | forceMerge (index : IndexName nm)
  | count (index : IndexName nm)
  | readAlias (index : IndexName nm)
  | swap (index : IndexName nm) (current : List (IndexName nm))
  | retire (index : IndexName nm) (rest : List (IndexName nm))

structure Run (nm : Naming) (F : Type) where
  indexName : Bytes
  dropRetired : Bool
  feed : Feed F
  pc : Pc nm F

/-- `"products_v" + opts.IndexVersion`. -/
def versioned (indexVersion : Bytes) : Bytes := Utf8.str "products_v" ++ indexVersion

/-- The cluster and its run; the feeds of the runs so far, and whether one of them has succeeded. -/
structure System (nm : Naming) (F : Type) where
  indices : List (Index nm F)
  run : Option (Run nm F)
  feeds : List (Feed F)
  succeeded : Bool

def System.init {nm : Naming} {F : Type} (indices : List (Index nm F)) : System nm F := ⟨indices, none, [], false⟩

/-- What comes back from a request. -/
inductive Reply where
  | done
  /-- An error; `took` says whether the request took effect. -/
  | failed (err : Err) (took : Bool)

inductive Action (nm : Naming) (F : Type) where
  | start (indexVersion : Bytes) (dropRetired : Bool) (feed : Feed F)
  | reply (r : Reply)
  /-- What `bulkAttempt` made of a bulk request; with an error, the places of the documents that were stored. -/
  | bulked (stored : List ℕ) (err : Option Err)
  /-- The answer that lists the indices of the alias, in any order. -/
  | aliases (current : List (IndexName nm))
  /-- `Run` returns without an error. -/
  | finish
  /-- `Run` fails or is cancelled. -/
  | stop

section Step

variable {nm : Naming} {F : Type} (model : Bytes → List F)

/-- The run goes on, or is over. -/
def System.goto (sys : System nm F) (run : Run nm F) (pc : Option (Pc nm F)) : System nm F :=
  { sys with run := pc.map fun pc => { run with pc } }

/-- Behind a request: its effect, and where the run goes from an answer or from an error. -/
def System.after (sys : System nm F) (run : Run nm F) (effect : List (Index nm F) → List (Index nm F))
    (next : Option (Pc nm F)) (tolerated : Err → Option (Pc nm F)) : Reply → System nm F
  | .done => { sys with indices := effect sys.indices }.goto run next
  | .failed err took =>
    { sys with indices := if took then effect sys.indices else sys.indices }.goto run (tolerated err)

/-- Every error ends the run. -/
def fatal (_ : Err) : Option (Pc nm F) := none

/-- After a batch; the stream may end with an error. -/
def Feed.next (feed : Feed F) (index : IndexName nm) (rest : List (List (ProductDocument F))) : Option (Pc nm F) :=
  if rest = [] then if feed.err.isNone then some (.settings index) else none else some (.bulk index rest 1)

/-- A request that cannot be carried out. -/
def System.refused (sys : System nm F) (run : Run nm F) : Reply → Option (System nm F)
  | .done => none
  | .failed _ _ => some (sys.goto run none)

/-- `PUT /name`, which is refused for a name that is no index's or is another's. -/
def System.create (sys : System nm F) (run : Run nm F) (r : Reply) : Option (System nm F) :=
  if h : nm.valid run.indexName = true then
    let index : IndexName nm := ⟨run.indexName, h⟩
    if index ∈ sys.indices.map (·.name) then sys.refused run r
    else some (sys.after run (put index) (run.feed.next index run.feed.batches) fatal r)
  else sys.refused run r

/-- The documents that a bulk request has stored, each with its vector: all of them if it was free of errors. -/
def bulkStored (batch : List (ProductDocument F)) (stored : List ℕ) : Option Err → List (ProductDocument F)
  | none => batch.map (·.embedded model)
  | some _ => stored.filterMap fun i => batch[i]?.map (·.embedded model)

/-- Where a bulk request leaves the run; see `retryUnderPressure`. -/
def Run.afterBulk (run : Run nm F) (index : IndexName nm) (batch : List (ProductDocument F))
    (rest : List (List (ProductDocument F))) (tries : ℕ) : Option Err → Option (Pc nm F)
  | none => run.feed.next index rest
  | some err =>
    if !err.is .bulkRejected || tries = bulkMaxAttempts then none else some (.bulk index (batch :: rest) (tries + 1))

/-- The answer of `_count` for the index. -/
def System.counted (sys : System nm F) (index : IndexName nm) : Option ℕ :=
  (sys.indices.find? fun i => decide (i.name = index)).map Index.count

/-- `actual != expected` ends the run. -/
def System.validate (sys : System nm F) (run : Run nm F) (index : IndexName nm) : Option (Pc nm F) :=
  if sys.counted index = some run.feed.expected then some (.readAlias index) else none

/-- The errors that `indicesForAlias` takes for a missing alias. -/
def missingAlias (err : Err) : Bool := contains err.text "alias_not_found" || contains err.text "404"

/-- `SwapAlias`, once the alias is read; every index in the actions has to be there. -/
def System.swap (sys : System nm F) (run : Run nm F) (index : IndexName nm) (current : List (IndexName nm))
    (r : Reply) : Option (System nm F) :=
  let old := current.filter fun name => decide (name ≠ index)
  if ∀ name ∈ index :: old, name ∈ sys.indices.map (·.name) then
    some (sys.after run (repoint index old) (some (.retire index (if run.dropRetired then old else []))) fatal r)
  else sys.refused run r

/-- A request whose answer says no more than that it was carried out. -/
def System.reply (sys : System nm F) (run : Run nm F) (r : Reply) : Option (System nm F) :=
  match run.pc with
  | .drop => some (sys.after run (delete run.indexName) (some .create)
      (fun err => if contains err.text "index_not_found_exception" then some .create else none) r)
  | .create => sys.create run r
  | .bulk _ _ _ => none
  | .settings index => some (sys.after run id (some (.refresh index)) fatal r)
  | .refresh index => some (sys.after run id (some (.forceMerge index)) fatal r)
  | .forceMerge index => some (sys.after run id (some (.count index)) fatal r)
  | .count index => some (sys.after run id (sys.validate run index) fatal r)
  | .readAlias index =>
    match r with
    | .done => none
    | .failed err _ => some (sys.goto run (if missingAlias err then some (.swap index []) else none))
  | .swap index current => sys.swap run index current r
  | .retire _ [] => none
  | .retire index (old :: rest) => some (sys.after run (delete old.text) (some (.retire index rest)) fatal r)

/-- One step of the run. -/
def System.advance (sys : System nm F) (run : Run nm F) : Action nm F → Option (System nm F)
  | .start _ _ _ => none
  | .stop => some (sys.goto run none)
  | .reply r => sys.reply run r
  | .bulked stored err =>
    match run.pc with
    | .bulk index (batch :: rest) tries =>
      some ({ sys with indices := store index (bulkStored model batch stored err) sys.indices }.goto run
        (run.afterBulk index batch rest tries err))
    | _ => none
  | .aliases current =>
    match run.pc with
    | .readAlias index =>
      if current.Perm ((resolved sys.indices).map (·.name)) then some (sys.goto run (some (.swap index current)))
      else none
    | _ => none
  | .finish =>
    match run.pc with
    | .retire _ [] => some { sys with run := none, succeeded := true }
    | _ => none

/-- **One step.**  The runs come one after another. -/
def step (sys : System nm F) (a : Action nm F) : Option (System nm F) :=
  match sys.run with
  | some run => sys.advance model run a
  | none =>
    match a with
    | .start indexVersion dropRetired feed =>
      some { sys with run := some ⟨versioned indexVersion, dropRetired, feed, .drop⟩, feeds := sys.feeds ++ [feed] }
    | _ => none

end Step

end Ingest
