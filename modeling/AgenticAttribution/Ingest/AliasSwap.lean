import AgenticAttribution.Ingest.Pipeline
import AgenticAttribution.Lib.Stringify
import Mathlib.Data.Finset.Basic

/-!
# Ingest.AliasSwap — what `SwapAlias` leaves behind

`SwapAlias` and `indicesForAlias` of `internal/ingest/opensearch.go`, with `do` below them.  The lookup may come back
with any status and any body, or not at all; an error counts as a missing alias if its text says `404` or
`alias_not_found` anywhere.  `swapAlias_repoints_iff` says when the alias ends up at the new index alone.
-/

namespace Ingest

open Fallible Json

/-! ## Requests -/

section Client

structure HttpReply where
  status : ℕ
  body : Bytes

/-- `do`, of what came back from the request. -/
def doReply (method path : String) : Except Err HttpReply → Except Err Bytes
  | .error err => .error err
  | .ok r =>
    if r.status ≥ 300 then
      .error (.plain (Utf8.str method ++ Utf8.str " " ++ Utf8.str path ++ Utf8.str " returned " ++ number r.status ++
        Utf8.str ": " ++ truncate r.body 512))
    else .ok r.body

/-- What Go leaves open: the order in which a map is ranged over, and the error of `json.Unmarshal`. -/
structure Unmarshal where
  range : List Bytes → List Bytes
  perm_range : ∀ names, (range names).Perm names
  error : Bytes → Err

/-- The keys of the `map[string]any` that a value is read into. -/
def mappingKeys : Json → Option (List Bytes)
  | .null => some []
  | .obj members => some (members.map fun m => Utf8.encode m.1).dedup
  | _ => none

/-- The names in a body.  The model takes a number that is beyond a `float64`, for which `json.Unmarshal` is an error;
OpenSearch writes no numbers there. -/
def mappingOf (body : Bytes) : Option (List Bytes) := (parse (Utf8.text body)).bind mappingKeys

variable (go : Unmarshal)

/-- `indicesForAlias`, of the answer to the lookup. -/
def indicesForAlias (lookup : Except Err HttpReply) : Except Err (List Bytes) :=
  match doReply "GET" "/_alias/products" lookup with
  | .error err => if missingAlias err then .ok [] else .error err
  | .ok raw =>
    match mappingOf raw with
    | none => .error (go.error raw)
    | some names => .ok (go.range names)

inductive AliasAction where
  | add (index : Bytes)
  | remove (index : Bytes)

/-- The old indices that are not the new one. -/
def retiredOf (newIndex : Bytes) (current : List Bytes) : List Bytes :=
  current.filter fun old => decide (old ≠ newIndex)

/-- The actions of the swap. -/
def swapActions (newIndex : Bytes) (current : List Bytes) : List AliasAction :=
  .add newIndex :: (retiredOf newIndex current).map .remove

/-- What an action does to the indices of the alias. -/
def AliasAction.apply (indices : Finset Bytes) : AliasAction → Finset Bytes
  | .add index => insert index indices
  | .remove index => indices.erase index

/-- What came back from `POST /_aliases`, and whether the actions were carried out.  They were if it says so. -/
structure Swap where
  answer : Except Err HttpReply
  took : Bool
  took_of_ok : ∀ r, answer = .ok r → r.status < 300 → took = true

/-- `SwapAlias`: what it returns, and the indices of the alias behind it. -/
def SwapAlias (newIndex : Bytes) (lookup : Except Err HttpReply) (swap : Swap) (indices : Finset Bytes) :
    Except Err (List Bytes) × Finset Bytes :=
  match indicesForAlias go lookup with
  | .error err => (.error err, indices)
  | .ok current =>
    let after := if swap.took then (swapActions newIndex current).foldl AliasAction.apply indices else indices
    match doReply "POST" "/_aliases" swap.answer with
    | .error err => (.error (.wrap (Utf8.str "swap alias: ") err), after)
    | .ok _ => (.ok (retiredOf newIndex current), after)

end Client

/-! ## What is asked -/

section Spec

/-- A lookup that succeeds lists the indices of the alias. -/
def Truthful (indices : Finset Bytes) (lookup : Except Err HttpReply) : Prop :=
  ∀ r names, lookup = .ok r → r.status < 300 → mappingOf r.body = some names → names.toFinset = indices

/-- **One target is left**: without an error the new index, with one the indices of before. -/
def Repoints (newIndex : Bytes) (before : Finset Bytes) (out : Except Err (List Bytes) × Finset Bytes) : Prop :=
  match out.1 with
  | .ok retired => out.2 = {newIndex} ∧ retired.Nodup ∧ retired.toFinset = before \ {newIndex}
  | .error _ => out.2 = before

/-- The lookup failed with a text that is taken for a missing alias. -/
def Misread (lookup : Except Err HttpReply) : Prop :=
  ∃ err, doReply "GET" "/_alias/products" lookup = .error err ∧ missingAlias err = true

/-- The lookup listed indices. -/
def Listed (lookup : Except Err HttpReply) : Prop :=
  ∃ r names, lookup = .ok r ∧ r.status < 300 ∧ mappingOf r.body = some names

/-- The swap was reported as carried out. -/
def Swap.Accepted (swap : Swap) : Prop := ∃ r, swap.answer = .ok r ∧ r.status < 300

/-- Where the swap is safe. -/
structure Safe (newIndex : Bytes) (lookup : Except Err HttpReply) (swap : Swap) (before : Finset Bytes) : Prop where
  /-- What is taken for a missing alias is one, or an alias of the new index alone. -/
  misread : Misread lookup → swap.Accepted → before ⊆ {newIndex}
  /-- A swap that took effect is reported, unless it changes nothing. -/
  reported : swap.took = true → ¬swap.Accepted →
    (Misread lookup → newIndex ∈ before) ∧ (Listed lookup → before = {newIndex})

end Spec

/-! ## What comes of it -/

section Swaps

variable {go : Unmarshal} {newIndex : Bytes} {lookup : Except Err HttpReply} {swap : Swap} {before : Finset Bytes}
  {current : List Bytes}

theorem foldl_remove (olds : List Bytes) (indices : Finset Bytes) :
    (olds.map .remove).foldl AliasAction.apply indices = indices \ olds.toFinset := by
  induction olds generalizing indices with
  | nil => simp
  | cons old olds ih =>
    rw [List.map_cons, List.foldl_cons, ih]
    ext index
    simp only [AliasAction.apply, Finset.mem_sdiff, Finset.mem_erase, List.toFinset_cons, Finset.mem_insert]
    tauto

theorem toFinset_retiredOf : (retiredOf newIndex current).toFinset = current.toFinset \ {newIndex} := by
  ext index
  simp [retiredOf]

/-- The actions leave the new index, and what the lookup did not list. -/
theorem foldl_swapActions : (swapActions newIndex current).foldl AliasAction.apply before =
    insert newIndex (before \ current.toFinset) := by
  rw [swapActions, List.foldl_cons, foldl_remove, toFinset_retiredOf]
  ext index
  simp only [AliasAction.apply, Finset.mem_sdiff, Finset.mem_insert, Finset.mem_singleton]
  tauto

theorem doReply_eq_ok {method path : String} {answer : Except Err HttpReply} {raw : Bytes} :
    doReply method path answer = .ok raw ↔ ∃ r, answer = .ok r ∧ r.status < 300 ∧ r.body = raw := by
  cases answer with
  | error err => simp [doReply]
  | ok r =>
    by_cases hstatus : r.status ≥ 300
    · simp [doReply, hstatus]
    · have hlt : r.status < 300 := by omega
      simp [doReply, hstatus, hlt]

theorem Swap.accepted_iff : swap.Accepted ↔ ∃ raw, doReply "POST" "/_aliases" swap.answer = .ok raw := by
  constructor
  · rintro ⟨r, hr, hstatus⟩
    exact ⟨r.body, doReply_eq_ok.mpr ⟨r, hr, hstatus, rfl⟩⟩
  · rintro ⟨raw, hraw⟩
    obtain ⟨r, hr, hstatus, -⟩ := doReply_eq_ok.mp hraw
    exact ⟨r, hr, hstatus⟩

theorem missingAlias_of_infix {err : Err} (h : Utf8.str "404" <:+: err.text) : missingAlias err = true := by
  simp only [missingAlias, contains, Bool.or_eq_true, decide_eq_true_eq]
  exact Or.inr h

theorem nodup_of_mappingOf {body : Bytes} {names : List Bytes} (h : mappingOf body = some names) : names.Nodup := by
  obtain ⟨v, -, hv⟩ := Option.bind_eq_some_iff.mp h
  cases v with
  | null =>
    obtain rfl := Option.some.inj hv
    exact List.nodup_nil
  | obj members =>
    obtain rfl := Option.some.inj hv
    exact List.nodup_dedup _
  | _ => cases hv

/-- **What the lookup comes to**: the indices of the alias, a missing alias, or an error. -/
theorem indicesForAlias_cases (go : Unmarshal) (htruth : Truthful before lookup) :
    (∃ current, indicesForAlias go lookup = .ok current ∧ Listed lookup ∧ ¬Misread lookup ∧ current.Nodup ∧
        current.toFinset = before) ∨
      (indicesForAlias go lookup = .ok [] ∧ Misread lookup ∧ ¬Listed lookup) ∨
      ∃ err, indicesForAlias go lookup = .error err ∧ ¬Misread lookup ∧ ¬Listed lookup := by
  unfold indicesForAlias
  cases hreply : doReply "GET" "/_alias/products" lookup with
  | error err =>
    have hlisted : ¬Listed lookup := by
      rintro ⟨r, names, hr, hstatus, -⟩
      cases hreply.symm.trans (doReply_eq_ok.mpr ⟨r, hr, hstatus, rfl⟩)
    by_cases hmissing : missingAlias err = true
    · exact Or.inr (Or.inl ⟨if_pos hmissing, ⟨err, hreply, hmissing⟩, hlisted⟩)
    · refine Or.inr (Or.inr ⟨err, if_neg hmissing, ?_, hlisted⟩)
      rintro ⟨err', hreply', hmissing'⟩
      obtain rfl := Except.error.inj (hreply.symm.trans hreply')
      exact hmissing hmissing'
  | ok raw =>
    obtain ⟨r, hr, hstatus, rfl⟩ := doReply_eq_ok.mp hreply
    have hread : ¬Misread lookup := by
      rintro ⟨err, herr, -⟩
      cases hreply.symm.trans herr
    cases hnames : mappingOf r.body with
    | none =>
      refine Or.inr (Or.inr ⟨go.error r.body, by simp only [hnames], hread, ?_⟩)
      rintro ⟨r', names, hr', -, hnames'⟩
      obtain rfl := Except.ok.inj (hr.symm.trans hr')
      cases hnames.symm.trans hnames'
    | some names =>
      have hperm := go.perm_range names
      refine Or.inl ⟨go.range names, by simp only [hnames], ⟨r, names, hr, hstatus, hnames⟩, hread,
        hperm.nodup_iff.mpr (nodup_of_mappingOf hnames), ?_⟩
      rw [List.toFinset_eq_of_perm _ _ hperm]
      exact htruth r names hr hstatus hnames

/-- What the two halves of a swap come to, behind a lookup. -/
theorem swapAlias_of_ok (newIndex : Bytes) (swap : Swap) (before : Finset Bytes)
    (h : indicesForAlias go lookup = .ok current) :
    (swap.Accepted → SwapAlias go newIndex lookup swap before =
      (.ok (retiredOf newIndex current), insert newIndex (before \ current.toFinset))) ∧
    (¬swap.Accepted → ∃ err, SwapAlias go newIndex lookup swap before =
      (.error err, if swap.took then insert newIndex (before \ current.toFinset) else before)) := by
  constructor
  · intro haccepted
    obtain ⟨raw, hraw⟩ := Swap.accepted_iff.mp haccepted
    obtain ⟨r, hr, hstatus⟩ := haccepted
    have htook := swap.took_of_ok r hr hstatus
    simp only [SwapAlias, h, hraw, htook, if_true, foldl_swapActions]
  · intro hrefused
    cases hreply : doReply "POST" "/_aliases" swap.answer with
    | ok raw => exact absurd (Swap.accepted_iff.mpr ⟨raw, hreply⟩) hrefused
    | error err =>
      refine ⟨.wrap (Utf8.str "swap alias: ") err, ?_⟩
      simp only [SwapAlias, h, hreply, foldl_swapActions]

/-- Behind an error, what a swap that took effect leaves has to be what was there. -/
theorem repoints_error_iff {err : Err} {after : Finset Bytes} :
    Repoints newIndex before (.error err, if swap.took then after else before) ↔
      (swap.took = true → after = before) := by
  show (if swap.took then after else before) = before ↔ _
  split_ifs with htook
  · exact ⟨fun h _ => h, fun h => h htook⟩
  · exact iff_of_true rfl fun h => absurd h htook

theorem repoints_of_listed (hcurrent : indicesForAlias go lookup = .ok current) (hlisted : Listed lookup)
    (hread : ¬Misread lookup) (hnodup : current.Nodup) :
    Repoints newIndex current.toFinset (SwapAlias go newIndex lookup swap current.toFinset) ↔
      Safe newIndex lookup swap current.toFinset := by
  obtain ⟨hok, hfail⟩ := swapAlias_of_ok newIndex swap current.toFinset hcurrent
  have hafter : insert newIndex (current.toFinset \ current.toFinset) = ({newIndex} : Finset Bytes) := by
    rw [sdiff_self]
    rfl
  rw [hafter] at hok hfail
  by_cases haccepted : swap.Accepted
  · rw [hok haccepted]
    refine iff_of_true ⟨rfl, hnodup.filter _, toFinset_retiredOf⟩ ⟨fun h => absurd h hread, fun _ h => ?_⟩
    exact absurd haccepted h
  · obtain ⟨err, hout⟩ := hfail haccepted
    rw [hout, repoints_error_iff]
    constructor
    · intro hsame
      exact ⟨fun h => absurd h hread, fun htook _ => ⟨fun h => absurd h hread, fun _ => (hsame htook).symm⟩⟩
    · intro hsafe htook
      exact ((hsafe.reported htook haccepted).2 hlisted).symm

theorem repoints_of_misread (hcurrent : indicesForAlias go lookup = .ok []) (hmisread : Misread lookup)
    (hlisted : ¬Listed lookup) :
    Repoints newIndex before (SwapAlias go newIndex lookup swap before) ↔ Safe newIndex lookup swap before := by
  obtain ⟨hok, hfail⟩ := swapAlias_of_ok newIndex swap before hcurrent
  rw [List.toFinset_nil, Finset.sdiff_empty] at hok hfail
  by_cases haccepted : swap.Accepted
  · rw [hok haccepted]
    constructor
    · rintro ⟨hafter, -⟩
      exact ⟨fun _ _ => hafter ▸ Finset.subset_insert _ _, fun _ h => absurd haccepted h⟩
    · intro hsafe
      have hsubset := hsafe.misread hmisread haccepted
      refine ⟨?_, List.nodup_nil, (Finset.sdiff_eq_empty_iff_subset.mpr hsubset).symm⟩
      exact Finset.Subset.antisymm (Finset.insert_subset (Finset.mem_singleton_self _) hsubset)
        (Finset.singleton_subset_iff.mpr (Finset.mem_insert_self _ _))
  · obtain ⟨err, hout⟩ := hfail haccepted
    rw [hout, repoints_error_iff, Finset.insert_eq_self]
    constructor
    · intro hmem
      exact ⟨fun _ h => absurd h haccepted, fun htook _ => ⟨fun _ => hmem htook, fun h => absurd h hlisted⟩⟩
    · intro hsafe htook
      exact (hsafe.reported htook haccepted).1 hmisread

/-- **The alias ends up at the new index alone, or stays, exactly where the swap is safe.** -/
theorem swapAlias_repoints_iff (go : Unmarshal) (newIndex : Bytes) (swap : Swap) (htruth : Truthful before lookup) :
    Repoints newIndex before (SwapAlias go newIndex lookup swap before) ↔ Safe newIndex lookup swap before := by
  rcases indicesForAlias_cases go htruth with ⟨current, hcurrent, hlisted, hread, hnodup, rfl⟩ |
    ⟨hcurrent, hmisread, hlisted⟩ | ⟨err, herr, hread, hlisted⟩
  · exact repoints_of_listed hcurrent hlisted hread hnodup
  · exact repoints_of_misread hcurrent hmisread hlisted
  · have hout : SwapAlias go newIndex lookup swap before = (.error err, before) := by
      simp only [SwapAlias, herr]
    rw [hout]
    exact iff_of_true rfl ⟨fun h => absurd h hread, fun _ _ => ⟨fun h => absurd h hread, fun h => absurd h hlisted⟩⟩

end Swaps

/-! ## Two lookups: a listing, and an outage with a number in it -/

namespace Outage

def go : Unmarshal := ⟨id, List.Perm.refl, fun _ => .plain (Utf8.str "invalid character")⟩

def old : Bytes := Utf8.str "products_v1"

def new : Bytes := Utf8.str "products_v2"

/-- Not a missing alias. -/
def unavailable : HttpReply := ⟨503, Utf8.str "node 404 down"⟩

def accepted : Swap := ⟨.ok ⟨200, []⟩, true, fun _ _ _ => rfl⟩

theorem misread_unavailable : Misread (.ok unavailable) := by
  have hbody : Utf8.str "404" <:+: unavailable.body := ⟨Utf8.str "node ", Utf8.str " down", by decide⟩
  have hlength : unavailable.body.length = 13 := rfl
  have hshort : truncate unavailable.body 512 = unavailable.body := if_pos (by omega)
  have herr : doReply "GET" "/_alias/products" (.ok unavailable) = .error (.plain (Utf8.str "GET" ++ Utf8.str " " ++
      Utf8.str "/_alias/products" ++ Utf8.str " returned " ++ number 503 ++ Utf8.str ": " ++ unavailable.body)) := by
    rw [doReply, if_pos (by decide), hshort]
    rfl
  exact ⟨_, herr, missingAlias_of_infix (hbody.trans (List.suffix_append _ _).isInfix)⟩

/-- An index under its name, with the alias on it. -/
def aliased (name : String) : List Char × Json :=
  (name.toList, .obj [("aliases".toList, .obj [("products".toList, .obj [])])])

/-- The alias has the old index and, after a swap that was not reported, the new one. -/
def listing : HttpReply := ⟨200, Utf8.encode (stringify (.obj [aliased "products_v1", aliased "products_v2"]))⟩

theorem mappingOf_listing : mappingOf listing.body = some [old, new] := by
  have hparse : parse (Utf8.text listing.body) = some (.obj [aliased "products_v1", aliased "products_v2"]) := by
    rw [listing, Utf8.text_encode]
    refine parse_stringify ?_
    simp [aliased, Legible, LegibleMembers, readsBack_jsQuote]
  have hne : old ≠ new := by decide
  have hkeys : mappingKeys (.obj [aliased "products_v1", aliased "products_v2"]) = some [old, new].dedup := rfl
  rw [mappingOf, hparse, Option.bind_some, hkeys, List.Nodup.dedup (by simpa using hne)]

theorem doReply_listing : doReply "GET" "/_alias/products" (.ok listing) = .ok listing.body := by
  have hstatus : listing.status < 300 := by
    show 200 < 300
    omega
  exact doReply_eq_ok.mpr ⟨listing, rfl, hstatus, rfl⟩

theorem truthful_listing : Truthful {old, new} (.ok listing) := by
  intro r names hr _ hnames
  obtain rfl := Except.ok.inj hr
  rw [mappingOf_listing] at hnames
  obtain rfl := Option.some.inj hnames
  decide

theorem safe_listing : Safe new (.ok listing) accepted {old, new} := by
  have haccepted : accepted.Accepted := ⟨⟨200, []⟩, rfl, by decide⟩
  refine ⟨?_, fun _ h => absurd haccepted h⟩
  rintro ⟨err, herr, -⟩
  cases doReply_listing.symm.trans herr

/-- The lookup lists both, and the swap leaves the new one and retires the old. -/
theorem swapAlias_repoints_iff_sample : Truthful {old, new} (.ok listing) ∧
    indicesForAlias go (.ok listing) = .ok [old, new] ∧
    Repoints new {old, new} (SwapAlias go new (.ok listing) accepted {old, new}) := by
  refine ⟨truthful_listing, ?_, (swapAlias_repoints_iff go new accepted truthful_listing).mpr safe_listing⟩
  simp only [indicesForAlias, doReply_listing, mappingOf_listing]
  rfl

/-- **An error that mentions 404 leaves the alias at two indices.** -/
theorem swapAlias_keeps_both : Truthful {old} (.ok unavailable) ∧
    SwapAlias go new (.ok unavailable) accepted {old} = (.ok [], {new, old}) ∧
    ¬Repoints new {old} (SwapAlias go new (.ok unavailable) accepted {old}) := by
  have htruth : Truthful {old} (.ok unavailable) := by
    intro r _ hr hstatus _
    obtain rfl := Except.ok.inj hr
    exact absurd hstatus (by decide)
  have hcurrent : indicesForAlias go (.ok unavailable) = .ok [] := by
    obtain ⟨err, herr, hmissing⟩ := misread_unavailable
    simp only [indicesForAlias, herr, hmissing, if_true]
  have hout : SwapAlias go new (.ok unavailable) accepted {old} = (.ok [], {new, old}) := by
    have hok := (swapAlias_of_ok new accepted {old} hcurrent).1
      ⟨⟨200, []⟩, rfl, by decide⟩
    rwa [List.toFinset_nil, Finset.sdiff_empty, retiredOf, List.filter_nil] at hok
  refine ⟨htruth, hout, ?_⟩
  rw [hout]
  rintro ⟨hafter, -⟩
  have hmem : old ∈ ({new} : Finset Bytes) := by
    rw [← hafter]
    exact Finset.mem_insert_of_mem (Finset.mem_singleton_self old)
  exact absurd (Finset.mem_singleton.mp hmem) (by decide)

end Outage

end Ingest
