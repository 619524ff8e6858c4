import AgenticAttribution.Lib.Digits
import AgenticAttribution.Lib.Json

/-!
# Lib.BoolQuery — filtered queries over JSON documents

A document answers a `bool` query if it answers all of its clauses, and a `hybrid` query only if it answers one of the
subqueries.  What a scoring query finds is left open.  A field that holds an array is matched by any of its elements.
-/

namespace BoolQuery

open Digits

/-- A query whose scoring queries are in `S`. -/
inductive Query (S : Type) where
  | scoring (s : S)
  | term (field : String) (value : Json)
  | terms (field : String) (values : List Json)
  | lte (field : String) (bound : ℤ)
  | bool (must filter : List (Query S))
  | hybrid (queries : List (Query S))

/-- The values of a field. -/
def values (doc : Json) (field : String) : List Json :=
  match doc.prop field with
  | none | some .null => []
  | some (.arr elems) => elems
  | some v => [v]

section Matching

variable {S : Type} (scored : S → Json → Prop) (doc : Json)

mutual

def Matches : Query S → Prop
  | .scoring s => scored s doc
  | .term field value => value ∈ values doc field
  | .terms field wanted => ∃ v ∈ wanted, v ∈ values doc field
  | .lte field bound => ∃ n : ℤ, .num (intChars n) ∈ values doc field ∧ n ≤ bound
  | .bool must filter => MatchesAll must ∧ MatchesAll filter
  | .hybrid queries => MatchesAny queries

def MatchesAll : List (Query S) → Prop
  | [] => True
  | q :: qs => Matches q ∧ MatchesAll qs

def MatchesAny : List (Query S) → Prop
  | [] => False
  | q :: qs => Matches q ∨ MatchesAny qs

end

variable {scored doc} {q : Query S} {qs must filter : List (Query S)}

theorem matchesAll_iff : MatchesAll scored doc qs ↔ ∀ q ∈ qs, Matches scored doc q := by
  induction qs with
  | nil => simp [MatchesAll]
  | cons q qs ih => rw [MatchesAll, ih, List.forall_mem_cons]

theorem matchesAny_iff : MatchesAny scored doc qs ↔ ∃ q ∈ qs, Matches scored doc q := by
  induction qs with
  | nil => simp [MatchesAny]
  | cons q qs ih => rw [MatchesAny, ih, List.exists_mem_cons_iff]

theorem matches_bool : Matches scored doc (.bool must filter) ↔
    (∀ q ∈ must, Matches scored doc q) ∧ ∀ q ∈ filter, Matches scored doc q := by
  rw [Matches, matchesAll_iff, matchesAll_iff]

theorem matches_hybrid : Matches scored doc (.hybrid qs) ↔ ∃ q ∈ qs, Matches scored doc q := by
  rw [Matches, matchesAny_iff]

/-- **Filters on every subquery are filters on the whole.** -/
theorem filter_of_hybrid {scorings : List (Query S)}
    (h : Matches scored doc (.hybrid (scorings.map fun s => .bool [s] filter))) :
    ∀ q ∈ filter, Matches scored doc q := by
  obtain ⟨q, hq, hmatch⟩ := matches_hybrid.mp h
  obtain ⟨s, -, rfl⟩ := List.mem_map.mp hq
  exact (matches_bool.mp hmatch).2

theorem values_of_str {field : String} {cs : List Char} (h : doc.prop field = some (.str cs)) :
    values doc field = [.str cs] := by
  rw [values, h]

theorem values_of_bool {field : String} {b : Bool} (h : doc.prop field = some (.bool b)) :
    values doc field = [.bool b] := by
  rw [values, h]

theorem values_of_num {field : String} {text : List Char} (h : doc.prop field = some (.num text)) :
    values doc field = [.num text] := by
  rw [values, h]

theorem lte_of_num {field : String} {n bound : ℤ} (h : doc.prop field = some (.num (intChars n))) :
    Matches scored doc (.lte field bound) ↔ n ≤ bound := by
  rw [Matches, values_of_num h]
  constructor
  · rintro ⟨m, hm, hle⟩
    obtain rfl := intChars_injective (Json.num.inj (List.mem_singleton.mp hm))
    exact hle
  · intro hle
    exact ⟨n, List.mem_singleton_self _, hle⟩

end Matching

end BoolQuery
