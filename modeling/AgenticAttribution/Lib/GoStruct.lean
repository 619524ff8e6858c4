import AgenticAttribution.Lib.Json

/-!
# Lib.GoStruct — Go structs written as JSON objects

`encoding/json`'s `Marshal` of a struct whose fields all have a name tag.  The fields of an embedded struct are
promoted; of several fields with one name the shallowest is written, and none if it has a rival at its depth.
-/

namespace GoStruct

/-- A field with its JSON name, or an embedded struct. -/
inductive Field where
  | named (name : String) (value : Json)
  | embedded (fields : List Field)

/-- A field with its depth. -/
structure Placed where
  depth : ℕ
  name : String
  value : Json

mutual

/-- The fields in the order of the struct. -/
def Field.placed (depth : ℕ) : Field → List Placed
  | .named name value => [⟨depth, name, value⟩]
  | .embedded fields => placedAll (depth + 1) fields

def placedAll (depth : ℕ) : List Field → List Placed
  | [] => []
  | f :: fs => f.placed depth ++ placedAll depth fs

end

/-- No other field hides it: it is the only one of its name down to its depth. -/
def dominant (fields : List Placed) (f : Placed) : Bool :=
  (fields.countP fun g => decide (g.name = f.name) && decide (g.depth ≤ f.depth)) = 1

/-- `json.Marshal`. -/
def marshal (fields : List Field) : Json :=
  let placed := placedAll 0 fields
  .obj ((placed.filter (dominant placed)).map fun f => (f.name.toList, f.value))

/-- A member comes from a field. -/
theorem placed_of_prop {fields : List Field} {key : String} {v : Json} (h : (marshal fields).prop key = some v) :
    ∃ f ∈ placedAll 0 fields, f.name = key ∧ f.value = v := by
  simp only [marshal, Json.prop, Option.map_eq_some_iff] at h
  obtain ⟨m, hfind, rfl⟩ := h
  have hname : m.1 = key.toList := by simpa using List.find?_some hfind
  obtain ⟨f, hf, rfl⟩ := List.mem_map.mp (List.mem_of_find?_eq_some hfind)
  exact ⟨f, (List.mem_filter.mp hf).1, String.toList_inj.mp hname, rfl⟩

/-- Of the fields of a name, one is dominant. -/
theorem eq_of_dominant {fields : List Placed} {f g : Placed} (hf : f ∈ fields) (hg : g ∈ fields)
    (hname : g.name = f.name) (hfdom : dominant fields f = true) (hgdom : dominant fields g = true) : g = f := by
  have hunique : ∀ {x y : Placed}, x ∈ fields → y ∈ fields → y.name = x.name → y.depth ≤ x.depth →
      dominant fields x = true → y = x := by
    intro x y hx hy hname hdepth hdom
    rw [dominant, decide_eq_true_eq, List.countP_eq_length_filter, List.length_eq_one_iff] at hdom
    obtain ⟨z, hz⟩ := hdom
    have hmem : ∀ w ∈ fields, w.name = x.name → w.depth ≤ x.depth → w = z := by
      intro w hw hn hd
      refine List.mem_singleton.mp (hz ▸ List.mem_filter.mpr ⟨hw, ?_⟩)
      rw [Bool.and_eq_true, decide_eq_true_eq, decide_eq_true_eq]
      exact ⟨hn, hd⟩
    rw [hmem y hy hname hdepth, hmem x hx rfl le_rfl]
  rcases le_total g.depth f.depth with hle | hle
  · exact hunique hf hg hname hle hfdom
  · exact (hunique hg hf hname.symm hle hgdom).symm

/-- **A field that nothing hides is a member.** -/
theorem prop_of_placed {fields : List Field} {f : Placed} (hf : f ∈ placedAll 0 fields)
    (hdom : dominant (placedAll 0 fields) f = true) : (marshal fields).prop f.name = some f.value := by
  have hmem : (f.name.toList, f.value) ∈ ((placedAll 0 fields).filter (dominant (placedAll 0 fields))).map
      fun f => (f.name.toList, f.value) := List.mem_map.mpr ⟨f, List.mem_filter.mpr ⟨hf, hdom⟩, rfl⟩
  simp only [marshal, Json.prop]
  cases hfind : (((placedAll 0 fields).filter (dominant (placedAll 0 fields))).map
      fun f => (f.name.toList, f.value)).find? fun m => m.1 = f.name.toList with
  | none => exact absurd (decide_eq_true rfl) (List.find?_eq_none.mp hfind _ hmem)
  | some m =>
    have hname : m.1 = f.name.toList := by simpa using List.find?_some hfind
    obtain ⟨g, hg, rfl⟩ := List.mem_map.mp (List.mem_of_find?_eq_some hfind)
    obtain ⟨hg, hgdom⟩ := List.mem_filter.mp hg
    rw [eq_of_dominant hf hg (String.toList_inj.mp hname) hdom hgdom]
    rfl

end GoStruct
