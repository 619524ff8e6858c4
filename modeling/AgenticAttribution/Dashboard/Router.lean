import AgenticAttribution.Lib.Percent
import Mathlib.Data.List.DropRight

/-!
# Dashboard.Router — the routes of the dashboard

`app/src/Router.php`, `Route.php` and `Response.php`.  A pattern and a path are compared segment by segment, and a
placeholder takes the decoded segment.  A path that was put together of literal segments and one encoded value gives
that value back (`match_link`), whatever it is, so long as it is not empty.
-/

namespace Dashboard

open Percent

/-- `trim`. -/
def trim (p : Char → Bool) (cs : List Char) : List Char := (cs.dropWhile p).rdropWhile p

/-- The segments of a path: `explode('/', trim($path, '/'))`. -/
def segments (path : List Char) : List (List Char) := (trim (· = '/') path).splitOn '/'

/-- The captured parameters; a name that comes again replaces its value. -/
abbrev Params := List (List Char × Bytes)

def Params.put (ps : Params) (name : List Char) (value : Bytes) : Params :=
  ps.filter (fun p => p.1 ≠ name) ++ [(name, value)]

def Params.get (ps : Params) (name : List Char) : Option Bytes := (ps.find? fun p => p.1 = name).map (·.2)

/-- A segment of a pattern that stands for any. -/
def isPlaceholder (segment : List Char) : Bool := segment.head? = some '{' && segment.getLast? = some '}'

/-- The loop of `match`. -/
def matchSegments (parameters : Params) : List (List Char × List Char) → Option Params
  | [] => some parameters
  | (segment, actual) :: rest =>
    if isPlaceholder segment then
      if actual = [] then none
      else matchSegments (parameters.put (trim (fun c => c = '{' || c = '}') segment) (decode actual)) rest
    else if segment ≠ actual then none
    else matchSegments parameters rest

/-- `Router::match`. -/
def matchPath (pattern path : List Char) : Option Params :=
  let patternSegments := segments pattern
  let pathSegments := segments path
  if patternSegments.length ≠ pathSegments.length then none
  else matchSegments [] (patternSegments.zip pathSegments)

inductive Method where
  | get
  | post
  /-- Any other; no route has one. -/
  | other
  deriving DecidableEq

/-- `Route`, with handlers that give an `α`. -/
structure Route (α : Type*) where
  method : Method
  pattern : List Char
  handler : Params → α

/-- `Router::dispatch`; `none` is the answer 404 `not found`. -/
def dispatch {α : Type*} (routes : List (Route α)) (method : Method) (path : List Char) : Option α :=
  match routes with
  | [] => none
  | route :: routes =>
    if route.method ≠ method then dispatch routes method path
    else
      match matchPath route.pattern path with
      | some parameters => some (route.handler parameters)
      | none => dispatch routes method path

/-! ## Segments -/

section Segments

theorem trim_eq_self {p : Char → Bool} {cs : List Char} (hhead : ∀ c ∈ cs.head?, p c = false)
    (hlast : ∀ c ∈ cs.getLast?, p c = false) : trim p cs = cs := by
  have hdrop : cs.dropWhile p = cs := by
    cases cs with
    | nil => rfl
    | cons c cs => rw [List.dropWhile_cons_of_neg (by simp [hhead c rfl])]
  rw [trim, hdrop, List.rdropWhile_eq_self_iff]
  intro hne
  have hl := hlast (cs.getLast hne) (List.getLast?_eq_some_getLast hne)
  simp [hl]

theorem getLast?_pathOf {s : List Char} {segs : List (List Char)} (hs : s ≠ [] ∧ '/' ∉ s)
    (hsegs : ∀ t ∈ segs, t ≠ [] ∧ '/' ∉ t) : ∀ c ∈ (s ++ pathOf segs).getLast?, c ≠ '/' := by
  induction segs generalizing s with
  | nil =>
    intro c hc hslash
    rw [pathOf, List.flatMap_nil, List.append_nil] at hc
    exact hs.2 (hslash ▸ List.mem_of_getLast? hc)
  | cons t segs ih =>
    have ht := hsegs t List.mem_cons_self
    have hne : t ++ pathOf segs ≠ [] := fun h => ht.1 (List.append_eq_nil_iff.mp h).1
    rw [pathOf_cons, List.getLast?_append_of_ne_nil _ (by simp), List.getLast?_cons_of_ne_nil hne]
    exact ih ht fun u hu => hsegs u (List.mem_cons_of_mem _ hu)

/-- **The segments of a path are what it was put together of.** -/
theorem segments_pathOf {segs : List (List Char)} (hne : segs ≠ []) (h : ∀ s ∈ segs, s ≠ [] ∧ '/' ∉ s) :
    segments (pathOf segs) = segs := by
  obtain ⟨s, segs, rfl⟩ := List.exists_cons_of_ne_nil hne
  have hs := h s List.mem_cons_self
  have hsegs : ∀ t ∈ segs, t ≠ [] ∧ '/' ∉ t := fun t ht => h t (List.mem_cons_of_mem _ ht)
  have htrim : trim (· = '/') (pathOf (s :: segs)) = s ++ pathOf segs := by
    have hrest : trim (· = '/') (s ++ pathOf segs) = s ++ pathOf segs := by
      refine trim_eq_self (fun c hc => ?_) fun c hc => ?_
      · obtain ⟨d, s', hd⟩ := List.exists_cons_of_ne_nil hs.1
        subst hd
        obtain rfl := Option.some.inj hc
        exact decide_eq_false fun he => hs.2 (he ▸ List.mem_cons_self)
      · exact decide_eq_false (getLast?_pathOf hs hsegs c hc)
    rw [pathOf_cons, trim, List.dropWhile_cons_of_pos (by simp)]
    exact hrest
  rw [segments, htrim]
  exact splitOn_pathOf hs.2 fun t ht => (hsegs t ht).2

end Segments

/-! ## Links -/

section Links

/-- The bytes that `rawurlencode` keeps. -/
def rawurlencode (bs : Bytes) : List Char := encode unreserved bs

/-- A link to the page of a value. -/
def link (kind : List Char) (value : Bytes) : List Char := pathOf [kind, rawurlencode value]

theorem segments_link {kind : List Char} {value : Bytes} (hkind : kind ≠ [] ∧ '/' ∉ kind) (hvalue : value ≠ []) :
    segments (link kind value) = [kind, rawurlencode value] := by
  refine segments_pathOf (by simp) fun s hs => ?_
  simp only [List.mem_cons, List.not_mem_nil, or_false] at hs
  rcases hs with rfl | rfl
  · exact hkind
  · exact ⟨encode_ne_nil hvalue, notMem_unreserved (Or.inl rfl) value⟩

/-- **A link is matched by the route of its kind, with its value.** -/
theorem match_link {kind name : List Char} {value : Bytes} (hkind : kind ≠ [] ∧ '/' ∉ kind)
    (hplain : isPlaceholder kind = false) {pattern : List Char}
    (hpattern : segments pattern = [kind, '{' :: name ++ ['}']])
    (hname : trim (fun c => c = '{' || c = '}') ('{' :: name ++ ['}']) = name) (hvalue : value ≠ []) :
    matchPath pattern (link kind value) = some [(name, value)] := by
  have hplace : isPlaceholder ('{' :: name ++ ['}']) = true := by
    rw [isPlaceholder, List.getLast?_concat]
    rfl
  have hdecode : decode (rawurlencode value) = value := decode_encode plain_unreserved value
  have hne : rawurlencode value ≠ [] := encode_ne_nil hvalue
  rw [matchPath, hpattern, segments_link hkind hvalue]
  simp only [List.length_cons, ne_eq, not_true, if_false, List.zip_cons_cons, List.zip_nil_right, matchSegments,
    hplain, hplace, Bool.false_eq_true, if_true, hne, hdecode, hname]
  rfl

end Links

end Dashboard
