import AgenticAttribution.Lib.Utf8

/-!
# Lib.GoError — error values with wrapped sentinels

A Go error, as far as a caller can act on it: the sentinels `errors.Is` finds in it, and the text of its `Error`
method.
-/

/-- An error over the sentinels `ε`. -/
structure GoError (ε : Type*) where
  wraps : List ε
  text : Bytes
  deriving DecidableEq

namespace GoError

variable {ε : Type*}

/-- `errors.Is(err, target)`. -/
def is [DecidableEq ε] (err : GoError ε) (target : ε) : Bool := target ∈ err.wraps

/-- `errors.New(text)` that nobody compares with. -/
def plain (text : Bytes) : GoError ε := ⟨[], text⟩

/-- `fmt.Errorf("…: %w", err)`, with `pre` for what stands before the verb. -/
def wrap (pre : Bytes) (err : GoError ε) : GoError ε := ⟨err.wraps, pre ++ err.text⟩

/-- `fmt.Errorf("%w…", err, …)`, with `post` for what stands behind the verb. -/
def annotate (err : GoError ε) (post : Bytes) : GoError ε := ⟨err.wraps, err.text ++ post⟩

/-- `errors.Join(err, other)`, where `other` may be nil. -/
def join (err : GoError ε) : Option (GoError ε) → GoError ε
  | none => err
  | some other => ⟨err.wraps ++ other.wraps, err.text ++ Utf8.str "\n" ++ other.text⟩

@[simp] theorem wraps_wrap (pre : Bytes) (err : GoError ε) : (wrap pre err).wraps = err.wraps := rfl

@[simp] theorem wraps_annotate (err : GoError ε) (post : Bytes) : (annotate err post).wraps = err.wraps := rfl

/-- The error wraps one of the sentinels `xs`, or no sentinel at all. -/
def Among (xs : List ε) (err : GoError ε) : Prop := err.wraps = [] ∨ ∃ x ∈ xs, err.wraps = [x]

theorem among_plain (xs : List ε) (text : Bytes) : Among xs (plain text) := Or.inl rfl

theorem among_of_mem {xs : List ε} {x : ε} {err : GoError ε} (hx : x ∈ xs) (h : err.wraps = [x]) : Among xs err :=
  Or.inr ⟨x, hx, h⟩

end GoError
