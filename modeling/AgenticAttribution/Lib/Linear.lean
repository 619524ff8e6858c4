import Mathlib.Data.List.Basic

/-!
# Lib.Linear — concurrent operations that look sequential

An object answers a request in one step, `f : σ → ρ → σ × α`.  An implementation takes its time over it, and its
operations overlap; a finished one is a `Done`, with the times at which it started and finished.  The operations
are linearizable if there is an order of them that `f` explains and that keeps one operation before another if it
had finished when the other started.
-/

namespace Linear

variable {σ ρ α : Type*}

/-- A finished operation. -/
structure Done (ρ α : Type*) where
  request : ρ
  response : α
  started : ℕ
  finished : ℕ

/-- The state behind the operations, one after the other. -/
def after (f : σ → ρ → σ × α) (s : σ) (l : List (Done ρ α)) : σ := l.foldl (fun s d => (f s d.request).1) s

/-- The responses are those that the object gives, one after the other. -/
def Explains (f : σ → ρ → σ × α) : σ → List (Done ρ α) → Prop
  | _, [] => True
  | s, d :: l => (f s d.request).2 = d.response ∧ Explains f (f s d.request).1 l

/-- No operation comes before one that had finished when it started. -/
def InTime (l : List (Done ρ α)) : Prop := l.Pairwise fun a b => a.started ≤ b.finished

/-- The operations and the state behind them have a sequential order. -/
def Linearizable (f : σ → ρ → σ × α) (s : σ) (done : List (Done ρ α)) (t : σ) : Prop :=
  ∃ l, l.Perm done ∧ Explains f s l ∧ after f s l = t ∧ InTime l

variable {f : σ → ρ → σ × α} {s : σ} {d : Done ρ α} {l m : List (Done ρ α)}

@[simp] theorem after_nil : after f s [] = s := rfl

@[simp] theorem after_cons : after f s (d :: l) = after f (f s d.request).1 l := rfl

@[simp] theorem after_append : after f s (l ++ m) = after f (after f s l) m := List.foldl_append

theorem explains_append : Explains f s (l ++ m) ↔ Explains f s l ∧ Explains f (after f s l) m := by
  induction l generalizing s with
  | nil => simp [Explains]
  | cons d l ih => simp [Explains, ih, and_assoc]

/-- An operation may be put between others that had not finished when it started, if it has not finished before
those in front of it started. -/
theorem InTime.insert (h : InTime (l ++ m)) (hl : ∀ a ∈ l, a.started ≤ d.finished)
    (hm : ∀ b ∈ m, d.started ≤ b.finished) : InTime (l ++ d :: m) := by
  obtain ⟨hleft, hright, hcross⟩ := List.pairwise_append.mp h
  refine List.pairwise_append.mpr ⟨hleft, List.pairwise_cons.mpr ⟨hm, hright⟩, fun a ha b hb => ?_⟩
  rcases List.mem_cons.mp hb with rfl | hb
  · exact hl a ha
  · exact hcross a ha b hb

end Linear
