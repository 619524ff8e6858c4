import AgenticAttribution.Lib.Fallible

/-!
# Lib.Script — statements sent to a store one by one

A client sends a store statements that take effect one by one, and then perhaps a transaction: statements on a copy,
which becomes the store when the transaction commits.  A statement may fail, and then nothing of it has happened.

`Client.next` is the next thing a client sends, and `Client.rest` what everything it has left to send comes to.  No
step of the client changes that (`rest_next`), so what is known of it at the start is known all along.
-/

namespace Script

open Fallible

variable {ι σ ε : Type}

/-- What a client has left to send. -/
inductive Client (ι σ : Type) where
  | single (left : List ι) (transaction : Option (List ι))
  | inside (left : List ι) (work : σ)
  | committed

namespace Client

/-- The store and the client behind the next thing the client sends: a statement, or the begin or the end of its
transaction. -/
def next (exec : σ → ι → Except ε σ) (s : σ) : Client ι σ → Option (Except ε (σ × Client ι σ))
  | .single (i :: is) transaction => some ((exec s i).map fun t => (t, .single is transaction))
  | .single [] (some is) => some (.ok (s, .inside is s))
  | .single [] none => none
  | .inside (i :: is) work => some ((exec work i).map fun t => (s, .inside is t))
  | .inside [] work => some (.ok (work, .committed))
  | .committed => none

/-- The transaction has just become the store. -/
def isCommitted : Client ι σ → Bool
  | .committed => true
  | _ => false

/-- The number of things a client has left to send. -/
def size : Client ι σ → ℕ
  | .single is none => is.length
  | .single is (some js) => is.length + (js.length + 2)
  | .inside is _ => is.length + 1
  | .committed => 0

/-- The store behind everything a client has left to send. -/
def rest (exec : σ → ι → Except ε σ) (s : σ) : Client ι σ → Except ε σ
  | .single is none => is.foldlM exec s
  | .single is (some js) => is.foldlM exec s >>= fun t => js.foldlM exec t
  | .inside is work => is.foldlM exec work
  | .committed => .ok s

variable {exec : σ → ι → Except ε σ} {s t u : σ} {c d : Client ι σ}

/-- The ways to a next client. -/
theorem next_cases (h : c.next exec s = some (.ok (t, d))) :
    (∃ i is tx, c = .single (i :: is) tx ∧ exec s i = .ok t ∧ d = .single is tx) ∨
    (∃ is, c = .single [] (some is) ∧ t = s ∧ d = .inside is s) ∨
    (∃ i is work work', c = .inside (i :: is) work ∧ exec work i = .ok work' ∧ t = s ∧ d = .inside is work') ∨
    (c = .inside [] t ∧ d = .committed) := by
  match c, h with
  | .single (i :: is) tx, h =>
    obtain ⟨u, hu, heq⟩ := map_eq_ok.mp (Option.some.inj h)
    obtain ⟨rfl, rfl⟩ := Prod.mk.inj heq
    exact Or.inl ⟨i, is, tx, rfl, hu, rfl⟩
  | .single [] (some is), h =>
    cases h
    exact Or.inr (Or.inl ⟨is, rfl, rfl, rfl⟩)
  | .inside (i :: is) work, h =>
    obtain ⟨u, hu, heq⟩ := map_eq_ok.mp (Option.some.inj h)
    obtain ⟨rfl, rfl⟩ := Prod.mk.inj heq
    exact Or.inr (Or.inr (Or.inl ⟨i, is, work, u, rfl, hu, rfl, rfl⟩))
  | .inside [] work, h =>
    cases h
    exact Or.inr (Or.inr (Or.inr ⟨rfl, rfl⟩))

theorem size_next (h : c.next exec s = some (.ok (t, d))) : c.size = d.size + 1 := by
  rcases next_cases h with ⟨i, is, tx, rfl, -, rfl⟩ | ⟨is, rfl, -, rfl⟩ | ⟨i, is, work, work', rfl, -, -, rfl⟩ |
    ⟨rfl, rfl⟩
  · cases tx with
    | none => rfl
    | some js =>
      simp only [size, List.length_cons]
      omega
  · simp only [size, List.length_nil]
    omega
  · rfl
  · rfl

/-- **What is left comes to the same behind every step.** -/
theorem rest_next (h : c.next exec s = some (.ok (t, d))) : d.rest exec t = c.rest exec s := by
  rcases next_cases h with ⟨i, is, tx, rfl, hi, rfl⟩ | ⟨is, rfl, rfl, rfl⟩ | ⟨i, is, work, work', rfl, hi, rfl, rfl⟩ |
    ⟨rfl, rfl⟩
  · cases tx with
    | none => rw [rest, rest, List.foldlM_cons, hi, ok_bind]
    | some js => rw [rest, rest, List.foldlM_cons, hi, ok_bind]
  · rw [rest, rest, List.foldlM_nil]
    rfl
  · rw [rest, rest, List.foldlM_cons, hi, ok_bind]
  · rfl

/-- A client that comes to an end sends something without an error, or is there. -/
theorem next_of_rest (h : c.rest exec s = .ok u) :
    (c.next exec s = none ∧ s = u) ∨ ∃ t d, c.next exec s = some (.ok (t, d)) := by
  match c, h with
  | .single [] none, h => exact Or.inl ⟨rfl, foldlM_nil_eq_ok.mp (show ([] : List ι).foldlM exec s = .ok u from h)⟩
  | .single [] (some is), h => exact Or.inr ⟨_, _, rfl⟩
  | .single (i :: is) none, h =>
    obtain ⟨t, ht, -⟩ := foldlM_cons_eq_ok.mp h
    exact Or.inr ⟨t, .single is none, by rw [next, ht]; rfl⟩
  | .single (i :: is) (some js), h =>
    obtain ⟨v, hv, -⟩ := bind_eq_ok.mp h
    obtain ⟨t, ht, -⟩ := foldlM_cons_eq_ok.mp hv
    exact Or.inr ⟨t, .single is (some js), by rw [next, ht]; rfl⟩
  | .inside [] work, h => exact Or.inr ⟨_, _, rfl⟩
  | .inside (i :: is) work, h =>
    obtain ⟨t, ht, -⟩ := foldlM_cons_eq_ok.mp h
    exact Or.inr ⟨s, .inside is t, by rw [next, ht]; rfl⟩
  | .committed, h => exact Or.inl ⟨rfl, Except.ok.inj h⟩

theorem next_eq_none_iff : c.next exec s = none ↔ c.size = 0 := by
  match c with
  | .single [] none => simp [next, size]
  | .single [] (some is) => simp [next, size]
  | .single (i :: is) none => simp [next, size]
  | .single (i :: is) (some js) => simp [next, size]
  | .inside [] work => simp [next, size]
  | .inside (i :: is) work => simp [next, size]
  | .committed => simp [next, size]

/-- A client that has nothing left leaves the store as it is. -/
theorem rest_of_size (h : c.size = 0) : c.rest exec s = .ok s := by
  match c, h with
  | .single [] none, h => rfl
  | .committed, h => rfl

end Client

end Script
