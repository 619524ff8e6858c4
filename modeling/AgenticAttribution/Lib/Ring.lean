import Mathlib.Data.List.Rotate
import Mathlib.Data.Multiset.AddSub

/-!
# Lib.Ring — a ring buffer as a queue

A full buffer that is written at position `n % length` at time `n`, as the queue of its entries in the order in which
they will be overwritten.  A write takes the head off and puts its entry at the end (`rotate_set`), so the buffer
holds the last entries of what was in it and what was written (`foldl_push`).
-/

namespace Ring

variable {α : Type*}

/-- A write, in the order of the queue. -/
def push (queue : List α) (x : α) : List α := queue.tail ++ [x]

/-- **A write is a push.** -/
theorem rotate_set {buffer : List α} (h : buffer ≠ []) (n : ℕ) (x : α) :
    (buffer.set (n % buffer.length) x).rotate (n + 1) = push (buffer.rotate n) x := by
  have hlt : n % buffer.length < buffer.length := Nat.mod_lt _ (List.length_pos_iff.mpr h)
  obtain ⟨a, y, b, hbuffer, hlen⟩ : ∃ a y b, buffer = a ++ y :: b ∧ a.length = n % buffer.length := by
    refine ⟨buffer.take (n % buffer.length), buffer[n % buffer.length], buffer.drop (n % buffer.length + 1), ?_, ?_⟩
    · rw [List.getElem_cons_drop, List.take_append_drop]
    · rw [List.length_take, Nat.min_eq_left (Nat.le_of_lt hlt)]
  have hset : buffer.set (n % buffer.length) x = a ++ x :: b := by
    rw [← hlen, hbuffer]
    simp
  have hmod : n % (a ++ x :: b).length = a.length := by
    rw [hlen, hbuffer]
    simp
  have hrotate : buffer.rotate n = y :: b ++ a := by
    rw [← List.rotate_mod, ← hlen, hbuffer, List.rotate_append_length_eq]
  have hnew : (a ++ x :: b).rotate n = x :: b ++ a := by
    rw [← List.rotate_mod, hmod, List.rotate_append_length_eq]
  rw [hset, hrotate, ← List.rotate_rotate, hnew]
  simp [push]

/-- **The last entries**, of those in the buffer and those written. -/
theorem foldl_push (queue writes : List α) (h : queue ≠ []) :
    writes.foldl push queue = (queue ++ writes).drop writes.length := by
  induction writes generalizing queue with
  | nil => simp
  | cons x writes ih =>
    obtain ⟨q, queue, rfl⟩ := List.exists_cons_of_ne_nil h
    have hne : push (q :: queue) x ≠ [] := List.append_ne_nil_of_right_ne_nil _ (List.cons_ne_nil x [])
    rw [List.foldl_cons, ih _ hne]
    simp [push]

/-- Lists that differ in one entry are permutations of each other only if they do not differ. -/
theorem perm_replace_iff {a b : α} {l m : List α} : (l ++ a :: m).Perm (b :: (l ++ m)) ↔ a = b := by
  rw [List.perm_middle.congr_left, ← Multiset.coe_eq_coe, ← Multiset.cons_coe, ← Multiset.cons_coe,
    Multiset.cons_inj_left]

end Ring
