import Mathlib.Data.List.Basic

/-!
# Lib.PrefixCode — concatenations that can be taken apart again

A code `f : α → List β` is a prefix code when a word followed by anything determines the letter it encodes.  A
text encoded letter by letter and closed by a symbol that starts no word can be recovered from what it is a
prefix of (`flatMap_closed`), which is what a quoted string inside a larger document needs.
-/

namespace PrefixCode

variable {α β : Type*}

/-- A word of `f`, whatever follows it, is the word of one letter only. -/
def IsPrefixCode (f : α → List β) : Prop :=
  ∀ a b x y, f a ++ x = f b ++ y → a = b

/-- A code with a reader that takes one word off the front is a prefix code. -/
theorem isPrefixCode_of_reader {f : α → List β} (read : List β → Option (α × List β))
    (h : ∀ a x, read (f a ++ x) = some (a, x)) : IsPrefixCode f := by
  intro a b x y hab
  have ha := h a x
  rw [hab, h b y] at ha
  exact (congrArg Prod.fst (Option.some.inj ha)).symm

/-- No word of `f` is empty or starts with `q`. -/
def Avoids (f : α → List β) (q : β) : Prop :=
  ∀ a, ∃ b w, f a = b :: w ∧ b ≠ q

/-- A text closed by a symbol that starts no word is read back whole, with what follows it. -/
theorem flatMap_closed {f : α → List β} (hf : IsPrefixCode f) {q : β} (hq : Avoids f q) :
    ∀ {xs ys : List α} {x y : List β},
      xs.flatMap f ++ q :: x = ys.flatMap f ++ q :: y → xs = ys ∧ x = y
  | [], [], x, y, h => by
    simp only [List.flatMap_nil, List.nil_append, List.cons.injEq, true_and] at h
    exact ⟨rfl, h⟩
  | [], b :: ys, x, y, h => by
    obtain ⟨c, w, hc, hne⟩ := hq b
    simp only [List.flatMap_nil, List.nil_append, List.flatMap_cons, hc, List.cons_append, List.cons.injEq] at h
    exact absurd h.1.symm hne
  | a :: xs, [], x, y, h => by
    obtain ⟨c, w, hc, hne⟩ := hq a
    simp only [List.flatMap_nil, List.nil_append, List.flatMap_cons, hc, List.cons_append, List.cons.injEq] at h
    exact absurd h.1 hne
  | a :: xs, b :: ys, x, y, h => by
    simp only [List.flatMap_cons, List.append_assoc] at h
    have hab := hf a b _ _ h
    subst hab
    obtain ⟨hxs, hx⟩ := flatMap_closed hf hq (List.append_cancel_left h)
    exact ⟨by rw [hxs], hx⟩

end PrefixCode
