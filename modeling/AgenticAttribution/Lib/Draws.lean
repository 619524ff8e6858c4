import Mathlib.Data.List.Basic
import Mathlib.Data.Nat.Pairing

/-!
# Lib.Draws — computations that draw random numbers

A computation reads its draws off a tape of natural numbers, and fails where the tape ends.  `intn n` reduces the next
draw to one below `n`, so that a tape stands for every sequence of answers that a source of random numbers can give.
`Yields` says what holds of every result, and `Answers` that a source of draws is enough for a result.
-/

structure Draws (α : Type) where
  /-- The result, with the rest of the tape. -/
  run : List ℕ → Option (α × List ℕ)
  /-- What is not read does not matter. -/
  frame : ∀ {tape rest : List ℕ} {a : α} (more : List ℕ),
    run tape = some (a, rest) → run (tape ++ more) = some (a, rest ++ more)

namespace Draws

variable {α β σ : Type}

def ret (a : α) : Draws α where
  run tape := some (a, tape)
  frame more h := by
    obtain ⟨rfl, rfl⟩ := Prod.mk.inj (Option.some.inj h)
    rfl

def andThen (m : Draws α) (f : α → Draws β) : Draws β where
  run tape := (m.run tape).bind fun p => (f p.1).run p.2
  frame more h := by
    obtain ⟨⟨a, rest⟩, hm, hf⟩ := Option.bind_eq_some_iff.mp h
    rw [m.frame more hm, Option.bind_some]
    exact (f a).frame more hf

instance : Monad Draws where
  pure := ret
  bind := andThen

/-- A panic, if there is no value. -/
def ofOption (o : Option α) : Draws α where
  run tape := o.map fun a => (a, tape)
  frame more h := by
    cases o with
    | none => cases h
    | some a =>
      obtain ⟨rfl, rfl⟩ := Prod.mk.inj (Option.some.inj h)
      rfl

/-- `Intn(n)`, which panics if `n` is zero. -/
def intn (n : ℕ) : Draws ℕ where
  run
    | [] => none
    | d :: tape => if n = 0 then none else some (d % n, tape)
  frame {tape _ _} more h := by
    cases tape with
    | nil => cases h
    | cons d tape =>
      by_cases hn : n = 0
      · simp only [hn, if_true] at h
        cases h
      · simp only [hn, if_false, List.cons_append] at h ⊢
        obtain ⟨rfl, rfl⟩ := Prod.mk.inj (Option.some.inj h)
        rfl

/-- An element at a random place. -/
def pick (xs : List α) : Draws α := do
  let i ← intn xs.length
  ofOption xs[i]?

/-- The results of a loop over a list, in order. -/
def each (f : β → Draws α) : List β → Draws (List α)
  | [] => pure []
  | b :: rest => do
    let a ← f b
    let as ← each f rest
    return a :: as

/-- The loop `for more(s) { s = f(s, Intn(n)) }` on a tape. -/
def loop (more : σ → Bool) (n : ℕ) (f : σ → ℕ → σ) : σ → List ℕ → Option (σ × List ℕ)
  | s, [] => if more s then none else some (s, [])
  | s, d :: tape => if more s then loop more n f (f s (d % n)) tape else some (s, d :: tape)

theorem loop_frame {more : σ → Bool} {n : ℕ} {f : σ → ℕ → σ} (further : List ℕ) :
    ∀ {tape rest : List ℕ} {s t : σ}, loop more n f s tape = some (t, rest) →
      loop more n f s (tape ++ further) = some (t, rest ++ further)
  | [], _, s, t, h => by
    unfold loop at h
    split_ifs at h with hmore
    obtain ⟨rfl, rfl⟩ := Prod.mk.inj (Option.some.inj h)
    cases further with
    | nil => rw [List.append_nil, loop, if_neg hmore]
    | cons d further => rw [List.nil_append, loop, if_neg hmore]
  | d :: tape, _, s, t, h => by
    unfold loop at h
    rw [List.cons_append, loop]
    split_ifs at h ⊢
    · exact loop_frame further h
    · obtain ⟨rfl, rfl⟩ := Prod.mk.inj (Option.some.inj h)
      rfl

def drawWhile (more : σ → Bool) (n : ℕ) (f : σ → ℕ → σ) (s : σ) : Draws σ where
  run := loop more n f s
  frame further h := loop_frame further h

/-! ## What holds of every result -/

section Yields

variable {m : Draws α} {f : α → Draws β} {P : α → Prop} {Q : β → Prop}

/-- **Every result of the computation** meets `P`, whatever is drawn. -/
def Yields (m : Draws α) (P : α → Prop) : Prop := ∀ tape a rest, m.run tape = some (a, rest) → P a

theorem Yields.mono {P' : α → Prop} (h : Yields m P) (hP : ∀ a, P a → P' a) : Yields m P' :=
  fun tape a rest hrun => hP a (h tape a rest hrun)

theorem Yields.and {P' : α → Prop} (h : Yields m P) (h' : Yields m P') : Yields m fun a => P a ∧ P' a :=
  fun tape a rest hrun => ⟨h tape a rest hrun, h' tape a rest hrun⟩

theorem yields_pure {a : α} (h : P a) : Yields (pure a : Draws α) P := by
  intro tape b rest hrun
  obtain ⟨rfl, -⟩ := Prod.mk.inj (Option.some.inj hrun)
  exact h

theorem yields_bind (hm : Yields m P) (hf : ∀ a, P a → Yields (f a) Q) : Yields (m >>= f) Q := by
  intro tape b rest hrun
  obtain ⟨⟨a, tape'⟩, ha, hb⟩ := Option.bind_eq_some_iff.mp hrun
  exact hf a (hm tape a tape' ha) tape' b rest hb

theorem yields_ofOption {o : Option α} (h : ∀ a, o = some a → P a) : Yields (ofOption o) P := by
  intro tape a rest hrun
  obtain ⟨b, hb, hpair⟩ := Option.map_eq_some_iff.mp hrun
  obtain ⟨rfl, -⟩ := Prod.mk.inj hpair
  exact h b hb

theorem yields_intn (n : ℕ) : Yields (intn n) (· < n) := by
  intro tape a rest hrun
  cases tape with
  | nil => cases hrun
  | cons d tape =>
    simp only [intn] at hrun
    split_ifs at hrun with hn
    obtain ⟨rfl, -⟩ := Prod.mk.inj (Option.some.inj hrun)
    exact Nat.mod_lt d (Nat.pos_of_ne_zero hn)

theorem yields_pick (xs : List α) : Yields (pick xs) (· ∈ xs) :=
  yields_bind (yields_intn _) fun _ _ => yields_ofOption fun _ h => List.mem_of_getElem? h

/-- The results of a loop are related to its list one by one. -/
theorem yields_each {R : β → α → Prop} {f : β → Draws α} :
    ∀ {xs : List β}, (∀ b ∈ xs, Yields (f b) (R b)) → Yields (each f xs) (List.Forall₂ R xs)
  | [], _ => yields_pure List.Forall₂.nil
  | b :: xs, h => by
    refine yields_bind (h b List.mem_cons_self) fun a ha => ?_
    refine yields_bind (yields_each fun c hc => h c (List.mem_cons_of_mem _ hc)) fun as has => ?_
    exact yields_pure (List.Forall₂.cons ha has)

theorem map_of_forall₂ {γ : Type} {R : β → α → Prop} {f : β → γ} {g : α → γ} (hR : ∀ b a, R b a → g a = f b) :
    ∀ {bs : List β} {as : List α}, List.Forall₂ R bs as → as.map g = bs.map f
  | _, _, .nil => rfl
  | _, _, .cons h hrest => congrArg₂ List.cons (hR _ _ h) (map_of_forall₂ hR hrest)

theorem mem_of_forall₂ {R : β → α → Prop} {a : α} :
    ∀ {bs : List β} {as : List α}, List.Forall₂ R bs as → a ∈ as → ∃ b ∈ bs, R b a
  | [], _, .nil, ha => by cases ha
  | b :: _, _, .cons h hrest, ha => by
    rcases List.mem_cons.mp ha with rfl | ha
    · exact ⟨b, List.mem_cons_self, h⟩
    · obtain ⟨c, hc, hR⟩ := mem_of_forall₂ hrest ha
      exact ⟨c, List.mem_cons_of_mem _ hc, hR⟩

/-- **Invariant rule for a loop.** -/
theorem yields_drawWhile {more : σ → Bool} {n : ℕ} {f : σ → ℕ → σ} {I : σ → Prop} (hn : 0 < n)
    (hstep : ∀ s d, I s → more s = true → d < n → I (f s d)) {s : σ} (hs : I s) :
    Yields (drawWhile more n f s) (fun t => I t ∧ more t = false) := by
  intro tape
  induction tape generalizing s with
  | nil =>
    intro t rest hrun
    change loop more n f s [] = _ at hrun
    unfold loop at hrun
    split_ifs at hrun with hmore
    obtain ⟨rfl, -⟩ := Prod.mk.inj (Option.some.inj hrun)
    exact ⟨hs, Bool.eq_false_iff.mpr hmore⟩
  | cons d tape ih =>
    intro t rest hrun
    change loop more n f s (d :: tape) = _ at hrun
    unfold loop at hrun
    split_ifs at hrun with hmore
    · exact ih (hstep s _ hs hmore (Nat.mod_lt d hn)) t rest hrun
    · obtain ⟨rfl, -⟩ := Prod.mk.inj (Option.some.inj hrun)
      exact ⟨hs, Bool.eq_false_iff.mpr hmore⟩

end Yields

/-! ## Sources of draws -/

section Answers

variable {m : Draws α} {f : α → Draws β} {P : α → Prop} {source : ℕ → ℕ}

/-- The `n` draws from the `k`-th on. -/
def window (source : ℕ → ℕ) (k n : ℕ) : List ℕ := (List.range n).map fun i => source (k + i)

theorem window_add (source : ℕ → ℕ) (k m n : ℕ) :
    window source k (m + n) = window source k m ++ window source (k + m) n := by
  rw [window, List.range_add, List.map_append, List.map_map]
  simp only [window, Function.comp_def, Nat.add_assoc]

theorem window_succ (source : ℕ → ℕ) (k n : ℕ) :
    window source k (n + 1) = source k :: window source (k + 1) n := by
  rw [Nat.add_comm n 1, window_add]
  rfl

/-- **The computation comes to a result** on the draws of the source, wherever it starts. -/
def Answers (source : ℕ → ℕ) (m : Draws α) : Prop := ∀ k, ∃ n a, m.run (window source k n) = some (a, [])

/-- Every answer to a draw comes up again and again. -/
def Fair (source : ℕ → ℕ) : Prop := ∀ n v k, v < n → ∃ j, source (k + j) % n = v

/-- A source that counts up to every number infinitely often. -/
theorem fair_unpair : Fair fun k => k.unpair.1 := by
  intro n v k hv
  refine ⟨Nat.pair v k - k, ?_⟩
  have hle : k ≤ Nat.pair v k := Nat.right_le_pair v k
  rw [Nat.add_sub_of_le hle]
  dsimp only
  rw [Nat.unpair_pair]
  exact Nat.mod_eq_of_lt hv

theorem answers_pure (a : α) : Answers source (pure a) := fun _ => ⟨0, a, rfl⟩

theorem answers_bind (hm : Answers source m) (hy : Yields m P) (hf : ∀ a, P a → Answers source (f a)) :
    Answers source (m >>= f) := by
  intro k
  obtain ⟨i, a, ha⟩ := hm k
  obtain ⟨j, b, hb⟩ := hf a (hy _ _ _ ha) (k + i)
  refine ⟨i + j, b, ?_⟩
  show (m.run (window source k (i + j))).bind (fun p => (f p.1).run p.2) = _
  rw [window_add, m.frame _ ha, Option.bind_some]
  exact hb

theorem answers_seq (hm : Answers source m) (hf : ∀ a, Answers source (f a)) : Answers source (m >>= f) :=
  answers_bind (P := fun _ => True) hm (fun _ _ _ _ => trivial) fun a _ => hf a

theorem answers_ofOption {o : Option α} (h : o ≠ none) : Answers source (ofOption o) := by
  obtain ⟨a, rfl⟩ := Option.ne_none_iff_exists'.mp h
  exact fun _ => ⟨0, a, rfl⟩

theorem answers_intn {n : ℕ} (h : 0 < n) : Answers source (intn n) := by
  intro k
  refine ⟨1, source k % n, ?_⟩
  show (if n = 0 then none else some (source k % n, [])) = _
  rw [if_neg (Nat.pos_iff_ne_zero.mp h)]

theorem answers_pick {xs : List α} (h : xs ≠ []) : Answers source (pick xs) := by
  refine answers_bind (answers_intn (List.length_pos_of_ne_nil h)) (yields_intn _) fun i hi => ?_
  rw [List.getElem?_eq_getElem hi]
  exact answers_ofOption (Option.some_ne_none _)

theorem answers_each {f : β → Draws α} :
    ∀ {xs : List β}, (∀ b ∈ xs, Answers source (f b)) → Answers source (each f xs)
  | [], _ => answers_pure []
  | b :: xs, h => by
    refine answers_seq (h b List.mem_cons_self) fun a => ?_
    exact answers_seq (answers_each fun c hc => h c (List.mem_cons_of_mem _ hc)) fun as => answers_pure _

/-- **Termination of a loop that draws** until it is done: a draw leaves the state as it is or brings it nearer to
the end, and in each state some draw does. -/
theorem answers_drawWhile {more : σ → Bool} {n : ℕ} {f : σ → ℕ → σ} {I : σ → Prop} (measure : σ → ℕ)
    (hfair : Fair source) (hn : 0 < n) (hstep : ∀ s d, I s → more s = true → d < n → I (f s d))
    (hstay : ∀ s d, I s → more s = true → f s d = s ∨ measure (f s d) < measure s)
    (hmove : ∀ s, I s → more s = true → ∃ d < n, measure (f s d) < measure s) {s : σ} (hs : I s) :
    Answers source (drawWhile more n f s) := by
  generalize hm : measure s = size
  induction size using Nat.strongRecOn generalizing s with
  | ind size outer =>
    intro k
    by_cases hmore : more s = true
    · obtain ⟨v, hv, hless⟩ := hmove s hs hmore
      obtain ⟨wait, hwait⟩ := hfair n v k hv
      -- by then the state has changed, or the draw that changes it has come
      induction wait generalizing k with
      | zero =>
        rw [Nat.add_zero] at hwait
        obtain ⟨j, t, ht⟩ := outer _ (hm ▸ hless) (hstep s v hs hmore hv) rfl (k + 1)
        refine ⟨j + 1, t, ?_⟩
        rw [window_succ]
        show loop more n f s (source k :: window source (k + 1) j) = _
        rw [loop, if_pos hmore, hwait]
        exact ht
      | succ wait inner =>
        have hnext : ∃ j t, loop more n f (f s (source k % n)) (window source (k + 1) j) = some (t, []) := by
          rcases hstay s (source k % n) hs hmore with hsame | hlower
          · rw [hsame]
            exact inner (k + 1) (by rw [Nat.add_assoc, Nat.add_comm 1 wait]; exact hwait)
          · exact outer _ (hm ▸ hlower) (hstep s _ hs hmore (Nat.mod_lt _ hn)) rfl (k + 1)
        obtain ⟨j, t, ht⟩ := hnext
        refine ⟨j + 1, t, ?_⟩
        rw [window_succ]
        show loop more n f s (source k :: window source (k + 1) j) = _
        rw [loop, if_pos hmore]
        exact ht
    · refine ⟨0, s, ?_⟩
      show loop more n f s [] = _
      rw [loop, if_neg hmore]

end Answers

end Draws
