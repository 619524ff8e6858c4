import AgenticAttribution.Settlement.Progress

/-!
# Settlement.Refusals — a refused settlement costs nothing durable

A call that returns an error before it pays has written nothing: among any number of other calls, the run without
its steps goes through and ends in the same database (`refusal_leaves_nothing`).  The one error this leaves out is
that of a commit which took effect and whose acknowledgement was lost.
-/

namespace Settlement

open Attribution

section Store

/-- An error of `Begin` before its commit leaves the database as it was. -/
theorem Store.begin_rolled_back {d : Driver} {db db' : DB} {p : PendingSettlement} {fate : Fate} {e : Err}
    (h : Store.begin d db p fate = (db', some e)) (hfate : ∀ why, fate ≠ .unacknowledged why) : db' = db := by
  unfold Store.begin at h
  cases htx : Store.beginTx d db p fate with
  | error e' =>
    rw [htx] at h
    exact (Prod.mk.inj h).1.symm
  | ok after =>
    rw [htx] at h
    cases fate with
    | unacknowledged why => exact absurd rfl (hfate why)
    | done => cases (Prod.mk.inj h).2
    | lost stmt why => cases (Prod.mk.inj h).2

end Store

/-! ## The steps of one call -/

section Own

variable {svc : Service} {s t : Sys} {a : Action} {c : ℕ} {call new : Call}

theorem put_put (s : Sys) (c : ℕ) (x y : Call) : (s.put c x).put c y = s.put c y :=
  congrArg (fun l => { s with calls := l }) (List.set_set x)

theorem put_self (hc : s.calls[c]? = some call) : s.put c call = s := by
  obtain ⟨hlt, rfl⟩ := List.getElem?_eq_some_iff.mp hc
  exact congrArg (fun l => { s with calls := l }) (List.set_getElem_self hlt)

/-- A call that has returned no more than an error, and claimed nothing. -/
def Pc.harmless : Pc → Prop
  | verified | checked _ | accepted _ | returned (.error _) => True
  | _ => False

/-- A call that has claimed an assertion and not paid yet, or that has been answered. -/
def Pc.pastReturn : Pc → Prop
  | claimed _ | answered _ => True
  | _ => False

/-- The step of a harmless call changes nothing but the call, unless it claims the assertion, answers, or loses the
acknowledgement of its commit. -/
theorem own_step (hcaller : a.caller = some c) (hc : s.calls[c]? = some call) (hpc : call.pc.harmless)
    (hrolled : ∀ newID why, a ≠ .begin c newID (.unacknowledged why)) (h : step svc s a = some t) :
    ∃ new, t.calls[c]? = some new ∧ ((t = s.put c new ∧ new.pc.harmless) ∨ new.pc.pastReturn) := by
  have hself : ∀ (s' : Sys) (new : Call), s'.calls = s.calls → (s'.put c new).calls[c]? = some new := by
    intro s' new hs'
    rw [get_put (hs' ▸ hc) c, if_pos rfl]
  cases a with
  | lookup c' pick fate =>
    obtain rfl := Option.some.inj hcaller
    obtain ⟨call', hc', -, rfl⟩ := step_lookup_iff.mp h
    obtain rfl := Option.some.inj (hc.symm.trans hc')
    refine ⟨_, hself s _ rfl, Or.inl ⟨rfl, ?_⟩⟩
    rcases svc.lookup_cases s call pick fate with ⟨e, he⟩ | ⟨l, hl, -⟩
    · simp only [he, Pc.harmless]
    · simp only [hl, Pc.harmless]
  | verifyPayment c' answer =>
    obtain rfl := Option.some.inj hcaller
    obtain ⟨call', listing, hc', -, rfl⟩ := step_verifyPayment_iff.mp h
    obtain rfl := Option.some.inj (hc.symm.trans hc')
    refine ⟨_, hself s _ rfl, Or.inl ⟨rfl, ?_⟩⟩
    unfold verifyPc
    cases checkVerified answer with
    | some e => exact trivial
    | none => exact trivial
  | begin c' newID fate =>
    obtain rfl := Option.some.inj hcaller
    obtain ⟨call', listing, db, r, hc', -, hb, rfl⟩ := step_begin_iff.mp h
    obtain rfl := Option.some.inj (hc.symm.trans hc')
    refine ⟨_, hself { s with db } _ rfl, ?_⟩
    cases r with
    | none => exact Or.inr trivial
    | some e =>
      have hdb : db = s.db := Store.begin_rolled_back hb (fun why hwhy => hrolled newID why (by rw [hwhy]))
      exact Or.inl ⟨by rw [hdb], trivial⟩
  | journal c' fate =>
    obtain rfl := Option.some.inj hcaller
    obtain ⟨call', result, hc', -, rfl⟩ := step_journal_iff.mp h
    obtain rfl := Option.some.inj (hc.symm.trans hc')
    exact ⟨_, hself { s with db := _ } _ rfl, Or.inr trivial⟩
  | enter | mint | catalog | reject => cases hcaller
  | _ =>
    obtain rfl := Option.some.inj hcaller
    simp only [step, hc, Option.bind_eq_bind, Option.bind_some] at h
    cases hpc' : call.pc <;> simp only [hpc', Pc.harmless, reduceCtorEq] at hpc h

/-- A call past its return, or between its claim and its payment, takes no step without paying. -/
theorem past_step (hcaller : a.caller = some c) (hc : s.calls[c]? = some call) (hpc : call.pc.pastReturn)
    (hpaid : ∀ moved answer, a ≠ .settlePayment c moved answer) : step svc s a = none := by
  cases a with
  | enter | mint | catalog | reject => cases hcaller
  | settlePayment c' moved answer =>
    obtain rfl := Option.some.inj hcaller
    exact absurd rfl (hpaid moved answer)
  | _ =>
    obtain rfl := Option.some.inj hcaller
    simp only [step, hc, Option.bind_eq_bind, Option.bind_some]
    cases hpc' : call.pc <;> simp only [hpc', Pc.pastReturn] at hpc ⊢

end Own

/-! ## The steps of the others -/

section Others

variable {svc : Service} {s t : Sys} {a : Action} {c : ℕ} {call : Call}

theorem get_put_ne (x : Call) {i : ℕ} (h : i ≠ c) : (s.put c x).calls[i]? = s.calls[i]? :=
  List.getElem?_set_ne (Ne.symm h)

/-- The steps of the others do not look at a call. -/
theorem step_put (hcaller : a.caller ≠ some c) (hlt : c < s.calls.length) (x : Call) (h : step svc s a = some t) :
    step svc (s.put c x) a = some (t.put c x) := by
  cases a with
  | enter req now =>
    obtain rfl := Option.some.inj h
    exact congrArg (fun l => some { s with calls := l }) (List.set_append_left _ _ hlt).symm
  | mint args =>
    obtain ⟨hr, rfl⟩ := step_mint_iff.mp h
    exact step_mint_iff.mpr ⟨hr, rfl⟩
  | catalog new =>
    obtain ⟨hx, rfl⟩ := step_catalog_iff.mp h
    exact step_catalog_iff.mpr ⟨hx, rfl⟩
  | reject body fate =>
    obtain rfl := Option.some.inj h
    rfl
  | verifyPayment i answer =>
    have hne : i ≠ c := fun hi => hcaller (congrArg some hi)
    obtain ⟨call', hc', h⟩ := Option.bind_eq_some_iff.mp h
    refine Option.bind_eq_some_iff.mpr ⟨call', (get_put_ne x hne).trans hc', ?_⟩
    cases hpc : call'.pc <;> simp only [hpc, reduceCtorEq] at h ⊢
    cases hv : checkVerified answer <;> simp only [hv] at h ⊢
    all_goals
      obtain rfl := Option.some.inj h
      exact congrArg (fun l => some (Sys.mk _ l _ _)) (List.set_comm x _ (Ne.symm hne))
  | _ i =>
    have hne : i ≠ c := fun hi => hcaller (congrArg some hi)
    obtain ⟨call', hc', h⟩ := Option.bind_eq_some_iff.mp h
    refine Option.bind_eq_some_iff.mpr ⟨call', (get_put_ne x hne).trans hc', ?_⟩
    split at h
    all_goals first
      | obtain rfl := Option.some.inj h
        exact congrArg (fun l => some (Sys.mk _ l _ _)) (List.set_comm x _ (Ne.symm hne))
      | cases h

/-- No call is ever forgotten. -/
theorem length_step (h : step svc s a = some t) : s.calls.length ≤ t.calls.length := by
  cases moves_of_step h with
  | entered req now =>
    rw [List.length_append]
    exact Nat.le_add_right _ _
  | minted | catalogued | rejected => exact le_rfl
  | _ => exact (List.length_set).ge

/-- The steps of the others leave a call alone. -/
theorem get_of_step (hcaller : a.caller ≠ some c) (hc : s.calls[c]? = some call) (h : step svc s a = some t) :
    t.calls[c]? = some call := by
  have hlt : c < s.calls.length := (List.getElem?_eq_some_iff.mp hc).1
  -- were it another one, putting the call where it stands would make a difference
  have hput := step_put hcaller hlt call h
  rw [put_self hc, h] at hput
  have hcalls : t.calls = t.calls.set c call := congrArg Sys.calls (Option.some.inj hput)
  rw [hcalls, List.getElem?_set_self (Nat.lt_of_lt_of_le hlt (length_step h))]

end Others

/-! ## A run with a refused call in it -/

section Erase

variable {svc : Service} {c : ℕ}

/-- A call that has claimed or been answered does not become a refused one. -/
theorem past_run : ∀ {as : List Action} {s t : Sys} {call : Call}, run svc s as = some t →
    s.calls[c]? = some call → call.pc.pastReturn → (∀ moved answer, .settlePayment c moved answer ∉ as) →
    t.calls[c]? = some call
  | [], s, t, call, h, hc, _, _ => by
    obtain rfl := Option.some.inj h
    exact hc
  | a :: as, s, t, call, h, hc, hpc, hpaid => by
    obtain ⟨u, hu, ht⟩ := Runs.run_cons_eq_some.mp h
    have hcaller : a.caller ≠ some c := by
      intro hcaller
      have hnone : step svc s a = none := past_step hcaller hc hpc fun moved answer ha =>
        hpaid moved answer (ha ▸ List.mem_cons_self)
      rw [hu] at hnone
      cases hnone
    exact past_run ht (get_of_step hcaller hc hu) hpc fun moved answer ha =>
      hpaid moved answer (List.mem_cons_of_mem a ha)

/-- The run without the steps of a call that ends refused, whatever stands in the place of the call. -/
theorem run_erase (x : Call) : ∀ {as : List Action} {s t : Sys} {call last : Call}, run svc s as = some t →
    s.calls[c]? = some call → call.pc.harmless → t.calls[c]? = some last → last.pc.harmless →
    (∀ moved answer, .settlePayment c moved answer ∉ as) →
    (∀ newID why, .begin c newID (.unacknowledged why) ∉ as) →
    run svc (s.put c x) (as.filter fun a => a.caller ≠ some c) = some (t.put c x)
  | [], s, t, call, last, h, _, _, _, _, _, _ => by
    obtain rfl := Option.some.inj h
    rfl
  | a :: as, s, t, call, last, h, hc, hpc, hlast, hharmless, hpaid, hrolled => by
    obtain ⟨u, hu, ht⟩ := Runs.run_cons_eq_some.mp h
    have hpaid' : ∀ moved answer, .settlePayment c moved answer ∉ as := fun moved answer ha =>
      hpaid moved answer (List.mem_cons_of_mem a ha)
    have hrolled' : ∀ newID why, .begin c newID (.unacknowledged why) ∉ as := fun newID why ha =>
      hrolled newID why (List.mem_cons_of_mem a ha)
    by_cases hcaller : a.caller = some c
    · rw [List.filter_cons_of_neg (by simpa using hcaller)]
      obtain ⟨new, hnew, ⟨rfl, hnewpc⟩ | hpast⟩ := own_step hcaller hc hpc
        (fun newID why ha => hrolled newID why (ha ▸ List.mem_cons_self)) hu
      · rw [← put_put s c new x]
        exact run_erase x ht hnew hnewpc hlast hharmless hpaid' hrolled'
      · have hsame := past_run ht hnew hpast hpaid'
        rw [hlast, Option.some.injEq] at hsame
        rw [hsame] at hharmless
        cases hpc' : new.pc <;> simp only [hpc', Pc.harmless, Pc.pastReturn] at hharmless hpast
    · rw [List.filter_cons_of_pos (by simpa using hcaller), run,
        Runs.run_cons_of (step_put hcaller (List.getElem?_eq_some_iff.mp hc).1 x hu)]
      exact run_erase x ht (get_of_step hcaller hc hu) hpc hlast hharmless hpaid' hrolled'

theorem harmless_entered (svc : Service) (req : Request) (now : ℤ) : (svc.entered req now).pc.harmless := by
  unfold Service.entered
  cases svc.verify req now <;> trivial

/-- **A refused settlement costs nothing durable.**  A call that returns an error before it pays, its transactions
rolled back where they failed, is one that the run can do without: the steps of all others go through without it, to
the same database.  Alone, it leaves the database as it was. -/
theorem refusal_leaves_nothing (svc : Service) {s t : Sys} {as : List Action} {req : Request} {now : ℤ}
    {call : Call} {e : Err} (hentered : s.calls[c]? = some (svc.entered req now)) (hrun : run svc s as = some t)
    (hcall : t.calls[c]? = some call) (hreturned : call.pc = .returned (.error e))
    (hunpaid : ∀ moved answer, .settlePayment c moved answer ∉ as)
    (hrolled : ∀ newID why, .begin c newID (.unacknowledged why) ∉ as) :
    (∃ t', run svc s (as.filter fun a => a.caller ≠ some c) = some t' ∧ t'.db = t.db) ∧
      ((∀ a ∈ as, a.caller = some c) → t.db = s.db) := by
  have hharmless : call.pc.harmless := by
    rw [hreturned]
    trivial
  have herase := run_erase (svc.entered req now) hrun hentered (harmless_entered svc req now) hcall hharmless hunpaid
    hrolled
  rw [put_self hentered] at herase
  refine ⟨⟨_, herase, rfl⟩, fun halone => ?_⟩
  have hnil : (as.filter fun a => a.caller ≠ some c) = [] := by
    rw [List.filter_eq_nil_iff]
    intro a ha
    simp only [halone a ha, ne_eq, not_true, decide_false, Bool.false_eq_true, not_false_eq_true]
  rw [hnil] at herase
  have hdb : s.db = (t.put c (svc.entered req now)).db := congrArg Sys.db (Option.some.inj herase)
  exact hdb.symm

end Erase

namespace Sample

/-- The sample catalog with the sample call just entered. -/
def enteredState : Sys := (Sys.init catalog).push (service.entered request 0)

/-- The facilitator takes the payment to be invalid. -/
def refusal : VerifyResponse := ⟨false, Utf8.str "invalid_signature", []⟩

def refusalActions : List Action := [.lookup 0 0 .done, .verifyPayment 0 (.ok refusal)]

def refusedCall : Call :=
  ⟨request, 0, none, .returned (.error (Sentinel.paymentInvalid.err.annotate (Utf8.str ": invalid_signature")))⟩

theorem entered_eq : service.entered request 0 = ⟨request, 0, none, .verified⟩ := by
  simp only [Service.entered, verify_eq_none]

theorem run_refusalActions :
    run service enteredState refusalActions = some ((Sys.init catalog).push refusedCall) := by
  have hlookup : step service ((Sys.init catalog).push ⟨request, 0, none, .verified⟩) (.lookup 0 0 .done)
      = some ((Sys.init catalog).push ⟨request, 0, none, .checked listingRow.listing⟩) :=
    step_found rfl claimable.found claimable.matching
  unfold enteredState refusalActions run
  rw [entered_eq]
  refine (Runs.run_cons_of hlookup _).trans ((Runs.run_cons_of (step_verifyPayment (.ok refusal) rfl) _).trans ?_)
  rfl

end Sample

theorem refusal_leaves_nothing_sample :
    ((Sys.init Sample.catalog).push Sample.refusedCall).db = Sample.enteredState.db := by
  refine (refusal_leaves_nothing Sample.service (c := 0) rfl Sample.run_refusalActions rfl rfl ?_ ?_).2 ?_
  · intro moved answer h
    simp [Sample.refusalActions] at h
  · intro newID why h
    simp [Sample.refusalActions] at h
  · intro a ha
    simp only [Sample.refusalActions, List.mem_cons, List.not_mem_nil, or_false] at ha
    rcases ha with rfl | rfl <;> rfl

end Settlement
