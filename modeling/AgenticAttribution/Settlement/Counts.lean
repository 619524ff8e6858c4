import AgenticAttribution.Settlement.Watch

/-!
# Settlement.Counts — blocked attempts and failed settlements

An attempt that was refused is to count as blocked, one whose payment fell over behind its claim as failed, and none
as both.  The two are written by different code, and `counts_once_iff` says in which runs it comes out right.
-/

namespace Settlement

open Attribution

/-! ## What is asked -/

/-- **An attempt counts once, and where it belongs.**  The calls are those that `handleSettle` has answered. -/
structure CountsOnce (w : Watched) : Prop where
  notBoth : ∀ c publisherID, w.blocked c publisherID = 0 ∨ w.failed c publisherID = 0
  /-- A payment that fell over behind its claim is a failed settlement. -/
  fallen : ∀ c call e, w.sys.calls[c]? = some call → call.pc = .answered (.error e) → w.FellOver c →
    ∀ publisherID, w.failed c publisherID = call.one publisherID ∧ w.blocked c publisherID = 0
  /-- A refusal before any payment is a blocked attempt, unless it was the platform that failed. -/
  refused : ∀ c call e, w.sys.calls[c]? = some call → call.pc = .answered (.error e) → ¬w.Paid c →
    (statusFor e).2 ≠ .internalError →
    ∀ publisherID, w.blocked c publisherID = call.one publisherID ∧ w.failed c publisherID = 0

/-- A step that journals an answer is right if a payment that fell over has been marked failed and is not
journalled, and a refusal before any payment is. -/
def Meets (w : Watched) : Action → Prop
  | .journal c fate => ∀ call e, w.sys.calls[c]? = some call → call.pc = .returned (.error e) →
    (w.FellOver c → w.Failed c ∧ ¬Stored call.req e fate) ∧
      (¬w.Paid c → (statusFor e).2 ≠ .internalError → Stored call.req e fate)
  | _ => True

/-! ## Blame -/

section Blame

variable {svc : Service} {w w' : Watched} {a : Action} {c : ℕ}

/-- A step of a call starts before its answer, and only the journalling ends behind it. -/
theorem turned_of_step {s t : Sys} (h : step svc s a = some t) (ha : a.caller = some c) :
    ∃ call new, s.calls[c]? = some call ∧ t.calls = s.calls.set c new ∧ (∀ r, call.pc ≠ .answered r) ∧
      ((∀ fate, a ≠ .journal c fate) → ∀ r, new.pc ≠ .answered r) := by
  cases a with
  | enter req now => cases ha
  | lookup c' pick fate =>
    obtain rfl := Option.some.inj ha
    obtain ⟨call, hc, hpc, ht⟩ := step_lookup_iff.mp h
    refine ⟨call, _, hc, by rw [ht]; rfl, by rw [hpc]; exact fun _ => Pc.noConfusion, fun _ r he => ?_⟩
    rcases svc.lookup_cases s call pick fate with ⟨e, hn⟩ | ⟨l, hn, -⟩ <;> cases hn.symm.trans he
  | verifyPayment c' answer =>
    obtain rfl := Option.some.inj ha
    obtain ⟨call, listing, hc, hpc, ht⟩ := step_verifyPayment_iff.mp h
    refine ⟨call, _, hc, by rw [ht]; rfl, by rw [hpc]; exact fun _ => Pc.noConfusion, fun _ r he => ?_⟩
    unfold verifyPc at he
    cases hv : checkVerified answer <;> rw [hv] at he <;> cases he
  | begin c' newID fate =>
    obtain rfl := Option.some.inj ha
    obtain ⟨call, listing, db, r, hc, hpc, -, ht⟩ := step_begin_iff.mp h
    refine ⟨call, _, hc, by rw [ht]; rfl, by rw [hpc]; exact fun _ => Pc.noConfusion, fun _ r' he => ?_⟩
    cases r <;> cases he
  | settlePayment c' moved answer =>
    obtain rfl := Option.some.inj ha
    obtain ⟨call, p, hc, hpc, ht⟩ := step_settlePayment_iff.mp h
    refine ⟨call, _, hc, by rw [ht]; rfl, by rw [hpc]; exact fun _ => Pc.noConfusion, fun _ r he => ?_⟩
    unfold settlePc at he
    cases hs : settleFailure answer <;> rw [hs] at he <;> cases he
  | confirm c' now fate =>
    obtain rfl := Option.some.inj ha
    obtain ⟨call, p, response, db, r, hc, hpc, -, ht⟩ := step_confirm_iff.mp h
    refine ⟨call, _, hc, by rw [ht]; rfl, by rw [hpc]; exact fun _ => Pc.noConfusion, fun _ r' he => ?_⟩
    cases r <;> cases he
  | fail c' fate =>
    obtain rfl := Option.some.inj ha
    obtain ⟨call, p, err, db, r, hc, hpc, -, ht⟩ := step_fail_iff.mp h
    exact ⟨call, _, hc, by rw [ht]; rfl, by rw [hpc]; exact fun _ => Pc.noConfusion, fun _ r => Pc.noConfusion⟩
  | journal c' fate =>
    obtain rfl := Option.some.inj ha
    obtain ⟨call, result, hc, hpc, ht⟩ := step_journal_iff.mp h
    exact ⟨call, _, hc, by rw [ht]; rfl, by rw [hpc]; exact fun _ => Pc.noConfusion, fun hne => absurd rfl (hne fate)⟩
  | mint args => cases ha
  | catalog new => cases ha
  | reject body fate => cases ha

/-- The calls behind a step of nobody's: as they were, or one more. -/
theorem calls_of_step {s t : Sys} (h : step svc s a = some t) (ha : a.caller = none) :
    t.calls = s.calls ∨ ∃ req now, t.calls = s.calls ++ [svc.entered req now] := by
  cases a with
  | enter req now =>
    obtain rfl := Option.some.inj h
    exact Or.inr ⟨req, now, rfl⟩
  | mint args =>
    obtain ⟨-, rfl⟩ := step_mint_iff.mp h
    exact Or.inl rfl
  | catalog new =>
    obtain ⟨-, rfl⟩ := step_catalog_iff.mp h
    exact Or.inl rfl
  | reject body fate =>
    obtain rfl := Option.some.inj h
    exact Or.inl rfl
  | _ => cases ha

/-- Another call's answer is not touched. -/
theorem answered_of_step {s t : Sys} (h : step svc s a = some t) (ha : a.caller ≠ some c) {call : Call}
    {r : Except Err Result} :
    (t.calls[c]? = some call ∧ call.pc = .answered r) ↔ (s.calls[c]? = some call ∧ call.pc = .answered r) := by
  cases hcaller : a.caller with
  | some c' =>
    obtain ⟨call', new, hc', hcalls, -⟩ := turned_of_step h hcaller
    have hne : c' ≠ c := fun he => ha (by rw [hcaller, he])
    rw [hcalls, List.getElem?_set_ne hne]
  | none =>
    rcases calls_of_step h hcaller with hcalls | ⟨req, now, hcalls⟩
    · rw [hcalls]
    · rw [hcalls]
      rcases lt_or_ge c s.calls.length with hlt | hge
      · rw [List.getElem?_append_left hlt]
      · rw [List.getElem?_append_right hge, List.getElem?_eq_none hge]
        constructor
        · rintro ⟨hc, hpc⟩
          obtain rfl := List.mem_singleton.mp (List.mem_of_getElem? hc)
          unfold Service.entered at hpc
          cases hv : svc.verify req now <;> rw [hv] at hpc <;> cases hpc
        · rintro ⟨hc, -⟩
          cases hc

/-- What `CountsOnce` says of one call. -/
structure OnceFor (w : Watched) (c : ℕ) : Prop where
  notBoth : ∀ publisherID, w.blocked c publisherID = 0 ∨ w.failed c publisherID = 0
  fallen : ∀ call e, w.sys.calls[c]? = some call ∧ call.pc = .answered (.error e) → w.FellOver c →
    ∀ publisherID, w.failed c publisherID = call.one publisherID ∧ w.blocked c publisherID = 0
  refused : ∀ call e, w.sys.calls[c]? = some call ∧ call.pc = .answered (.error e) → ¬w.Paid c →
    (statusFor e).2 ≠ .internalError →
    ∀ publisherID, w.blocked c publisherID = call.one publisherID ∧ w.failed c publisherID = 0

theorem countsOnce_iff : CountsOnce w ↔ ∀ c, OnceFor w c := by
  constructor
  · intro h c
    exact ⟨h.notBoth c, fun call e hc => h.fallen c call e hc.1 hc.2, fun call e hc => h.refused c call e hc.1 hc.2⟩
  · intro h
    exact ⟨fun c => (h c).notBoth, fun c call e hc hpc => (h c).fallen call e ⟨hc, hpc⟩,
      fun c call e hc hpc => (h c).refused call e ⟨hc, hpc⟩⟩

theorem onceFor_frame (hw : watch svc w a = some w') (ha : a.caller ≠ some c) : OnceFor w' c ↔ OnceFor w c := by
  obtain ⟨hb, hf⟩ := booked_other hw ha
  obtain ⟨hpaid, hfell⟩ := paid_watch_other hw (c := c) fun moved answer he => ha (by rw [he]; rfl)
  have hanswered : ∀ call e, (w'.sys.calls[c]? = some call ∧ call.pc = .answered (.error e)) ↔
      (w.sys.calls[c]? = some call ∧ call.pc = .answered (.error e)) :=
    fun call e => answered_of_step (watch_eq_some hw).1 ha
  constructor
  · rintro ⟨h1, h2, h3⟩
    simp only [hb, hf, hpaid, hfell, hanswered] at h1 h2 h3
    exact ⟨h1, h2, h3⟩
  · rintro ⟨h1, h2, h3⟩
    simp only [← hb, ← hf, ← hpaid, ← hfell, ← hanswered] at h1 h2 h3
    exact ⟨h1, h2, h3⟩

/-- Before its answer, a call counts nowhere as blocked. -/
theorem onceFor_of_open (h : Booked w) (hopen : ∀ call r, w.sys.calls[c]? = some call → call.pc ≠ .answered r) :
    OnceFor w c := by
  refine ⟨fun publisherID => Or.inl ?_, fun call e hc => absurd hc.2 (hopen call _ hc.1),
    fun call e hc => absurd hc.2 (hopen call _ hc.1)⟩
  cases hc : w.sys.calls[c]? with
  | none => exact ((h.fresh c (List.getElem?_eq_none_iff.mp hc)).1 publisherID).1
  | some call => exact (h.calls c call hc).blocked (fun r => hopen call r hc) publisherID

/-- The journal of an answer is the first to book a blocked attempt. -/
theorem blocked_journal (h : Booked w) {fate : Fate} (hw : watch svc w (.journal c fate) = some w') {call : Call}
    {result : Except Err Result} (hc : w.sys.calls[c]? = some call) (hpc : call.pc = .returned result)
    (publisherID : Bytes) : w'.blocked c publisherID =
      (w'.sys.db.blockedCount publisherID : ℤ) - w.sys.db.blockedCount publisherID := by
  have hzero : w.blocked c publisherID = 0 :=
    (h.calls c call hc).blocked (by rw [hpc]; exact fun _ => Pc.noConfusion) publisherID
  have hb := (booked_caller hw rfl publisherID).1
  rw [hzero] at hb
  omega

/-- A refusal is booked to its publisher if it is stored. -/
theorem blocked_refusal (h : Booked w) {fate : Fate} (hw : watch svc w (.journal c fate) = some w') {call : Call}
    {e : Err} (hc : w.sys.calls[c]? = some call) (hpc : call.pc = .returned (.error e)) (publisherID : Bytes) :
    w'.blocked c publisherID = if Stored call.req e fate then call.one publisherID else 0 := by
  obtain ⟨call', result, hc', hpc', ht⟩ := step_journal_iff.mp (watch_eq_some hw).1
  obtain rfl := Option.some.inj (hc.symm.trans hc')
  obtain rfl := Pc.returned.inj (hpc.symm.trans hpc')
  have hcount : w'.sys.db.blockedCount publisherID = w.sys.db.blockedCount publisherID +
      if Stored call.req e fate then if publisherID = call.req.assertion.publisherID then 1 else 0 else 0 := by
    rw [ht]
    exact blockedCount_journal call.req e fate publisherID
  rw [blocked_journal h hw hc hpc, hcount]
  unfold Call.one
  split_ifs <;> push_cast <;> omega

/-- A payment is no blocked attempt. -/
theorem onceFor_of_paid (h : Booked w) {fate : Fate} (hw : watch svc w (.journal c fate) = some w') {call : Call}
    {r : Result} (hc : w.sys.calls[c]? = some call) (hpc : call.pc = .returned (.ok r)) : OnceFor w' c := by
  obtain ⟨call', result, hc', hpc', ht⟩ := step_journal_iff.mp (watch_eq_some hw).1
  obtain rfl := Option.some.inj (hc.symm.trans hc')
  obtain rfl := Pc.returned.inj (hpc.symm.trans hpc')
  have hnew : w'.sys.calls[c]? = some { call with pc := .answered (.ok r) } := by
    rw [ht]
    exact List.getElem?_set_self (List.getElem?_eq_some_iff.mp hc).1
  have hpaid : ∀ call' e, ¬(w'.sys.calls[c]? = some call' ∧ call'.pc = .answered (.error e)) := by
    rintro call' e ⟨hc', hpc'⟩
    obtain rfl := Option.some.inj (hnew.symm.trans hc')
    cases hpc'
  refine ⟨fun publisherID => Or.inl ?_, fun call' e he => absurd he (hpaid call' e),
    fun call' e he => absurd he (hpaid call' e)⟩
  rw [blocked_journal h hw hc hpc, ht]
  exact sub_self _

/-- What `OnceFor` asks of a call whose refusal has been journalled. -/
theorem onceFor_refusal_iff {fate : Fate} (hw : watch svc w (.journal c fate) = some w') {call : Call} {e : Err}
    (hc : w.sys.calls[c]? = some call) (hpc : call.pc = .returned (.error e)) :
    OnceFor w' c ↔ (∀ publisherID, w'.blocked c publisherID = 0 ∨ w.failed c publisherID = 0) ∧
      (w.FellOver c → ∀ publisherID, w.failed c publisherID = call.one publisherID ∧ w'.blocked c publisherID = 0) ∧
      (¬w.Paid c → (statusFor e).2 ≠ .internalError →
        ∀ publisherID, w'.blocked c publisherID = call.one publisherID ∧ w.failed c publisherID = 0) := by
  obtain ⟨call', result, hc', hpc', ht⟩ := step_journal_iff.mp (watch_eq_some hw).1
  obtain rfl := Option.some.inj (hc.symm.trans hc')
  obtain rfl := Pc.returned.inj (hpc.symm.trans hpc')
  obtain ⟨hpaid, hfell⟩ := paid_watch_other hw (c := c) fun moved answer he => by cases he
  have hnew : w'.sys.calls[c]? = some { call with pc := .answered (.error e) } := by
    rw [ht]
    exact List.getElem?_set_self (List.getElem?_eq_some_iff.mp hc).1
  constructor
  · rintro ⟨hnotBoth, hfallen, hrefused⟩
    simp only [failed_journal hw, hpaid, hfell] at hnotBoth hfallen hrefused
    have hfallen := hfallen _ e ⟨hnew, rfl⟩
    have hrefused := hrefused _ e ⟨hnew, rfl⟩
    exact ⟨hnotBoth, hfallen, hrefused⟩
  · rintro ⟨hnotBoth, hfallen, hrefused⟩
    simp only [← failed_journal hw, ← hpaid, ← hfell] at hnotBoth hfallen hrefused
    refine ⟨hnotBoth, ?_, ?_⟩
    · rintro call' e' ⟨hc', -⟩
      obtain rfl := Option.some.inj (hnew.symm.trans hc')
      exact hfallen
    · rintro call' e' ⟨hc', hpc'⟩
      obtain rfl := Option.some.inj (hnew.symm.trans hc')
      obtain rfl := Except.error.inj (Pc.answered.inj hpc')
      exact hrefused

theorem meets_journal_iff {fate : Fate} {call : Call} {e : Err} (hc : w.sys.calls[c]? = some call)
    (hpc : call.pc = .returned (.error e)) : Meets w (.journal c fate) ↔
      (w.FellOver c → w.Failed c ∧ ¬Stored call.req e fate) ∧
        (¬w.Paid c → (statusFor e).2 ≠ .internalError → Stored call.req e fate) := by
  refine ⟨fun h => h call e hc hpc, fun h call' e' hc' hpc' => ?_⟩
  obtain rfl := Option.some.inj (hc.symm.trans hc')
  obtain rfl := Except.error.inj (Pc.returned.inj (hpc.symm.trans hpc'))
  exact h

/-- **The answer decides.** -/
theorem onceFor_journal_iff (h : Booked w) {fate : Fate} (hw : watch svc w (.journal c fate) = some w') :
    OnceFor w' c ↔ Meets w (.journal c fate) := by
  obtain ⟨call, result, hc, hpc, -⟩ := step_journal_iff.mp (watch_eq_some hw).1
  have htally := h.calls c call hc
  have hmine : call.one call.req.assertion.publisherID = 1 := if_pos rfl
  cases result with
  | ok r =>
    refine iff_of_true (onceFor_of_paid h hw hc hpc) fun call' e hc' hpc' => ?_
    obtain rfl := Option.some.inj (hc.symm.trans hc')
    cases hpc.symm.trans hpc'
  | error e =>
    rw [onceFor_refusal_iff hw hc hpc, meets_journal_iff hc hpc]
    simp only [blocked_refusal h hw hc hpc]
    constructor
    · rintro ⟨-, hfallen, hrefused⟩
      refine ⟨fun hf => ?_, fun hnp hni => ?_⟩
      · obtain ⟨hmarked, hclean⟩ := hfallen hf call.req.assertion.publisherID
        constructor
        · by_contra hnot
          rw [htally.unmarked hnot] at hmarked
          exact absurd (hmarked.trans hmine) (by decide)
        · intro hs
          rw [if_pos hs, hmine] at hclean
          exact absurd hclean (by decide)
      · obtain ⟨hone, -⟩ := hrefused hnp hni call.req.assertion.publisherID
        by_contra hs
        rw [if_neg hs] at hone
        exact absurd (hone.trans hmine) (by decide)
    · rintro ⟨hfallen, hrefused⟩
      -- what is marked failed fell over, so it is not journalled
      have hquiet : Stored call.req e fate → ¬w.Failed c := fun hs hf => (hfallen (htally.fell hf)).2 hs
      refine ⟨fun publisherID => ?_, fun hf publisherID => ?_, fun hnp hni publisherID => ?_⟩
      · by_cases hs : Stored call.req e fate
        · exact Or.inr (htally.unmarked (hquiet hs) publisherID)
        · exact Or.inl (if_neg hs)
      · obtain ⟨hmarked, hnot⟩ := hfallen hf
        exact ⟨htally.marked hmarked publisherID, if_neg hnot⟩
      · have hs := hrefused hnp hni
        exact ⟨if_pos hs, htally.unmarked (hquiet hs) publisherID⟩

/-- **One step**: the counts stay right exactly if the step meets the condition. -/
theorem countsOnce_step (h : Booked w) (hw : watch svc w a = some w') :
    CountsOnce w' ↔ CountsOnce w ∧ Meets w a := by
  have hs := (watch_eq_some hw).1
  have hbooked := booked_step h hw
  rw [countsOnce_iff, countsOnce_iff]
  by_cases hj : ∃ c fate, a = .journal c fate
  · obtain ⟨c, fate, rfl⟩ := hj
    obtain ⟨call, new, hc, -, hopen, -⟩ := turned_of_step hs rfl
    have hbefore : OnceFor w c := onceFor_of_open h fun call' r hc' => by
      obtain rfl := Option.some.inj (hc.symm.trans hc')
      exact hopen r
    rw [← onceFor_journal_iff h hw]
    constructor
    · intro hall
      refine ⟨fun i => ?_, hall c⟩
      by_cases hi : c = i
      · exact hi ▸ hbefore
      · exact (onceFor_frame hw fun he => hi (Option.some.inj he)).mp (hall i)
    · rintro ⟨hall, hmine⟩ i
      by_cases hi : c = i
      · exact hi ▸ hmine
      · exact (onceFor_frame hw fun he => hi (Option.some.inj he)).mpr (hall i)
  · have hmeets : Meets w a := by
      cases a with
      | journal c fate => exact absurd ⟨c, fate, rfl⟩ hj
      | _ => trivial
    have hsame : ∀ c, OnceFor w' c ↔ OnceFor w c := by
      intro c
      by_cases ha : a.caller = some c
      · obtain ⟨call, new, hc, hcalls, hopen, hopen'⟩ := turned_of_step hs ha
        have hlt : c < w.sys.calls.length := (List.getElem?_eq_some_iff.mp hc).1
        refine iff_of_true (onceFor_of_open hbooked fun call' r hc' => ?_) (onceFor_of_open h fun call' r hc' => ?_)
        · rw [hcalls, List.getElem?_set_self hlt] at hc'
          obtain rfl := Option.some.inj hc'
          exact hopen' (fun fate he => hj ⟨c, fate, he⟩) r
        · obtain rfl := Option.some.inj (hc.symm.trans hc')
          exact hopen r
      · exact onceFor_frame hw ha
    constructor
    · exact fun hall => ⟨fun c => (hsame c).mp (hall c), hmeets⟩
    · exact fun hall c => (hsame c).mpr (hall.1 c)

/-- **No attempt counts twice, and each counts where it belongs, exactly if every answer is journalled as it should
be.** -/
theorem counts_once_iff (svc : Service) (catalog : Catalog) {as : List Action} {w : Watched}
    (h : Runs.run (watch svc) (Watched.init catalog) as = some w) :
    CountsOnce w ↔ Runs.Each (watch svc) Meets (Watched.init catalog) as := by
  have hinit : CountsOnce (Watched.init catalog) := by
    refine ⟨fun _ _ => Or.inl rfl, ?_, ?_⟩ <;> intro c call e hc <;> cases hc
  rw [Runs.run_iff (fun _ _ _ hb hw => booked_step hb hw) (fun _ _ _ hb hw => countsOnce_step hb hw)
    (booked_init catalog) h]
  exact and_iff_right hinit

end Blame

/-! ## A payment that falls over -/

namespace Sample

def settleErr : Err := Sentinel.settlementFailed.err.annotate (Utf8.str ": " ++ unsettled.errorReason)

def fallenActions : List Action :=
  beginActions request 0 0 verified settlementID 0 ++ failActions 0 false (.ok unsettled)

theorem run_fallen : ∃ t, run service (Sys.init catalog) fallenActions = some t ∧
    t.calls[0]? = some ⟨request, 0, some (listingRow.listing, pending), .returned (.error (settleErr.join none))⟩ :=
  ⟨_, run_fails (s := Sys.init catalog) claimable rfl, rfl⟩

theorem stored_fallen : Stored request (settleErr.join none) .done := ⟨by decide, by decide⟩

end Sample

/-- A payment that the facilitator does not settle is journalled as a refusal, and marked failed. -/
theorem fallen_counts_twice : ∃ as w,
    Runs.run (watch Sample.service) (Watched.init Sample.catalog) as = some w ∧ ¬CountsOnce w := by
  obtain ⟨t, ht, hcall⟩ := Sample.run_fallen
  obtain ⟨w, hw, hsys, hpast⟩ := watch_run (w := Watched.init Sample.catalog) ht
  have hbooked : Booked w :=
    Runs.run_invariant (fun _ _ _ hb hst => booked_step hb hst) (booked_init Sample.catalog) hw
  have hc : w.sys.calls[0]? = some ⟨Sample.request, 0, some (Sample.listingRow.listing, Sample.pending),
      .returned (.error (Sample.settleErr.join none))⟩ := by rw [hsys, hcall]
  obtain ⟨w', hw'⟩ : ∃ w', watch Sample.service w (.journal 0 .done) = some w' := by
    obtain ⟨t', ht'⟩ : ∃ t', step Sample.service w.sys (.journal 0 .done) = some t' := by
      simp only [step, hc]
      exact ⟨_, rfl⟩
    unfold watch
    rw [ht']
    exact ⟨_, rfl⟩
  refine ⟨Sample.fallenActions ++ [.journal 0 .done], w', ?_, ?_⟩
  · exact Runs.run_append_eq_some.mpr ⟨w, hw, (Runs.run_cons_of hw' []).trans rfl⟩
  · intro honce
    have hmeets := ((countsOnce_step hbooked hw').mp honce).2 _ _ hc rfl
    have hfell : w.FellOver 0 := by
      refine ⟨false, .ok Sample.unsettled, ?_, rfl⟩
      rw [hpast]
      exact List.mem_append_right _ (List.mem_append_right _ List.mem_cons_self)
    exact (hmeets.1 hfell).2 Sample.stored_fallen

theorem counts_once_iff_sample : ∃ w,
    Runs.run (watch Sample.service) (Watched.init Sample.catalog) Sample.actions = some w ∧
      (CountsOnce w ↔
        Runs.Each (watch Sample.service) Meets (Watched.init Sample.catalog) Sample.actions) := by
  obtain ⟨w, hw, -, -⟩ := watch_run (w := Watched.init Sample.catalog) Sample.run_actions
  exact ⟨w, hw, counts_once_iff Sample.service Sample.catalog hw⟩

end Settlement
