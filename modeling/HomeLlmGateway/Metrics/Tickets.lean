import HomeLlmGateway.Metrics.Admission

/-! # Tickets and counters

A ticket holds a slot of its domain from the exchange to the first subtraction of its drop, and is in the
gauge from the addition to the second subtraction. Over every run the counters are the numbers of these
tickets (`admission_counters`); they do not wrap, as there are never more than `2 ^ 63` clones of the `Arc`.
The numbers of live tickets, returned and not yet being dropped, are what the counters show between the
writes; inside a call the gauge lags behind the domain (`gauge_lags_behind`). -/

namespace HomeLlmGateway.Metrics.Tickets

open HomeLlmGateway.Lib.Runs HomeLlmGateway.Lib.Assoc
open HomeLlmGateway.Metrics.Admission

variable {s s' : State} {l : Label} {d : AdmissionDomain} {L : UInt32}

/-! ### The accounts -/

/-- The counters are the numbers of those who hold something. -/
structure Accounted (s : State) : Prop where
  fits : ∀ i c, s.calls.lookup i = some c → c.stage.fits c.request
  slots : ∀ d, s.metrics.counter d = UInt64.ofNat (countVal (Call.holds d) s.calls)
  gauge : s.metrics.active = UInt64.ofNat (countVal Call.gauged s.calls)
  clones : countVal Call.underWay s.calls ≤ 2 ^ 63

theorem accounted_init : Accounted init where
  fits i c h := by cases h
  slots d := by cases d <;> rfl
  gauge := rfl
  clones := by decide

theorem accounted_step (h : Accounted s) (hs : step s l = some s') : Accounted s' := by
  rcases step_cases hs with ⟨i, r, rfl, hi, hb, rfl⟩ | ⟨i, sp, el, c, m', st', rfl, hc, hst, rfl⟩
  · have hnew : ∀ p : Call → Bool, p ⟨r, .start⟩ = false →
        countVal p (s.calls.insert i ⟨r, .start⟩) = countVal p s.calls := by
      intro p hp
      rw [countVal_insert_of_none _ _ hi, hp]
      rfl
    refine ⟨fun j c hj => ?_, fun d => ?_, ?_, ?_⟩
    · rw [lookup_insert] at hj
      split_ifs at hj
      · cases hj
        trivial
      · exact h.fits j c hj
    · rw [hnew _ rfl]
      exact h.slots d
    · rw [hnew _ rfl]
      exact h.gauge
    · have hle := countVal_insert_of_none (⟨r, .start⟩ : Call) Call.underWay hi
      simp only [hle]
      split_ifs <;> omega
  · have hm := moves_of_stageStep (h.fits i c hc) hst
    refine ⟨fun j c' hj => ?_, fun d => ?_, ?_, ?_⟩
    · rw [lookup_insert] at hj
      split_ifs at hj
      · cases hj
        exact hm.fits
      · exact h.fits j c' hj
    · refine ofNat_countVal_step hc (h.slots d) ?_
      by_cases hd : c.request.domain = d
      · subst hd
        simpa [Call.holds] using hm.slot
      · simp [Call.holds, hd, hm.other d (fun he => hd he.symm)]
    · exact ofNat_countVal_step hc h.gauge hm.gauge
    · have hle := countVal_step Call.underWay hc { c with stage := st' }
      have hup : c.underWay = true := by
        rcases c with ⟨r, st⟩
        rcases st <;> first | rfl | cases hst
      have hone : Bool.toNat (Call.underWay { c with stage := st' }) ≤ 1 := Bool.toNat_le _
      have := h.clones
      rw [hup] at hle
      simp only [Bool.toNat_true] at hle
      show countVal Call.underWay (s.calls.insert i { c with stage := st' }) ≤ 2 ^ 63
      omega

theorem accounted_run {ls : List Label} (h : run step init ls = some s) : Accounted s :=
  run_invariant (I := Accounted) (fun _ _ _ hi hs => accounted_step hi hs) accounted_init ⟨ls, h⟩

/-- The counters do not wrap. -/
theorem Accounted.toNat_of_le (h : Accounted s) {p : Call → Bool} {n : UInt64}
    (hp : ∀ c, p c = true → c.underWay = true) (hn : n = UInt64.ofNat (countVal p s.calls)) :
    n.toNat = countVal p s.calls := by
  have hle : countVal p s.calls ≤ countVal Call.underWay s.calls := countVal_mono hp s.calls
  have hb := h.clones
  rw [hn, UInt64.toNat_ofNat']
  exact Nat.mod_eq_of_lt (by omega)

theorem Accounted.toNat_counter (h : Accounted s) (d : AdmissionDomain) :
    (s.metrics.counter d).toNat = countVal (Call.holds d) s.calls :=
  h.toNat_of_le (fun _ => Call.underWay_of_holds) (h.slots d)

theorem Accounted.toNat_active (h : Accounted s) :
    s.metrics.active.toNat = countVal Call.gauged s.calls :=
  h.toNat_of_le (fun _ => Call.underWay_of_gauged) h.gauge

/-! ### Limits -/

theorem lt_limit_of_take {m m' : MetricsInner} {r : Request} {spurious : Bool} {elapsed : UInt64}
    {st st' : Stage} (hf : st.fits r) (hl : 0 < r.limit)
    (h : stageStep m r spurious elapsed st = some (m', st')) (hs : st.hasSlot = false)
    (hs' : st'.hasSlot = true) : m.counter r.domain < r.limit.toUInt64 := by
  rcases st with _ | current | _ | _ | _ | _ | _ | _ | _ <;> simp only [stageStep] at h
  · rw [if_pos hl] at h
    cases h
    rw [hasSlot_observe] at hs'
    cases hs'
  · split_ifs at h with hc <;> cases h
    · rw [hc.1]
      exact hf.2
    · rw [hasSlot_observe] at hs'
      cases hs'
  all_goals cases h
  all_goals first | exact absurd hs (by decide) | exact absurd hs' (by decide)

/-- Every call on the domain `d` comes with the limit `L`, and the domain is within it. -/
structure Bounded (d : AdmissionDomain) (L : UInt32) (s : State) : Prop where
  accounted : Accounted s
  limit : ∀ i c, s.calls.lookup i = some c → c.request.domain = d → c.request.limit = L
  below : countVal (Call.holds d) s.calls ≤ L.toNat

/-- The limit of the domain `d` is `L`. -/
def HasLimit (d : AdmissionDomain) (L : UInt32) : Label → Prop
  | .enter _ r => r.domain = d → r.limit = L
  | .step .. => True

theorem bounded_step (hL : 0 < L) (h : Bounded d L s) (hl : HasLimit d L l) (hs : step s l = some s') :
    Bounded d L s' := by
  have ha := accounted_step h.accounted hs
  rcases step_cases hs with ⟨i, r, rfl, hi, hb, rfl⟩ | ⟨i, sp, el, c, m', st', rfl, hc, hst, rfl⟩
  · refine ⟨ha, fun j c hj hd => ?_, ?_⟩
    · rw [lookup_insert] at hj
      split_ifs at hj
      · cases hj
        exact hl hd
      · exact h.limit j c hj hd
    · have hcount := countVal_insert_of_none (⟨r, .start⟩ : Call) (Call.holds d) hi
      rw [hcount]
      exact h.below
  · refine ⟨ha, fun j c' hj hd => ?_, ?_⟩
    · rw [lookup_insert] at hj
      split_ifs at hj
      · cases hj
        exact h.limit i c hc hd
      · exact h.limit j c' hj hd
    · have hcount := countVal_step (Call.holds d) hc { c with stage := st' }
      have hbelow := h.below
      show countVal (Call.holds d) (s.calls.insert i { c with stage := st' }) ≤ L.toNat
      by_cases hgrow : Call.holds d c = false ∧ Call.holds d { c with stage := st' } = true
      · obtain ⟨h0, h1⟩ := hgrow
        have hd : c.request.domain = d := by simpa using (Bool.and_eq_true_iff.mp h1).2
        have hs0 : c.stage.hasSlot = false := by simpa [Call.holds, hd] using h0
        have hlim := h.limit i c hc hd
        have hlt := lt_limit_of_take (h.accounted.fits i c hc) (by rw [hlim]; exact hL) hst hs0
          (Bool.and_eq_true_iff.mp h1).1
        have hnum := h.accounted.toNat_counter d
        rw [hd, hlim, UInt64.lt_iff_toNat_lt, hnum, UInt32.toNat_toUInt64] at hlt
        rw [h0, h1] at hcount
        simp only [Bool.toNat_false, Bool.toNat_true] at hcount
        omega
      · have hle : Bool.toNat (Call.holds d { c with stage := st' }) ≤ Bool.toNat (Call.holds d c) := by
          revert hgrow
          cases Call.holds d c <;> cases Call.holds d { c with stage := st' } <;> simp
        omega

theorem bounded_run (hL : 0 < L) {ls : List Label} (hls : ∀ l ∈ ls, HasLimit d L l)
    (h : run step init ls = some s) : Bounded d L s := by
  refine run_invariant_of (C := fun _ l => HasLimit d L l)
    (fun _ _ _ hi hl hs => bounded_step hL hi hl hs) ls init s ?_ (allSteps_of_forall hls) h
  refine ⟨accounted_init, fun i c hi => ?_, Nat.zero_le _⟩
  cases hi

/-! ### Refusals -/

/-- At a moment of the run the call `i` was in `enter` and the counter of its domain was at the limit or
above. -/
def WasFull (ls : List Label) (i : ℕ) (r : Request) : Prop :=
  ∃ as bs s st, ls = as ++ bs ∧ run step init as = some s ∧ s.calls.lookup i = some ⟨r, st⟩ ∧
    (st = .start ∨ ∃ n, st = .trying n) ∧ r.limit.toUInt64 ≤ s.metrics.counter r.domain

theorem WasFull.later {ls : List Label} {i : ℕ} {r : Request} (h : WasFull ls i r) (l : Label) :
    WasFull (ls ++ [l]) i r := by
  obtain ⟨as, bs, s, st, rfl, hrest⟩ := h
  exact ⟨as, bs ++ [l], s, st, List.append_assoc as bs [l], hrest⟩

theorem full_of_refused {m m' : MetricsInner} {r : Request} {spurious : Bool} {elapsed : UInt64}
    {st : Stage} (h : stageStep m r spurious elapsed st = some (m', .refused)) :
    (st = .start ∨ ∃ n, st = .trying n) ∧ r.limit.toUInt64 ≤ m.counter r.domain := by
  have hobs : ∀ n, observe r n = .refused → r.limit.toUInt64 ≤ n := by
    intro n hn
    unfold observe at hn
    split_ifs at hn with hle
    exact hle
  have htake : afterSlot r ≠ .refused := by
    unfold afterSlot
    split_ifs <;> simp
  rcases st with _ | current | _ | _ | _ | _ | _ | _ | _ <;> simp only [stageStep] at h
  · split_ifs at h with hl <;> simp only [Option.some.injEq, Prod.mk.injEq] at h
    · exact ⟨Or.inl rfl, hobs _ h.2⟩
    · exact absurd h.2 htake
  · split_ifs at h with hc <;> simp only [Option.some.injEq, Prod.mk.injEq] at h
    · exact absurd h.2 htake
    · exact ⟨Or.inr ⟨current, rfl⟩, hobs _ h.2⟩
  all_goals simp only [Option.some.injEq, Prod.mk.injEq, reduceCtorEq, and_false] at h
  split_ifs at h <;> cases h.2

theorem wasFull_of_refused {ls : List Label} (h : run step init ls = some s) :
    ∀ i r, s.calls.lookup i = some ⟨r, .refused⟩ → WasFull ls i r := by
  refine run_history (C := fun _ _ => True)
    (H := fun ls s => ∀ i r, s.calls.lookup i = some ⟨r, .refused⟩ → WasFull ls i r)
    (fun i r hi => by cases hi) (fun ls s l s' hr ih _ hs i r hi => ?_) ls s (allSteps_true ls init) h
  rcases step_cases hs with ⟨j, q, rfl, hj, hb, rfl⟩ | ⟨j, sp, el, c, m', st', rfl, hc, hst, rfl⟩
  · rw [lookup_insert] at hi
    split_ifs at hi
    · cases hi
    · exact (ih i r hi).later _
  · rw [lookup_insert] at hi
    split_ifs at hi with hij
    · subst hij
      simp only [Option.some.injEq, Call.mk.injEq] at hi
      obtain ⟨rfl, rfl⟩ := hi
      obtain ⟨hin, hfull⟩ := full_of_refused hst
      exact ⟨ls, [.step i sp el], s, c.stage, rfl, hr, hc, hin, hfull⟩
    · exact (ih i r hi).later _

/-! ### The counters of every reachable state -/

/-- The live tickets of a domain. -/
def liveTickets (s : State) (d : AdmissionDomain) : ℕ :=
  countVal (fun c => c.isLive && c.request.domain = d) s.calls

/-- The live tickets that count as requests. -/
def liveCounted (s : State) : ℕ := countVal (fun c => c.isLive && c.request.counted) s.calls

/-- The calls do not stand between two of their writes. -/
def Settled (s : State) : Prop := ∀ i c, s.calls.lookup i = some c → c.settled = true

theorem countVal_holds_of_settled (h : Settled s) (d : AdmissionDomain) :
    countVal (Call.holds d) s.calls = liveTickets s d := by
  refine countVal_congr fun i c hc => ?_
  have hset := h i c hc
  rcases c with ⟨r, st⟩
  rcases st <;> first | rfl | cases hset

theorem countVal_gauged_of_settled (h : Settled s) : countVal Call.gauged s.calls = liveCounted s := by
  refine countVal_congr fun i c hc => ?_
  have hset := h i c hc
  rcases c with ⟨r, st⟩
  rcases st <;> first | rfl | cases hset

theorem limit_of_gateRequest {max : UInt32} {path : String} {c : RouteClass}
    (h : (gateRequest max path).domain = c.domain) : (gateRequest max path).limit = c.limit max := by
  have hc : RouteClass.of path = c := by
    have hd : (RouteClass.of path).domain = c.domain := h
    revert hd
    rcases RouteClass.of path <;> rcases c <;> simp [RouteClass.domain]
  show (RouteClass.of path).limit max = c.limit max
  rw [hc]

/-- **Admission counters.** In every state of every run the counter of a domain is the number of tickets
that have a slot there, and the gauge the number of counted tickets that are in it; when no call stands
between two of its writes these are the live tickets. A domain whose limit is constant stays within it,
so the domains of the gate do. A step of a call leaves the counters of the other domains alone, and a call
is refused only if the counter of its domain was at the limit or above while it ran. -/
theorem admission_counters {ls : List Label} (h : run step init ls = some s) :
    (∀ d, (s.metrics.counter d).toNat = countVal (Call.holds d) s.calls) ∧
      s.metrics.active.toNat = countVal Call.gauged s.calls ∧
      (Settled s → (∀ d, (s.metrics.counter d).toNat = liveTickets s d) ∧
        s.metrics.active.toNat = liveCounted s) ∧
      (∀ d L, 0 < L → (∀ i r, .enter i r ∈ ls → r.domain = d → r.limit = L) →
        (s.metrics.counter d).toNat ≤ L.toNat) ∧
      (∀ max, (∀ i r, .enter i r ∈ ls → ∃ path, r = gateRequest max path) →
        ∀ c : RouteClass, 0 < c.limit max → (s.metrics.counter c.domain).toNat ≤ (c.limit max).toNat) ∧
      (∀ i spurious elapsed c s', s.calls.lookup i = some c →
        step s (.step i spurious elapsed) = some s' →
        ∀ d, d ≠ c.request.domain → s'.metrics.counter d = s.metrics.counter d) ∧
      ∀ i r, s.calls.lookup i = some ⟨r, .refused⟩ → WasFull ls i r := by
  have ha := accounted_run h
  have hlimit : ∀ d L, 0 < L → (∀ i r, .enter i r ∈ ls → r.domain = d → r.limit = L) →
      (s.metrics.counter d).toNat ≤ L.toNat := by
    intro d L hL hls
    have hb : Bounded d L s := by
      refine bounded_run hL (fun l hl => ?_) h
      rcases l with ⟨i, r⟩ | _
      · exact hls i r hl
      · trivial
    rw [ha.toNat_counter]
    exact hb.below
  refine ⟨ha.toNat_counter, ha.toNat_active, fun hset => ⟨fun d => ?_, ?_⟩, hlimit,
    fun max hgate c hc => hlimit _ _ hc fun i r hr hd => ?_, fun i sp el c s' hc hs d hd => ?_,
    wasFull_of_refused h⟩
  · rw [ha.toNat_counter, countVal_holds_of_settled hset]
  · rw [ha.toNat_active, countVal_gauged_of_settled hset]
  · obtain ⟨path, rfl⟩ := hgate i r hr
    exact limit_of_gateRequest hd
  · rcases step_cases hs with ⟨_, _, hl, -⟩ | ⟨j, sp', el', c', m', st', hl, hc', hst, rfl⟩
    · cases hl
    · cases hl
      rw [hc] at hc'
      cases hc'
      exact (moves_of_stageStep (ha.fits i c hc) hst).other d hd

/-- A request is let in, one more is refused. -/
theorem admission_counters_full : ∃ ls s, run step init ls = some s ∧
    s.calls.lookup 1 = some ⟨gateRequest 1 "/v1/models", .refused⟩ ∧
    (s.metrics.counter .gated).toNat = 1 ∧ WasFull ls 1 (gateRequest 1 "/v1/models") := by
  let ls : List Label := [.enter 0 (gateRequest 1 "/v1/models"), .step 0 false 0, .step 0 false 0,
    .step 0 false 0, .step 0 false 0, .enter 1 (gateRequest 1 "/v1/models"), .step 1 false 0]
  obtain ⟨s, hs, hp⟩ := exists_run step init ls
    (fun s => s.calls.lookup 1 = some ⟨gateRequest 1 "/v1/models", .refused⟩ ∧
      (s.metrics.counter .gated).toNat = 1) (by decide)
  exact ⟨ls, s, hs, hp.1, hp.2, (admission_counters hs).2.2.2.2.2.2 1 _ hp.1⟩

/-- After its exchange a request has a slot of its domain and is not yet in the gauge: whichever calls are
taken for live, they are not the number that both counters show. -/
theorem gauge_lags_behind : ∃ s, Reaches step init s ∧ ¬ ∃ live : Call → Bool,
    (∀ d, (s.metrics.counter d).toNat = countVal (fun c => live c && c.request.domain = d) s.calls) ∧
      s.metrics.active.toNat = countVal (fun c => live c && c.request.counted) s.calls := by
  refine ⟨⟨⟨1, 0, 0, 0, 0, 0⟩, AList.insert 0 ⟨gateRequest 0 "/", .entered⟩ ∅⟩,
    ⟨[.enter 0 (gateRequest 0 "/"), .step 0 false 0], rfl⟩, ?_⟩
  rintro ⟨live, hslots, hgauge⟩
  have hslot := hslots .gated
  have hdom : (gateRequest 0 "/").domain = .gated := rfl
  have hcounted : (gateRequest 0 "/").counted = true := rfl
  simp [MetricsInner.counter, countVal, values, hdom, hcounted] at hslot hgauge
  rw [hslot] at hgauge
  cases hgauge

end HomeLlmGateway.Metrics.Tickets
