import HomeLlmGateway.Registry.Accounting
import HomeLlmGateway.Registry.Strikes

/-! # Dead agents without work

A request that cannot open a stream to its agent asks `report_open_timeout` whether the agent is busy or
dead (`gateway/src/registry/eviction.rs`). The judgement of `open_timeout_is_fatal` compares the in-flight
counter with the capacity of the connection. The request that reports still holds its slot and so counts
itself: an agent with nothing else to do counts as busy as soon as its capacity is 1. The slots that the
node's earlier connections still hold are on the same counter and count too (`dead_idle_agent`). -/

namespace HomeLlmGateway.Registry.IdleAgents

open HomeLlmGateway.Lib.Runs HomeLlmGateway.Lib.Assoc
open HomeLlmGateway.Registry.Node HomeLlmGateway.Registry.System
open HomeLlmGateway.Registry.Accounting HomeLlmGateway.Registry.Strikes

/-! ### The requests of an entry -/

/-- How many requests hold a slot of the entry with this `stable_id`. -/
def onEntry (s : State) (stableId : ℕ) : ℕ :=
  countVal (fun sl => sl.entry.stableId = stableId) s.slots

/-- How many requests of the other entries of a node's chain of takeovers are on the counter of `e`. -/
def others (s : State) (e : Entry) : ℕ :=
  countVal (fun sl => sl.entry.inflight = e.inflight ∧ sl.entry.stableId ≠ e.stableId) s.slots

/-- `n` requests leave room on a connection: they are below the declared limit, if there is one, and below
the ceiling on streams, which is at least 1. -/
def Room (e : Entry) (streamCeiling : UInt32) (n : ℕ) : Prop :=
  (e.maxConcurrency ≠ 0 → n < e.maxConcurrency.toNat) ∧ n < max streamCeiling.toNat 1

instance (e : Entry) (streamCeiling : UInt32) (n : ℕ) : Decidable (Room e streamCeiling n) :=
  inferInstanceAs (Decidable (_ ∧ _))

section judging

variable {s : State} {q : ℕ} {sl : Slot}

theorem toNat_max (a b : UInt32) : (max a b).toNat = max a.toNat b.toNat := by
  show (if a ≤ b then b else a).toNat = _
  split_ifs with h
  · exact (max_eq_right h).symm
  · exact (max_eq_left (Nat.le_of_not_le h)).symm

theorem toNat_min (a b : UInt32) : (min a b).toNat = min a.toNat b.toNat := by
  show (if a ≤ b then a else b).toNat = _
  split_ifs with h
  · exact (min_eq_left h).symm
  · exact (min_eq_right (Nat.le_of_not_le h)).symm

/-- **`open_timeout_is_fatal`** says whether the requests on the counter leave room. -/
theorem openTimeoutIsFatal_iff (e : Entry) (inflight streamCeiling : UInt32) :
    openTimeoutIsFatal e inflight streamCeiling = true ↔ Room e streamCeiling inflight.toNat := by
  have h1 : (1 : UInt32).toNat = 1 := rfl
  unfold openTimeoutIsFatal Room
  dsimp only
  rw [decide_eq_true_iff, UInt32.lt_iff_toNat_lt]
  by_cases h0 : e.maxConcurrency = 0
  · rw [if_pos h0, toNat_max, h1]
    exact ⟨fun h => ⟨fun hne => absurd h0 hne, h⟩, fun h => h.2⟩
  · rw [if_neg h0, toNat_min, lt_min_iff, toNat_max, h1]
    exact ⟨fun h => ⟨fun _ => h.1, h.2⟩, fun h => ⟨h.1 h0, h.2⟩⟩

theorem judge_openTimeout_iff (m : Mem) (e : Entry) (now : UInt64) (streamCeiling : UInt32) :
    judge m e now (.openTimeout streamCeiling) = some .openTimeout ↔
      Room e streamCeiling (m.inflight e.inflight).toNat := by
  rw [← openTimeoutIsFatal_iff]
  simp [judge]

/-- A request that is alone on its entry counts itself and the requests of the node's other entries. -/
theorem live_of_alone (hq : s.slots.lookup q = some sl) (halone : onEntry s sl.entry.stableId = 1) :
    live s sl.entry.inflight = others s sl.entry + 1 := by
  have hsplit : live s sl.entry.inflight = others s sl.entry +
      countVal (fun sl' => sl'.entry.inflight = sl.entry.inflight ∧
        sl'.entry.stableId = sl.entry.stableId) s.slots := by
    refine countVal_add fun q' sl' _ => ?_
    by_cases hk : sl'.entry.inflight = sl.entry.inflight
    · by_cases hs : sl'.entry.stableId = sl.entry.stableId
      · simp [hk, hs]
      · simp [hk, hs]
    · simp [hk]
  have hle : countVal (fun sl' => sl'.entry.inflight = sl.entry.inflight ∧
      sl'.entry.stableId = sl.entry.stableId) s.slots ≤ onEntry s sl.entry.stableId := by
    refine countVal_mono (fun sl' h => ?_) s.slots
    simp only [decide_eq_true_eq] at h ⊢
    exact h.2
  have hpos : 0 < countVal (fun sl' => sl'.entry.inflight = sl.entry.inflight ∧
      sl'.entry.stableId = sl.entry.stableId) s.slots :=
    countVal_pos.mpr ⟨q, sl, hq, by simp⟩
  omega

/-- **The disposition of a timeout** that a request reports while it is alone on its entry. -/
theorem judge_of_alone (ha : Accounted s) (hq : s.slots.lookup q = some sl)
    (halone : onEntry s sl.entry.stableId = 1) (now : UInt64) (streamCeiling : UInt32) :
    judge s.mem sl.entry now (.openTimeout streamCeiling) = some .openTimeout ↔
      Room sl.entry streamCeiling ((others s sl.entry + 1) % 2 ^ 32) := by
  rw [judge_openTimeout_iff, ha.value, live_of_alone hq halone, UInt32.toNat_ofNat']

/-- Room for the request that reports and one more. -/
theorem room_one (e : Entry) (streamCeiling : UInt32) :
    Room e streamCeiling 1 ↔ e.maxConcurrency ≠ 1 ∧ 2 ≤ streamCeiling := by
  have h0 : e.maxConcurrency = 0 ↔ e.maxConcurrency.toNat = 0 := by
    rw [← UInt32.toNat_inj]
    rfl
  have h1 : e.maxConcurrency = 1 ↔ e.maxConcurrency.toNat = 1 := by
    rw [← UInt32.toNat_inj]
    rfl
  have h2 : 2 ≤ streamCeiling ↔ 2 ≤ streamCeiling.toNat := UInt32.le_iff_toNat_le
  unfold Room
  rw [Ne, h0, Ne, h1, h2]
  omega

end judging

/-! ### Timeouts in a row -/

/-- The request that reports an open timeout, and the ceiling on streams that it reports. -/
def openTimeout : Label → Option (ℕ × UInt32)
  | .report q (.openTimeout streamCeiling) _ => some (q, streamCeiling)
  | _ => none

/-- The `stable_id` for which the step reports an open timeout by a request that is alone on its entry. -/
def idleTimeout (s : State) (l : Label) : Option ℕ :=
  (openTimeout l).bind fun p => (s.slots.lookup p.1).bind fun sl =>
    if onEntry s sl.entry.stableId = 1 then some sl.entry.stableId else none

/-- How many such timeouts were reported for the `stable_id` since the later of its registration and its
last success. -/
def idleTimeoutsSince (allowLegacy : Bool) (stableId : ℕ) (ls : List Label) : ℕ :=
  foldAlong (fun n s l =>
    if registersId s l = some stableId ∨ succeeds s l = some stableId then 0
    else if idleTimeout s l = some stableId then n + 1
    else n) (step allowLegacy) 0 init ls

/-- The request has an open timeout for the `stable_id` that is judged fatal and not yet counted. -/
def waits (stableId : ℕ) (sl : Slot) : Bool :=
  sl.entry.stableId = stableId ∧ sl.report = .fatal .openTimeout

/-- How many requests have. -/
def waiting (s : State) (stableId : ℕ) : ℕ := countVal (waits stableId) s.slots

/-- A timeout that is reported while nobody else is on the entry leaves room on the connection. -/
def Roomy (s : State) (l : Label) : Prop :=
  ∀ p ∈ openTimeout l, ∀ sl ∈ s.slots.lookup p.1, onEntry s sl.entry.stableId = 1 →
    Room sl.entry p.2 ((others s sl.entry + 1) % 2 ^ 32)

instance (s : State) (l : Label) : Decidable (Roomy s l) := by unfold Roomy; infer_instance

section counting

variable {allowLegacy : Bool} {s s' : State} {l : Label} {ls : List Label} {sid : ℕ}

theorem waits_of_ne {sl : Slot} (h : sl.report ≠ .fatal .openTimeout) : waits sid sl = false :=
  decide_eq_false fun hw => h hw.2

theorem waiting_replace {q : ℕ} {sl sl' : Slot} (hq : s.slots.lookup q = some sl)
    (hs : s'.slots = s.slots.insert q sl') :
    waiting s sid ≤ waiting s' sid + (waits sid sl).toNat := by
  have hc := countVal_step (waits sid) hq sl'
  unfold waiting
  rw [hs]
  omega

theorem waiting_step (hs : step allowLegacy s l = some s') (sid : ℕ) : waiting s sid ≤
    waiting s' sid + if reportsFatal s l = some (sid, .openTimeout) then 1 else 0 := by
  -- the request of `evict` no longer waits
  have hevict : ∀ {q : ℕ} {sl sl' : Slot} {cause : EvictCause}, s.slots.lookup q = some sl →
      sl.report = .fatal cause → s'.slots = s.slots.insert q sl' → l = .evict q →
      waiting s sid ≤ waiting s' sid +
        if reportsFatal s l = some (sid, .openTimeout) then 1 else 0 := by
    rintro q sl sl' cause hq hr hslots rfl
    have hle : waiting s sid ≤ waiting s' sid + (waits sid sl).toNat := waiting_replace hq hslots
    by_cases hw : waits sid sl = true
    · obtain ⟨hsid, hcause⟩ := of_decide_eq_true hw
      rw [hw, Bool.toNat_true] at hle
      rw [if_pos (by simp [reportsFatal, hq, hcause, hsid])]
      exact hle
    · rw [Bool.eq_false_of_not_eq_true hw] at hle
      exact hle.trans (Nat.le_add_right _ _)
  -- a request that does not wait does something else with its report
  have hother : ∀ {q : ℕ} {sl sl' : Slot}, s.slots.lookup q = some sl →
      sl.report ≠ .fatal .openTimeout → s'.slots = s.slots.insert q sl' →
      waiting s sid ≤ waiting s' sid +
        if reportsFatal s l = some (sid, .openTimeout) then 1 else 0 := by
    intro q sl sl' hq hr hslots
    have hle : waiting s sid ≤ waiting s' sid + (waits sid sl).toNat := waiting_replace hq hslots
    rw [waits_of_ne hr] at hle
    exact hle.trans (Nat.le_add_right _ _)
  cases move_of_step hs with
  | acquire q key e he hq ha =>
    have hc := countVal_insert_of_none (⟨e, .none⟩ : Slot) (waits sid) hq
    have hle : waiting s sid ≤ countVal (waits sid) (s.slots.insert q ⟨e, .none⟩) := by
      rw [hc]
      exact Nat.le_add_right _ _
    exact hle.trans (Nat.le_add_right _ _)
  | release q sl hq hr =>
    have hc := countVal_erase (waits sid) hq
    rw [waits_of_ne (by rw [hr]; simp)] at hc
    exact (Nat.le_of_eq hc).trans (Nat.le_add_right _ _)
  | fatal q failure now sl cause hq hr => exact hother hq (by rw [hr]; simp) rfl
  | strike q sl cause m hq hr hm => exact hevict hq hr rfl rfl
  | remove q sl cause key e m hq hr he hs' hm hev => exact hevict hq hr rfl rfl
  | evictNow q sl e n hq hr hn => exact hother hq (by rw [hr]; simp) rfl
  | evictLater q sl e n hq hr => exact hother hq (by rw [hr]; simp) rfl
  | _ => exact Nat.le_add_right _ _

theorem waiting_idleTimeout (ha : Accounted s) (hs : step allowLegacy s l = some s') (hroom : Roomy s l)
    (hl : idleTimeout s l = some sid) : waiting s' sid = waiting s sid + 1 := by
  obtain ⟨⟨q, streamCeiling⟩, hopen, hl⟩ := Option.bind_eq_some_iff.mp hl
  obtain ⟨sl, hq, hl⟩ := Option.bind_eq_some_iff.mp hl
  split_ifs at hl with halone
  cases hl
  have hfree := hroom _ hopen sl hq halone
  unfold openTimeout at hopen
  split at hopen
  · next q' ceiling now =>
    cases hopen
    obtain ⟨sl', hq', hs⟩ := withSlot_eq_some.mp hs
    rw [hq] at hq'
    cases hq'
    rw [(judge_of_alone ha hq halone now streamCeiling).mpr hfree] at hs
    split at hs
    · next cause hr hc =>
      cases hs
      cases hc
      have hc := countVal_step (waits sl.entry.stableId) hq { sl with report := .fatal .openTimeout }
      simpa [waiting, waits, hr] using hc
    · next hc => cases hc
    · cases hs
  · cases hopen

/-- **The timeouts of an idle agent are counted**, or wait for it. -/
theorem idleTimeouts_le (hroom : AllSteps (step allowLegacy) Roomy init ls)
    (hr : run (step allowLegacy) init ls = some s) (sid : ℕ) :
    idleTimeoutsSince allowLegacy sid ls ≤
      fatalsSince allowLegacy sid .openTimeout ls + waiting s sid := by
  refine run_history (H := fun ls s => idleTimeoutsSince allowLegacy sid ls ≤
    fatalsSince allowLegacy sid .openTimeout ls + waiting s sid) (C := Roomy) (Nat.zero_le _)
    (fun ls s l s' hr h hroom hs => ?_) ls s hroom hr
  have hwait := waiting_step hs sid
  rw [fatalsSince_concat hr]
  unfold idleTimeoutsSince at h ⊢
  rw [foldAlong_concat _ hr]
  unfold tally
  by_cases hreset : registersId s l = some sid ∨ succeeds s l = some sid
  · rw [if_pos hreset, if_pos hreset]
    exact Nat.zero_le _
  · rw [if_neg hreset, if_neg hreset]
    by_cases hidle : idleTimeout s l = some sid
    · have hone := waiting_idleTimeout (accounted_reaches ⟨ls, hr⟩) hs hroom hidle
      rw [if_pos hidle]
      split_ifs
      · omega
      · omega
    · rw [if_neg hidle]
      split_ifs at hwait ⊢
      · omega
      · omega

end counting

/-! ### The law -/

section law

variable {allowLegacy : Bool} {s : State} {ls : List Label}

/-- **Dead agents without work.** In every reachable state, for a request that holds the only slot of its
entry: its open timeout is judged fatal exactly if it and the slots that other connections of the node
still hold leave room on the connection, without such slots exactly if the declared limit is not 1 and the
ceiling on streams at least 2. In every run in which all such timeouts leave room, three of them since the
entry's registration and last success, reported to the end, take the entry out. -/
theorem dead_idle_agent (hr : run (step allowLegacy) init ls = some s) :
    (∀ q sl now streamCeiling, s.slots.lookup q = some sl → onEntry s sl.entry.stableId = 1 →
      (judge s.mem sl.entry now (.openTimeout streamCeiling) = some .openTimeout ↔
        Room sl.entry streamCeiling ((others s sl.entry + 1) % 2 ^ 32)) ∧
      (others s sl.entry = 0 → (judge s.mem sl.entry now (.openTimeout streamCeiling) =
        some .openTimeout ↔ sl.entry.maxConcurrency ≠ 1 ∧ 2 ≤ streamCeiling))) ∧
    (AllSteps (step allowLegacy) Roomy init ls → ∀ stableId,
      tunnelTimeoutsBeforeEvict.toNat ≤ idleTimeoutsSince allowLegacy stableId ls →
      waiting s stableId = 0 → ∀ k e, s.agents.lookup k = some e → e.stableId ≠ stableId) := by
  have ha := accounted_reaches ⟨ls, hr⟩
  refine ⟨fun q sl now streamCeiling hq halone => ?_, fun hroom sid hthree hwait k e he hsid => ?_⟩
  · have hj := judge_of_alone ha hq halone now streamCeiling
    refine ⟨hj, fun hno => ?_⟩
    have hone : (0 + 1) % 2 ^ 32 = 1 := by decide
    rw [hj, hno, hone]
    exact room_one sl.entry streamCeiling
  · have hle := idleTimeouts_le hroom hr sid
    have hlt := (counted_run hr k e he .openTimeout).2
    rw [hsid] at hlt
    omega

end law

/-- A request takes a slot of the agent and cannot open a stream; `counted` is what comes of its report. -/
def cannotOpen (q : ℕ) (counted : List Label) : List Label :=
  .acquire q ⟨"default", "a", .v4 1⟩ :: .report q (.openTimeout 1024) 0 :: counted

/-- An agent joins with a limit, and three requests in turn cannot open a stream to it. -/
def unreachable (maxConcurrency : UInt32) (counted : ℕ → List Label) : List Label :=
  .connect 0 (.v4 1) :: .frame 0 (.register "a" ["*"] maxConcurrency "") false 0 :: .insert 0 0 ::
    .note 0 :: (cannotOpen 0 (counted 0) ++ .release 0 :: (cannotOpen 1 (counted 1) ++
      .release 1 :: cannotOpen 2 (counted 2)))

/-- With a limit of 1 the agent counts as busy with the very request that cannot reach it, and stays. -/
theorem busy_with_the_reporter : ∃ s sl, run (step true) init (unreachable 1 fun _ => []) = some s ∧
    s.slots.lookup 2 = some sl ∧ onEntry s sl.entry.stableId = 1 ∧ live s sl.entry.inflight = 1 ∧
    judge s.mem sl.entry 0 (.openTimeout 1024) = none ∧
    idleTimeoutsSince true sl.entry.stableId (unreachable 1 fun _ => []) = 3 ∧
    waiting s sl.entry.stableId = 0 ∧
    s.agents.lookup ⟨"default", "a", .v4 1⟩ = some sl.entry := by
  obtain ⟨s, hr, h⟩ := exists_run (step true) init (unreachable 1 fun _ => [])
    (fun s => s.slots.lookup 2 = some ⟨⟨0, 1, "a", "default", ["*"], 1, 0⟩, .none⟩ ∧
      onEntry s 1 = 1 ∧
      live s 0 = 1 ∧ judge s.mem ⟨0, 1, "a", "default", ["*"], 1, 0⟩ 0 (.openTimeout 1024) = none ∧
      idleTimeoutsSince true 1 (unreachable 1 fun _ => []) = 3 ∧ waiting s 1 = 0 ∧
      s.agents.lookup ⟨"default", "a", .v4 1⟩ = some ⟨0, 1, "a", "default", ["*"], 1, 0⟩)
    (by decide +kernel)
  exact ⟨s, _, hr, h⟩

/-- With a limit of 2 the third timeout evicts it. -/
theorem dead_idle_agent_two : ∃ s, run (step true) init (unreachable 2 fun q => [.evict q]) = some s ∧
    idleTimeoutsSince true 1 (unreachable 2 fun q => [.evict q]) = 3 ∧
    ∀ k e, s.agents.lookup k = some e → e.stableId ≠ 1 := by
  obtain ⟨s, hr, hthree, hwait, hroom⟩ := exists_run (step true) init (unreachable 2 fun q => [.evict q])
    (fun s => idleTimeoutsSince true 1 (unreachable 2 fun q => [.evict q]) = 3 ∧ waiting s 1 = 0 ∧
      AllSteps (step true) Roomy init (unreachable 2 fun q => [.evict q])) (by decide +kernel)
  exact ⟨s, hr, hthree, (dead_idle_agent hr).2 hroom 1 (Nat.le_of_eq hthree.symm) hwait⟩

end HomeLlmGateway.Registry.IdleAgents
