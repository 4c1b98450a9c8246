import HomeLlmGateway.Registry.System

/-! # In-flight accounting

A counter is shared by every entry that a chain of takeovers put under one node, and by the slots taken
through any of them. Over every run its value is the number of these slots, as a `u32` counts. An entry
without a limit never refuses a slot, so the counter may wrap; below `2 ^ 32` slots it is exact. -/

namespace HomeLlmGateway.Registry.Accounting

open HomeLlmGateway.Lib.Runs HomeLlmGateway.Lib.Assoc
open HomeLlmGateway.Registry.Node HomeLlmGateway.Registry.Table HomeLlmGateway.Registry.System

variable {allowLegacy : Bool} {s s' : State} {k : ℕ}

/-- How many `SlotGuard`s on the counter `k` are live. -/
def live (s : State) (k : ℕ) : ℕ := countVal (fun sl => sl.entry.inflight = k) s.slots

theorem live_pos_of_slot {q : ℕ} {sl : Slot} (h : s.slots.lookup q = some sl) :
    0 < live s sl.entry.inflight :=
  countVal_pos.mpr ⟨q, sl, h, by simp⟩

/-- What ties counters, slots and entries together. -/
structure Accounted (s : State) : Prop where
  value : ∀ k, s.mem.inflight k = UInt32.ofNat (live s k)
  /-- no slot is taken on a counter before it is made -/
  fresh : ∀ k, s.nextCounter ≤ k → live s k = 0
  table : ∀ key e, s.agents.lookup key = some e → e.inflight < s.nextCounter

theorem accounted_init : Accounted init where
  value _ := rfl
  fresh _ _ := rfl
  table key e h := by cases h

theorem Accounted.frame (h : Accounted s) (hl : ∀ k, live s' k = live s k)
    (hm : s'.mem.inflight = s.mem.inflight) (hn : s'.nextCounter = s.nextCounter)
    (ht : ∀ key e, s'.agents.lookup key = some e →
      ∃ key' e', s.agents.lookup key' = some e' ∧ e.inflight = e'.inflight) : Accounted s' where
  value k := by rw [hm, hl, h.value]
  fresh k hk := by rw [hl]; exact h.fresh k (hn ▸ hk)
  table key e he := by
    obtain ⟨key', e', he', hi⟩ := ht key e he
    rw [hi, hn]
    exact h.table key' e' he'

theorem live_setSlot {q : ℕ} {sl sl' : Slot} (hq : s.slots.lookup q = some sl)
    (he : sl'.entry = sl.entry) (k : ℕ) : live (s.setSlot q sl') k = live s k := by
  unfold live
  rw [slots_setSlot]
  exact countVal_replace _ hq (by rw [he])

/-! ### The steps -/

theorem accounted_acquire (h : Accounted s) {q : ℕ} {key : AgentKey} {e : Entry}
    (he : s.agents.lookup key = some e) (hq : s.slots.lookup q = none) :
    Accounted ((s.setInflight e.inflight (s.mem.inflight e.inflight + 1)).setSlot q ⟨e, .none⟩) := by
  have hlive : ∀ k, live ((s.setInflight e.inflight (s.mem.inflight e.inflight + 1)).setSlot q
      ⟨e, .none⟩) k = live s k + if e.inflight = k then 1 else 0 := by
    intro k
    have := countVal_insert_of_none (⟨e, .none⟩ : Slot) (fun sl => sl.entry.inflight = k) hq
    simpa [live, State.setInflight] using this
  refine ⟨fun k => ?_, fun k hk => ?_, h.table⟩
  · rw [hlive]
    by_cases hk : e.inflight = k
    · subst hk
      simp [State.setInflight, h.value, UInt32.ofNat_add]
    · have hk' : k ≠ e.inflight := fun hc => hk hc.symm
      simp [State.setInflight, hk, hk', h.value]
  · have hlt : e.inflight < s.nextCounter := h.table key e he
    have hle : s.nextCounter ≤ k := hk
    rw [hlive, h.fresh k hle, if_neg (by omega)]

theorem accounted_release (h : Accounted s) {q : ℕ} {sl : Slot} (hq : s.slots.lookup q = some sl) :
    Accounted { s.setInflight sl.entry.inflight (s.mem.inflight sl.entry.inflight - 1) with
      slots := s.slots.erase q } := by
  have hlive : ∀ k, live s k = countVal (fun sl => sl.entry.inflight = k) (s.slots.erase q) +
      if sl.entry.inflight = k then 1 else 0 := by
    intro k
    have := countVal_erase (fun sl => sl.entry.inflight = k) hq
    simpa [live] using this
  refine ⟨fun k => ?_, fun k hk => ?_, h.table⟩
  · have hv := h.value k
    rw [hlive k] at hv
    by_cases hk : sl.entry.inflight = k
    · subst hk
      simp [State.setInflight, live, hv, UInt32.ofNat_add]
    · have hk' : k ≠ sl.entry.inflight := fun hc => hk hc.symm
      simpa [State.setInflight, live, hk, hk'] using hv
  · have := hlive k
    rw [h.fresh k hk] at this
    exact (Nat.add_eq_zero_iff.mp this.symm).1

theorem accounted_insertNew (h : Accounted s) {key : AgentKey} {e : Entry} {c : ℕ} {cn : Conn}
    {health : ℕ → Health} (he : e.inflight = s.nextCounter) :
    Accounted ({ s with
      agents := s.agents.insert key e
      nextCounter := s.nextCounter + 1
      mem := ⟨Function.update s.mem.inflight s.nextCounter 0, health⟩ }.setConn c cn) := by
  refine ⟨fun k => ?_, fun k hk => ?_, fun key' e' he' => ?_⟩
  · by_cases hk : k = s.nextCounter
    · subst hk
      have hz : countVal (fun sl => sl.entry.inflight = s.nextCounter) s.slots = 0 :=
        h.fresh s.nextCounter (Nat.le_refl _)
      simp [live, hz]
    · simpa [live, hk] using h.value k
  · exact h.fresh k (Nat.le_of_succ_le hk)
  · simp only [agents_setConn, nextCounter_setConn, lookup_insert] at he' ⊢
    split_ifs at he' with hkey
    · cases he'
      omega
    · exact Nat.lt_succ_of_lt (h.table key' e' he')

/-- **One step keeps the accounts.** -/
theorem accounted_step {l : Label} (h : Accounted s) (hs : step allowLegacy s l = some s') :
    Accounted s' := by
  cases move_of_step hs with
  | nothing => exact h
  | health | connect | number | refuse | refuseAndEnd | load | closeNow | closeLater | note | hangUp
  | dropEnd | drained | deferredClose | deferredGrace =>
    exact h.frame (fun _ => rfl) rfl rfl fun key e he => ⟨key, e, he, rfl⟩
  | insertOver c now cn r sid old hc hh ho =>
    refine h.frame (fun _ => rfl) rfl rfl fun key e he => ?_
    simp only [agents_setConn, lookup_insert] at he
    split_ifs at he
    · cases he
      exact ⟨_, old, ho, rfl⟩
    · exact ⟨key, e, he, rfl⟩
  | insertNew c now cn r sid hc hh ho => exact accounted_insertNew h rfl
  | dropNext c cn n rest hc hh =>
    refine h.frame (fun _ => rfl) rfl rfl fun key e he => ?_
    simp only [agents_setConn, lookup_removeIfSame] at he
    split_ifs at he
    exact ⟨key, e, he, rfl⟩
  | acquire q key e he hq ha => exact accounted_acquire h he hq
  | release q sl hq hr => exact accounted_release h hq
  | fatal q failure now sl cause hq hr =>
    exact h.frame (live_setSlot hq rfl) rfl rfl fun key e he => ⟨key, e, he, rfl⟩
  | strike q sl cause m hq hr hm =>
    exact h.frame (live_setSlot hq rfl) hm rfl fun key e he => ⟨key, e, he, rfl⟩
  | remove q sl cause key e m hq hr he hs' hm hev =>
    refine h.frame (live_setSlot hq rfl) hm rfl fun key' e' he' => ?_
    simp only [agents_setSlot, lookup_erase] at he'
    split_ifs at he'
    exact ⟨key', e', he', rfl⟩
  | evictNow q sl e n hq hr hn =>
    exact h.frame (live_setSlot hq rfl) rfl rfl fun key e he => ⟨key, e, he, rfl⟩
  | evictLater q sl e n hq hr =>
    exact h.frame (live_setSlot hq rfl) rfl rfl fun key e he => ⟨key, e, he, rfl⟩

theorem accounted_reaches (h : Reaches (step allowLegacy) init s) : Accounted s :=
  run_invariant (I := Accounted) (fun _ _ _ hi hs => accounted_step hi hs) accounted_init h

/-! ### The accounts of every reachable state -/

theorem Accounted.value_of_lt (h : Accounted s) (hk : live s k < 2 ^ 32) :
    (s.mem.inflight k).toNat = live s k := by
  rw [h.value k, UInt32.toNat_ofNat']
  exact Nat.mod_eq_of_lt hk

/-- **In-flight accounting.** In every reachable state a counter holds the number of live guards on it
modulo `2 ^ 32`: it is that number while it fits, 0 when there is none, and not 0 when one is about to be
dropped. A slot of an entry with a limit is only taken while the counter is below the limit. -/
theorem inflight_accounting (h : Reaches (step allowLegacy) init s) :
    (∀ k, s.mem.inflight k = UInt32.ofNat (live s k)) ∧
      (∀ k, live s k < 2 ^ 32 → (s.mem.inflight k).toNat = live s k) ∧
      (∀ k, live s k = 0 → s.mem.inflight k = 0) ∧
      (∀ q sl, s.slots.lookup q = some sl → live s sl.entry.inflight < 2 ^ 32 →
        s.mem.inflight sl.entry.inflight ≠ 0) ∧
      ∀ q key s', step allowLegacy s (.acquire q key) = some s' →
        ∃ e, s.agents.lookup key = some e ∧ s'.slots.lookup q = some ⟨e, .none⟩ ∧
          (e.maxConcurrency ≠ 0 → s.mem.inflight e.inflight < e.maxConcurrency) := by
  have ha := accounted_reaches h
  refine ⟨ha.value, fun k hk => ha.value_of_lt hk, fun k hk => ?_, fun q sl hq hlt hz => ?_,
    fun q key s' hs => ?_⟩
  · rw [ha.value k, hk]
    rfl
  · have hpos := live_pos_of_slot hq
    have hv := ha.value_of_lt hlt
    rw [hz] at hv
    exact absurd hv hpos.ne
  · simp only [step] at hs
    split at hs
    · next e he hq =>
      split_ifs at hs with hcan
      cases hs
      refine ⟨e, he, ?_, fun hmax => ?_⟩
      · simp
      · simpa [canAcquire, hmax] using hcan
    · cases hs

/-- One agent, one request. -/
theorem inflight_accounting_one : ∃ s, Reaches (step true) init s ∧ live s 0 = 1 ∧
    (s.mem.inflight 0).toNat = live s 0 := by
  obtain ⟨s, hs, hl⟩ := exists_run (step true) init
    [.connect 0 (.v4 1), .frame 0 (.register "a" ["*"] 2 "") false 0, .insert 0 0,
      .acquire 7 ⟨"default", "a", .v4 1⟩] (fun s => live s 0 = 1) (by decide)
  exact ⟨s, ⟨_, hs⟩, hl, (inflight_accounting ⟨_, hs⟩).2.1 0 (by omega)⟩

/-! ### An agent without a limit -/

/-- The node and the entry of an agent that registers without a limit. -/
def unlimitedKey : AgentKey := ⟨"default", "a", .v4 1⟩

@[inherit_doc unlimitedKey]
def unlimitedEntry : Entry := ⟨0, 1, "a", "default", ["*"], 0, 0⟩

theorem reaches_live : ∀ n : ℕ, ∃ s, Reaches (step true) init s ∧
    s.agents.lookup unlimitedKey = some unlimitedEntry ∧ live s 0 = n ∧
    ∀ q, n ≤ q → s.slots.lookup q = none
  | 0 => by
    refine ⟨_, ⟨[.connect 0 (.v4 1), .frame 0 (.register "a" ["*"] 0 "") false 0, .insert 0 0],
      rfl⟩, by decide, rfl, fun q _ => rfl⟩
  | n + 1 => by
    obtain ⟨s, hr, he, hl, hq⟩ := reaches_live n
    have hs : step true s (.acquire n unlimitedKey) =
        some ((s.setInflight 0 (s.mem.inflight 0 + 1)).setSlot n ⟨unlimitedEntry, .none⟩) := by
      simp only [step, he, hq n (Nat.le_refl n)]
      rfl
    refine ⟨_, hr.tail hs, he, ?_, fun q hle => ?_⟩
    · have := countVal_insert_of_none (⟨unlimitedEntry, .none⟩ : Slot)
        (fun sl => sl.entry.inflight = 0) (hq n (Nat.le_refl n))
      unfold live at hl ⊢
      rw [slots_setSlot]
      exact this.trans (by rw [hl]; rfl)
    · rw [slots_setSlot, lookup_insert, if_neg (by omega)]
      exact hq q (by omega)

/-- At `2 ^ 32` slots the counter of an agent without a limit is back at 0. -/
theorem unlimited_counter_wraps :
    ¬ ∀ s, Reaches (step true) init s → ∀ k, (s.mem.inflight k).toNat = live s k := by
  intro hall
  obtain ⟨s, hr, -, hl, -⟩ := reaches_live (2 ^ 32)
  have hlt := (s.mem.inflight 0).toNat_lt
  rw [hall s hr 0, hl] at hlt
  exact absurd hlt (Nat.lt_irrefl _)

end HomeLlmGateway.Registry.Accounting
