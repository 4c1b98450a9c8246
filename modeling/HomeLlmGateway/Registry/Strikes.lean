import HomeLlmGateway.Registry.Authority
import HomeLlmGateway.Registry.CloseSafety

/-! # When reports evict an entry

The health record of an entry counts failures by cause (`gateway/src/registry/entry.rs`), a response head
clears the counts (`note_tunnel_op_ok`), and the report that brings one of them to the threshold takes the
entry out (`gateway/src/registry/eviction.rs`). Here the counts are compared with the run: `fatalsSince`
counts the fatal reports for a `stable_id` since its registration and its last response head. -/

namespace HomeLlmGateway.Registry.Strikes

open HomeLlmGateway.Lib.Runs HomeLlmGateway.Lib.Assoc
open HomeLlmGateway.Registry.Node HomeLlmGateway.Registry.Table HomeLlmGateway.Registry.System
open HomeLlmGateway.Registry.Ownership HomeLlmGateway.Registry.Authority

/-! ### Reports, successes and registrations in a run -/

/-- The failures of a cause in a row. -/
def strikes (h : Health) : EvictCause → UInt32
  | .openTimeout => h.openTimeouts
  | .headTimeout => h.headTimeouts
  | .tunnelWriteFailed => h.tunnelWriteFailures

/-- The `stable_id` that a request carries. -/
def carried (s : State) (q : ℕ) : Option ℕ := (s.slots.lookup q).map (·.entry.stableId)

/-- The `stable_id` that the step registers. -/
def registersId (s : State) : Label → Option ℕ
  | .insert c _ => (s.conns.lookup c).bind fun cn =>
    match cn.handler with
    | .numbered _ stableId => some stableId
    | _ => none
  | _ => none

/-- The `stable_id` that the step calls `note_tunnel_op_ok` for. -/
def succeeds (s : State) : Label → Option ℕ
  | .headOk q _ => carried s q
  | _ => none

/-- The `stable_id` for which the step counts a fatal report, and the cause. -/
def reportsFatal (s : State) : Label → Option (ℕ × EvictCause)
  | .evict q => (s.slots.lookup q).bind fun sl =>
    match sl.report with
    | .fatal cause => some (sl.entry.stableId, cause)
    | _ => none
  | _ => none

/-- What a step makes of the number of fatal reports. -/
def tally (stableId : ℕ) (cause : EvictCause) (n : ℕ) (s : State) (l : Label) : ℕ :=
  if registersId s l = some stableId ∨ succeeds s l = some stableId then 0
  else if reportsFatal s l = some (stableId, cause) then n + 1
  else n

/-- How many fatal reports of the cause were made for the `stable_id` since the later of its registration
and its last success. -/
def fatalsSince (allowLegacy : Bool) (stableId : ℕ) (cause : EvictCause) (ls : List Label) : ℕ :=
  foldAlong (tally stableId cause) (step allowLegacy) 0 init ls

section records

variable (h : Health) (now : UInt64) (cause : EvictCause)

@[simp] theorem strikes_new : strikes (.new now) cause = 0 := by cases cause <;> rfl

@[simp] theorem strikes_headOk : strikes (h.headOk now) cause = 0 := by cases cause <;> rfl

@[simp] theorem strikes_heartbeat : strikes (h.heartbeat now) cause = strikes h cause := by
  cases cause <;> rfl

theorem strikes_strike (cause' : EvictCause) : strikes (h.strike cause').1 cause =
    if cause' = cause then strikes h cause + 1 else strikes h cause := by
  cases cause <;> cases cause' <;> rfl

theorem strike_snd : (h.strike cause).2 = strikes h cause + 1 := by cases cause <;> rfl

end records

/-! ### The lock section of a report -/

section evicting

variable {allowLegacy : Bool} {s s' : State} {k : AgentKey} {e : Entry}

theorem findStable_of_lookup (ho : Owned s) (he : s.agents.lookup k = some e) :
    findStable s.agents e.stableId = some (k, e) := by
  have hex : ∃ p ∈ s.agents.entries, decide (p.2.stableId = e.stableId) = true :=
    ⟨⟨k, e⟩, (mem_entries_iff _ _ _).mpr he, by simp⟩
  cases hf : findStable s.agents e.stableId with
  | none =>
    simp only [findStable, Option.map_eq_none_iff, List.find?_eq_none] at hf
    obtain ⟨p, hp, hs⟩ := hex
    exact absurd hs (hf p hp)
  | some p =>
    obtain ⟨k', e'⟩ := p
    obtain ⟨hl, hs⟩ := findStable_some hf
    obtain ⟨rfl, rfl⟩ := ho.stableId_inj hl he hs
    rfl

theorem findStable_eq_none {sid : ℕ} (h : ∀ k e, s.agents.lookup k = some e → e.stableId ≠ sid) :
    findStable s.agents sid = none := by
  cases hf : findStable s.agents sid with
  | none => rfl
  | some p =>
    obtain ⟨k, e⟩ := p
    obtain ⟨hl, hs⟩ := findStable_some hf
    exact absurd hs (h k e hl)

/-- **A fatal report for an entry of the table** counts a failure, and takes the entry out if that makes
three. -/
theorem evictLocked_of_lookup (ho : Owned s) (he : s.agents.lookup k = some e) (cause : EvictCause) :
    (evictLocked s.agents s.mem e.stableId cause).2.2.health =
        Function.update s.mem.health e.stableId ((s.mem.health e.stableId).strike cause).1 ∧
      (evictLocked s.agents s.mem e.stableId cause).2.1 =
        if strikes (s.mem.health e.stableId) cause + 1 < tunnelTimeoutsBeforeEvict then s.agents
        else s.agents.erase k := by
  unfold evictLocked
  rw [findStable_of_lookup ho he]
  dsimp only
  rw [strike_snd]
  split_ifs
  · exact ⟨rfl, rfl⟩
  · exact ⟨rfl, rfl⟩

theorem step_evict {q : ℕ} (h : step allowLegacy s (.evict q) = some s') :
    ∃ sl cause, s.slots.lookup q = some sl ∧ sl.report = .fatal cause ∧
      s'.agents = (evictLocked s.agents s.mem sl.entry.stableId cause).2.1 ∧
      s'.mem = (evictLocked s.agents s.mem sl.entry.stableId cause).2.2 := by
  obtain ⟨sl, hq, h⟩ := withSlot_eq_some.mp h
  split at h
  · next cause hr =>
    refine ⟨sl, cause, hq, hr, ?_⟩
    split at h
    · next he =>
      cases h
      rw [he]
      exact ⟨rfl, rfl⟩
    · next he =>
      cases h
      rw [he]
      exact ⟨rfl, rfl⟩
  · cases h

theorem health_evictLocked_of_ne (t : Agents) (m : Mem) {sid sid' : ℕ} (cause : EvictCause)
    (hne : sid' ≠ sid) : (evictLocked t m sid cause).2.2.health sid' = m.health sid' := by
  unfold evictLocked
  cases hf : findStable t sid with
  | none => rfl
  | some p =>
    obtain ⟨k, e⟩ := p
    obtain ⟨-, hs⟩ := findStable_some hf
    have hup : Function.update m.health e.stableId ((m.health e.stableId).strike cause).1 sid' =
        m.health sid' := Function.update_of_ne (hs ▸ hne) _ _
    dsimp only
    split_ifs
    · exact hup
    · exact hup

theorem lookup_evictLocked_of_ne (t : Agents) (m : Mem) {sid : ℕ} (cause : EvictCause)
    (he : t.lookup k = some e) (hne : e.stableId ≠ sid) :
    (evictLocked t m sid cause).2.1.lookup k = some e := by
  rcases evictLocked_spec t m sid cause with h | ⟨n, m', h, -⟩ | ⟨k', e', m', h, hl, hs, -⟩
  · rw [h]
    exact he
  · rw [h]
    exact he
  · have hk : k ≠ k' := by
      rintro rfl
      rw [he] at hl
      cases hl
      exact hne hs
    rw [h]
    show (t.erase k').lookup k = _
    rw [lookup_erase, if_neg hk]
    exact he

/-- A report for a `stable_id` that the table does not have does nothing there. -/
theorem evictLocked_notFound {sid : ℕ} (m : Mem) (cause : EvictCause)
    (h : ∀ k e, s.agents.lookup k = some e → e.stableId ≠ sid) :
    evictLocked s.agents m sid cause = (.notFound, s.agents, m) := by
  unfold evictLocked
  rw [findStable_eq_none h]

end evicting

/-! ### Counting along the run -/

section counting

variable {allowLegacy : Bool} {s s' : State} {k : AgentKey} {e : Entry} {l : Label} {ls : List Label}

/-- The steps that may touch a health record. -/
def touchesHealth : Label → Bool
  | .frame _ _ _ _ | .insert _ _ | .headOk _ _ | .evict _ => true
  | _ => false

theorem health_eq_of_step (h : step allowLegacy s l = some s') (hl : touchesHealth l = false) :
    s'.mem.health = s.mem.health := by
  by_cases hc : ∃ c, conn l = some c
  · obtain ⟨c, hc⟩ := hc
    rcases health_of_conn_step h hc with h' | ⟨f, v, now, rfl⟩ | ⟨now, cn, r, sid, rfl, -⟩
    · exact h'
    · cases hl
    · cases hl
  · cases l with
    | acquire q key =>
      simp only [step] at h
      split at h
      · split_ifs at h
        cases h
        rfl
      · cases h
    | release q =>
      obtain ⟨sl, -, h⟩ := withSlot_eq_some.mp h
      split at h
      · cases h
        rfl
      · cases h
    | report q failure now =>
      obtain ⟨sl, -, h⟩ := withSlot_eq_some.mp h
      split at h
      · cases h
        rfl
      · cases h
        rfl
      · cases h
    | evictClose q =>
      obtain ⟨sl, -, h⟩ := withSlot_eq_some.mp h
      split at h
      · dsimp only at h
        split_ifs at h
        · cases h
          rfl
        · cases h
          rfl
      · cases h
    | deferredLoad i =>
      obtain ⟨d, -, h⟩ := Option.map_eq_some_iff.mp h
      split_ifs at h
      · subst h
        rfl
      · subst h
        rfl
    | deferredClose i =>
      obtain ⟨d, -, h⟩ := Option.bind_eq_some_iff.mp h
      split_ifs at h
      cases h
      rfl
    | deferredGrace i =>
      obtain ⟨d, -, h⟩ := Option.bind_eq_some_iff.mp h
      split_ifs at h
      cases h
      rfl
    | evict q | headOk q now => cases hl
    | _ => exact absurd ⟨_, rfl⟩ hc

/-- **One step counts as the tally does**, for an entry of the table. -/
theorem strikes_step (ho : Owned s) (hs : step allowLegacy s l = some s')
    (he : s.agents.lookup k = some e) (cause : EvictCause) :
    strikes (s'.mem.health e.stableId) cause =
      if registersId s l = some e.stableId ∨ succeeds s l = some e.stableId then 0
      else if reportsFatal s l = some (e.stableId, cause) then
        strikes (s.mem.health e.stableId) cause + 1
      else strikes (s.mem.health e.stableId) cause := by
  by_cases hl : touchesHealth l = false
  · rw [health_eq_of_step hs hl]
    cases l with
    | frame | insert | headOk | evict => cases hl
    | _ => rfl
  · cases l with
    | frame c f v now =>
      have hm : strikes (s'.mem.health e.stableId) cause = strikes (s.mem.health e.stableId) cause := by
        obtain ⟨cn, -, -, ⟨r, -, -, rfl⟩ | ⟨-, -, hm, -⟩ | ⟨_, _, _, sid, _, -, -, -, -, -, rfl⟩⟩ :=
          frame_cases hs
        · rfl
        · rw [hm]
        · by_cases hsid : e.stableId = sid
          · simp [hsid]
          · simp [hsid]
      rw [hm]
      rfl
    | insert c now =>
      obtain ⟨cn, hc, hs⟩ := withConn_eq_some.mp hs
      split at hs
      · next r sid hh =>
        cases hs
        rw [(insertLocked_spec s c cn r sid now).1]
        have hreg : registersId s (.insert c now) = some sid := by simp [registersId, hc, hh]
        by_cases hsid : e.stableId = sid
        · simp [hreg, hsid]
        · simp [hreg, hsid, Ne.symm hsid, succeeds, reportsFatal]
      · cases hs
    | headOk q now =>
      obtain ⟨sl, hq, hs⟩ := withSlot_eq_some.mp hs
      have hsucc : succeeds s (.headOk q now) = some sl.entry.stableId := by simp [succeeds, carried, hq]
      by_cases hsid : sl.entry.stableId = e.stableId
      · rw [hsid, findStable_of_lookup ho he] at hs
        cases hs
        simp [hsucc, hsid]
      · have hkeep : s'.mem.health e.stableId = s.mem.health e.stableId := by
          split at hs
          · next k' e' hf =>
            cases hs
            obtain ⟨-, hs'⟩ := findStable_some hf
            exact Function.update_of_ne (fun h => hsid (hs' ▸ h.symm)) _ _
          · cases hs
            rfl
        rw [hkeep]
        simp [hsucc, hsid, registersId, reportsFatal]
    | evict q =>
      obtain ⟨sl, cause', hq, hr, -, hm⟩ := step_evict hs
      have hrep : reportsFatal s (.evict q) = some (sl.entry.stableId, cause') := by
        simp [reportsFatal, hq, hr]
      rw [hm, hrep]
      by_cases hsid : sl.entry.stableId = e.stableId
      · rw [hsid, (evictLocked_of_lookup ho he cause').1, Function.update_self, strikes_strike]
        simp [registersId, succeeds]
      · rw [health_evictLocked_of_ne _ _ _ (Ne.symm hsid)]
        simp [registersId, succeeds, hsid]
    | _ => exact absurd rfl hl

theorem fatalsSince_concat (hr : run (step allowLegacy) init ls = some s) (sid : ℕ)
    (cause : EvictCause) : fatalsSince allowLegacy sid cause (ls ++ [l]) =
      tally sid cause (fatalsSince allowLegacy sid cause ls) s l :=
  foldAlong_concat _ hr

/-- After a fatal report for it, an entry is in the table if the count is below the threshold. -/
theorem lookup_reported (ho : Owned s) (hs : step allowLegacy s l = some s')
    (he : s.agents.lookup k = some e) {cause : EvictCause}
    (hl : reportsFatal s l = some (e.stableId, cause)) : s'.agents.lookup k =
      if strikes (s.mem.health e.stableId) cause + 1 < tunnelTimeoutsBeforeEvict then some e else none := by
  cases l with
  | evict q =>
    obtain ⟨sl, cause', hq, hr, ha, -⟩ := step_evict hs
    have hrep : reportsFatal s (.evict q) = some (sl.entry.stableId, cause') := by
      simp [reportsFatal, hq, hr]
    rw [hl] at hrep
    obtain ⟨hsid, rfl⟩ := Prod.mk.inj (Option.some.inj hrep)
    rw [ha, ← hsid, (evictLocked_of_lookup ho he cause).2]
    split_ifs
    · exact he
    · rw [lookup_erase, if_pos rfl]
  | _ => cases hl

/-- The counts in the table are those of the run, and below the threshold. -/
def Counted (allowLegacy : Bool) (ls : List Label) (s : State) : Prop :=
  ∀ k e, s.agents.lookup k = some e → ∀ cause,
    (strikes (s.mem.health e.stableId) cause).toNat = fatalsSince allowLegacy e.stableId cause ls ∧
      fatalsSince allowLegacy e.stableId cause ls < tunnelTimeoutsBeforeEvict.toNat

theorem toNat_succ {n : UInt32} (h : n.toNat < tunnelTimeoutsBeforeEvict.toNat) :
    (n + 1).toNat = n.toNat + 1 := by
  have h3 : tunnelTimeoutsBeforeEvict.toNat = 3 := rfl
  have h1 : (1 : UInt32).toNat = 1 := rfl
  rw [UInt32.toNat_add, h1]
  omega

theorem counted_step (ho : Owned s) (hr : run (step allowLegacy) init ls = some s)
    (h : Counted allowLegacy ls s) (hs : step allowLegacy s l = some s') :
    Counted allowLegacy (ls ++ [l]) s' := by
  intro k e he cause
  have h3 : tunnelTimeoutsBeforeEvict.toNat = 3 := rfl
  rw [fatalsSince_concat hr]
  unfold tally
  by_cases hk : s'.agents.lookup k = s.agents.lookup k
  · rw [hk] at he
    obtain ⟨heq, hlt⟩ := h k e he cause
    rw [strikes_step ho hs he cause]
    split_ifs with hreset hrep
    · exact ⟨rfl, by omega⟩
    · have hin := lookup_reported ho hs he hrep
      rw [hk, he] at hin
      have hn := toNat_succ (heq ▸ hlt)
      split_ifs at hin with hbelow
      rw [UInt32.lt_iff_toNat_lt, hn] at hbelow
      rw [hn]
      omega
    · exact ⟨heq, hlt⟩
  · rcases lookup_change hs hk with ⟨c, now, cn, r, sid, e', rfl, hc, hh, -, he', -, hes, -⟩ |
      ⟨_, _, _, _, _, _, _, _, hn⟩ | ⟨_, hn⟩
    · rw [he] at he'
      cases he'
      have hreg : registersId s (.insert c now) = some e.stableId := by simp [registersId, hc, hh, hes]
      simp only [step, withConn, hc, Option.bind_some, hh, Option.some.injEq] at hs
      subst hs
      rw [if_pos (Or.inl hreg), (insertLocked_spec s c cn r sid now).1, hes, Function.update_self,
        strikes_new]
      exact ⟨rfl, by omega⟩
    · rw [hn] at he
      cases he
    · rw [hn] at he
      cases he

/-- **The counts are those of the run.** -/
theorem counted_run (hr : run (step allowLegacy) init ls = some s) : Counted allowLegacy ls s :=
  run_history (H := Counted allowLegacy) (C := fun _ _ => True) (fun k e he => by cases he)
    (fun ls s l s' hr h _ hs => counted_step (owned_reaches ⟨ls, hr⟩) hr h hs) ls s
    (allSteps_true ls init) hr

/-- A report takes an entry out at the step at which a count reaches the threshold, and only then. -/
theorem removed_iff (hr : run (step allowLegacy) init ls = some s)
    (hs : step allowLegacy s l = some s') (he : s.agents.lookup k = some e) :
    ((∃ q, l = .evict q) ∧ s'.agents.lookup k ≠ some e) ↔
      ∃ cause, fatalsSince allowLegacy e.stableId cause (ls ++ [l]) = tunnelTimeoutsBeforeEvict.toNat := by
  have ho := owned_reaches ⟨ls, hr⟩
  have hcount := counted_run hr k e he
  have h3 : tunnelTimeoutsBeforeEvict.toNat = 3 := rfl
  constructor
  · rintro ⟨⟨q, rfl⟩, hne⟩
    obtain ⟨sl, cause, hq, hrep, ha, -⟩ := step_evict hs
    have hsid : sl.entry.stableId = e.stableId := by
      by_contra hsid
      exact hne (by rw [ha]; exact lookup_evictLocked_of_ne _ _ _ he (Ne.symm hsid))
    have hl : reportsFatal s (.evict q) = some (e.stableId, cause) := by
      simp [reportsFatal, hq, hrep, hsid]
    obtain ⟨heq, hlt⟩ := hcount cause
    have hn := toNat_succ (heq ▸ hlt)
    have hin := lookup_reported ho hs he hl
    refine ⟨cause, ?_⟩
    rw [fatalsSince_concat hr]
    unfold tally
    rw [if_neg (by simp [registersId, succeeds]), if_pos hl]
    split_ifs at hin with hbelow
    · exact absurd hin hne
    · rw [UInt32.lt_iff_toNat_lt, hn] at hbelow
      omega
  · rintro ⟨cause, hc⟩
    obtain ⟨heq, hlt⟩ := hcount cause
    rw [fatalsSince_concat hr] at hc
    unfold tally at hc
    split_ifs at hc with hreset hrep
    · omega
    · have hin := lookup_reported ho hs he hrep
      have hn := toNat_succ (heq ▸ hlt)
      have hnot : ¬ strikes (s.mem.health e.stableId) cause + 1 < tunnelTimeoutsBeforeEvict := by
        rw [UInt32.lt_iff_toNat_lt, hn]
        omega
      rw [if_neg hnot] at hin
      refine ⟨?_, by rw [hin]; simp⟩
      cases l with
      | evict q => exact ⟨q, rfl⟩
      | _ => cases hrep
    · omega

end counting

/-! ### Entries that have left the table -/

section gone

variable {allowLegacy : Bool} {s s' : State} {k : AgentKey} {e : Entry} {l : Label} {c : ℕ} {t' : Task}

theorem numbered_step (hs : step allowLegacy s l = some s') {r : Register} {sid : ℕ}
    (ht : s'.task c = some t') (hn : t'.handler = .numbered r sid) :
    (∃ t, s.task c = some t ∧ t.handler = .numbered r sid) ∨
      (sid = s.nextConnId ∧ s'.nextConnId = s.nextConnId + 1) := by
  -- a task that goes on to another handler was not numbered by that
  have hother : ∀ (c1 : ℕ) {t1 : Task}, (∀ r sid, t1.handler ≠ .numbered r sid) →
      s'.task c = (if c = c1 then some t1 else s.task c) →
      ∃ t, s.task c = some t ∧ t.handler = .numbered r sid := by
    intro c1 t1 h1 htask
    rw [htask] at ht
    split_ifs at ht
    · cases ht
      exact absurd hn (h1 r sid)
    · exact ⟨t', ht, hn⟩
  cases move_of_step hs with
  | number c1 f v now cn r1 hc hh ha =>
    rw [task_setConn] at ht
    split_ifs at ht
    · cases ht
      cases hn
      exact Or.inr ⟨rfl, rfl⟩
    · exact Or.inl ⟨t', ht, hn⟩
  | refuse | evictNow | deferredClose | deferredGrace =>
    rw [task_close] at ht
    exact Or.inl ⟨t', ht, hn⟩
  | refuseAndEnd c1 | closeNow c1 =>
    exact Or.inl (hother c1 (by simp) (task_setConn_close _ _ _ _ _ _ _))
  | connect c1 | insertOver c1 | insertNew c1 | load c1 | closeLater c1 | note c1 | hangUp c1
  | dropNext c1 | dropEnd c1 =>
    exact Or.inl (hother c1 (by simp) (task_setConn _ _ _ _))
  | _ => exact Or.inl ⟨t', ht, hn⟩

theorem nextConnId_le_of_step (hs : step allowLegacy s l = some s') : s.nextConnId ≤ s'.nextConnId := by
  cases move_of_step hs with
  | number => exact Nat.le_succ _
  | _ => exact Nat.le_refl _

theorem task_insert {now : UInt64} (hs : step allowLegacy s (.insert c now) = some s')
    (ht : s'.task c = some t') (r : Register) (sid : ℕ) : t'.handler ≠ .numbered r sid := by
  obtain ⟨cn, hc, hs⟩ := withConn_eq_some.mp hs
  split at hs
  · cases hs
    unfold insertLocked at ht
    dsimp only at ht
    split at ht
    · rw [task_setConn, if_pos rfl] at ht
      cases ht
      simp
    · rw [task_setConn, if_pos rfl] at ht
      cases ht
      simp
  · cases hs

/-- A number that a registration has not used yet is no entry's. -/
def Unused (s : State) : Prop :=
  ∀ c t r sid, s.task c = some t → t.handler = .numbered r sid →
    ∀ k e, s.agents.lookup k = some e → e.stableId ≠ sid

theorem stableId_lt (ho : Owned s) (he : s.agents.lookup k = some e) : e.stableId < s.nextConnId := by
  obtain ⟨t, ht, -, hheld⟩ := ho.table k e he
  exact ho.below _ t _ k ht hheld

theorem unused_step (ho : Owned s) (h : Unused s) (hs : step allowLegacy s l = some s') : Unused s' := by
  intro c t' r sid ht hn k e he
  have hnew : s.agents.lookup k = some e → e.stableId ≠ sid := by
    intro he
    rcases numbered_step hs ht hn with ⟨t, ht0, hn0⟩ | ⟨rfl, -⟩
    · exact h c t r sid ht0 hn0 k e he
    · exact Nat.ne_of_lt (stableId_lt ho he)
  by_cases hk : s'.agents.lookup k = s.agents.lookup k
  · exact hnew (hk ▸ he)
  · rcases lookup_change hs hk with ⟨c1, now, cn, r1, sid1, e1, rfl, hc, hh, -, he1, -, hes, -⟩ |
      ⟨_, _, _, _, _, _, _, _, hno⟩ | ⟨_, hno⟩
    · rw [he] at he1
      cases he1
      rintro rfl
      rcases numbered_step hs ht hn with ⟨t, ht0, hn0⟩ | ⟨hnext, -⟩
      · have hcc : c = c1 := by
          have h0 : (e.stableId, r.key t.peerIp) ∈ held t := by simp [held, hn0]
          have h1 : (e.stableId, r1.key cn.peerIp) ∈ held ⟨cn.peerIp, cn.handler, cn.registration⟩ := by
            simp [held, hh, hes]
          exact (ho.unique _ _ _ _ _ _ _ ht0 (task_of_lookup hc) h0 h1).1
        subst hcc
        exact task_insert hs ht r _ hn
      · have hlt := ho.below c1 _ sid1 (r1.key cn.peerIp) (task_of_lookup hc) (by simp [held, hh])
        omega
    · rw [hno] at he
      cases he
    · rw [hno] at he
      cases he

theorem unused_reaches (h : Reaches (step allowLegacy) init s) : Unused s := by
  have hi : Owned s ∧ Unused s := by
    refine run_invariant (I := fun s => Owned s ∧ Unused s) (fun s l s' hi hs => ?_) ?_ h
    · exact ⟨owned_step hi.1 hs, unused_step hi.1 hi.2 hs⟩
    · exact ⟨owned_init, fun c t r sid ht => by cases ht⟩
  exact hi.2

/-- Whatever comes, the `stable_id` of `e` is `e`'s, under its node. -/
structure Settled (k : AgentKey) (e : Entry) (s : State) : Prop where
  low : e.stableId < s.nextConnId
  numbered : ∀ c t r, s.task c = some t → t.handler ≠ .numbered r e.stableId
  table : ∀ k' e', s.agents.lookup k' = some e' → e'.stableId = e.stableId → k' = k ∧ e' = e

theorem settled_step (h : Settled k e s) (hs : step allowLegacy s l = some s') : Settled k e s' := by
  refine ⟨Nat.lt_of_lt_of_le h.low (nextConnId_le_of_step hs), fun c t r ht hn => ?_,
    fun k' e' he' hid => ?_⟩
  · rcases numbered_step hs ht hn with ⟨t0, ht0, hn0⟩ | ⟨hnext, -⟩
    · exact h.numbered c t0 r ht0 hn0
    · have := h.low
      omega
  · by_cases hk : s'.agents.lookup k' = s.agents.lookup k'
    · exact h.table k' e' (hk ▸ he') hid
    · rcases lookup_change hs hk with ⟨c1, now, cn, r1, sid1, e1, rfl, hc, hh, -, he1, -, hes, -⟩ |
        ⟨_, _, _, _, _, _, _, _, hno⟩ | ⟨_, hno⟩
      · rw [he'] at he1
        cases he1
        rw [← hes, hid] at hh
        exact absurd hh (h.numbered c1 _ r1 (task_of_lookup hc))
      · rw [hno] at he'
        cases he'
      · rw [hno] at he'
        cases he'

/-- An entry that has left the table does not come back, nor does its `stable_id`. -/
theorem gone_for_good {s1 : State} (h1 : Reaches (step allowLegacy) init s1)
    (he : s1.agents.lookup k = some e) (h : Reaches (step allowLegacy) s1 s)
    (hne : s.agents.lookup k ≠ some e) :
    ∀ k' e', s.agents.lookup k' = some e' → e'.stableId ≠ e.stableId := by
  have ho := owned_reaches h1
  have hset : Settled k e s1 := by
    refine ⟨stableId_lt ho he, fun c t r ht hn => ?_, fun k' e' he' hid => ?_⟩
    · exact unused_reaches h1 c t r _ ht hn k e he rfl
    · exact ho.stableId_inj he' he hid
  have hend := run_invariant (I := Settled k e) (fun _ _ _ hi hs => settled_step hi hs) hset h
  intro k' e' he' hid
  obtain ⟨rfl, rfl⟩ := hend.table k' e' he' hid
  exact hne he'

end gone

/-! ### The law -/

section law

variable {allowLegacy : Bool} {ls : List Label} {l : Label} {s s' : State} {k : AgentKey} {e : Entry}

/-- The request that reports a failure or a success. -/
def reporter : Label → Option ℕ
  | .report q _ _ | .evict q | .headOk q _ => some q
  | _ => none

theorem unknown_report {q sid : ℕ} (hs : step allowLegacy s l = some s') (hl : reporter l = some q)
    (hq : carried s q = some sid) (hno : ∀ k e, s.agents.lookup k = some e → e.stableId ≠ sid) :
    s'.agents = s.agents ∧ s'.mem = s.mem := by
  obtain ⟨sl, hsl, hsid⟩ := Option.map_eq_some_iff.mp hq
  subst hsid
  cases l with
  | report q' failure now =>
    obtain ⟨sl', -, hs⟩ := withSlot_eq_some.mp hs
    split at hs
    · cases hs
      exact ⟨rfl, rfl⟩
    · cases hs
      exact ⟨rfl, rfl⟩
    · cases hs
  | evict q' =>
    cases hl
    obtain ⟨sl', cause, hsl', -, ha, hm⟩ := step_evict hs
    rw [hsl] at hsl'
    cases hsl'
    rw [ha, hm, evictLocked_notFound s.mem cause hno]
    exact ⟨rfl, rfl⟩
  | headOk q' now =>
    cases hl
    obtain ⟨sl', hsl', hs⟩ := withSlot_eq_some.mp hs
    rw [hsl] at hsl'
    cases hsl'
    rw [findStable_eq_none hno] at hs
    cases hs
    exact ⟨rfl, rfl⟩
  | _ => cases hl

theorem other_report {q : ℕ} (hs : step allowLegacy s l = some s') (hl : reporter l = some q)
    (he : s.agents.lookup k = some e) (hq : carried s q ≠ some e.stableId) :
    s'.agents.lookup k = some e ∧ s'.mem.health e.stableId = s.mem.health e.stableId ∧
      s'.mem.inflight = s.mem.inflight := by
  cases l with
  | report q' failure now =>
    obtain ⟨sl', -, hs⟩ := withSlot_eq_some.mp hs
    split at hs
    · cases hs
      exact ⟨he, rfl, rfl⟩
    · cases hs
      exact ⟨he, rfl, rfl⟩
    · cases hs
  | evict q' =>
    cases hl
    obtain ⟨sl, cause, hsl, -, ha, hm⟩ := step_evict hs
    have hne : e.stableId ≠ sl.entry.stableId := fun h => hq (by simp [carried, hsl, h])
    rw [ha, hm]
    refine ⟨lookup_evictLocked_of_ne _ _ _ he hne, health_evictLocked_of_ne _ _ _ hne, ?_⟩
    rcases evictLocked_spec s.agents s.mem sl.entry.stableId cause with
      h | ⟨n, m, h, hi⟩ | ⟨k', e', m, h, -, -, hi⟩
    · rw [h]
    · rw [h]
      exact hi
    · rw [h]
      exact hi
  | headOk q' now =>
    cases hl
    obtain ⟨sl, hsl, hs⟩ := withSlot_eq_some.mp hs
    have hne : e.stableId ≠ sl.entry.stableId := fun h => hq (by simp [carried, hsl, h])
    split at hs
    · next k' e' hf =>
      cases hs
      obtain ⟨-, hs'⟩ := findStable_some hf
      exact ⟨he, Function.update_of_ne (hs' ▸ hne) _ _, rfl⟩
    · cases hs
      exact ⟨he, rfl, rfl⟩
  | _ => cases hl

/-- **The eviction law.** At every step of every run: a report takes an entry out exactly if the fatal
reports of one cause for its `stable_id`, since its registration and its last response head, reach the
threshold with this step; a failure that is judged transient changes nothing; a report or success for an
entry that has left the table changes neither table nor records; and one for an entry leaves every other
entry and its record alone. -/
theorem eviction_law (hr : run (step allowLegacy) init ls = some s)
    (hs : step allowLegacy s l = some s') :
    (∀ k e, s.agents.lookup k = some e → (((∃ q, l = .evict q) ∧ s'.agents.lookup k ≠ some e) ↔
      ∃ cause, fatalsSince allowLegacy e.stableId cause (ls ++ [l]) =
        tunnelTimeoutsBeforeEvict.toNat)) ∧
    (∀ q failure now sl, l = .report q failure now → s.slots.lookup q = some sl →
      judge s.mem sl.entry now failure = none → s' = s) ∧
    (∀ k e ls1 ls2 s1 q, ls = ls1 ++ ls2 → run (step allowLegacy) init ls1 = some s1 →
      s1.agents.lookup k = some e → s.agents.lookup k ≠ some e → reporter l = some q →
      carried s q = some e.stableId → s'.agents = s.agents ∧ s'.mem = s.mem) ∧
    (∀ k e q, s.agents.lookup k = some e → reporter l = some q → carried s q ≠ some e.stableId →
      s'.agents.lookup k = some e ∧ s'.mem.health e.stableId = s.mem.health e.stableId ∧
        s'.mem.inflight = s.mem.inflight) := by
  refine ⟨fun k e he => removed_iff hr hs he, ?_, ?_, fun k e q he hl hq => other_report hs hl he hq⟩
  · rintro q failure now sl rfl hq hj
    obtain ⟨sl', hq', hs⟩ := withSlot_eq_some.mp hs
    rw [hq] at hq'
    cases hq'
    rw [hj] at hs
    split at hs
    · next h => cases h
    · exact (Option.some.inj hs).symm
    · cases hs
  · rintro k e ls1 ls2 s1 q rfl h1 he hne hl hq
    rw [run_append, h1, Option.bind_some] at hr
    exact unknown_report hs hl hq (gone_for_good ⟨ls1, h1⟩ he ⟨ls2, hr⟩ hne)

end law

/-- An agent joins and does not answer three requests. -/
def threeInVain : List Label :=
  .connect 0 (.v4 1) :: Ownership.registers 0 "a" ++ [.note 0] ++ CloseSafety.waitsInVain 0 "a" ++
    [.release 0] ++ CloseSafety.waitsInVain 1 "a" ++ [.release 1] ++
    [.acquire 2 ⟨"default", "a", .v4 1⟩, .report 2 (.headTimeout ⟨0, 0, 0⟩) 0]

/-- The third report evicts it. -/
theorem eviction_law_third : ∃ s s' e, run (step true) init threeInVain = some s ∧
    step true s (.evict 2) = some s' ∧ s.agents.lookup ⟨"default", "a", .v4 1⟩ = some e ∧
    s'.agents.lookup ⟨"default", "a", .v4 1⟩ = none ∧
    ∃ cause, fatalsSince true e.stableId cause (threeInVain ++ [.evict 2]) = 3 := by
  obtain ⟨s, hr, he, h⟩ := exists_run (step true) init threeInVain
    (fun s => s.agents.lookup ⟨"default", "a", .v4 1⟩ = some ⟨0, 1, "a", "default", ["*"], 0, 0⟩ ∧
      (step true s (.evict 2)).any
        (fun s' => s'.agents.lookup ⟨"default", "a", .v4 1⟩ = none) = true) (by decide)
  obtain ⟨s', hs, hn⟩ := (Option.any_eq_true _ _).mp h
  have hn := of_decide_eq_true hn
  have hne : s'.agents.lookup ⟨"default", "a", .v4 1⟩ ≠
      some ⟨0, 1, "a", "default", ["*"], 0, 0⟩ := by rw [hn]; simp
  exact ⟨s, s', _, hr, hs, he, hn, ((eviction_law hr hs).1 _ _ he).mp ⟨⟨2, rfl⟩, hne⟩⟩

end HomeLlmGateway.Registry.Strikes
