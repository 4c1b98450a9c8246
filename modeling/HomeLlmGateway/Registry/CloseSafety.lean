import HomeLlmGateway.Registry.Accounting
import HomeLlmGateway.Registry.Lineage

/-! # Close safety

A takeover and an eviction close a connection when the counter of the one entry they replace or remove
says that nobody else is on it. The counter is the node's, the close is the connection's. As long as a
connection carries one node these agree: the entry that was taken out was the connection's only one, all
requests through the connection are counted on it, and no request can come any more (`Lost`). -/

namespace HomeLlmGateway.Registry.CloseSafety

open HomeLlmGateway.Lib.Runs HomeLlmGateway.Lib.Assoc
open HomeLlmGateway.Registry.Node HomeLlmGateway.Registry.Table HomeLlmGateway.Registry.System
open HomeLlmGateway.Registry.Ownership HomeLlmGateway.Registry.Takeover
open HomeLlmGateway.Registry.Lineage HomeLlmGateway.Registry.Accounting

variable {allowLegacy : Bool} {s s' : State} {x k : ℕ} {l : Label}

/-! ### Connections that have lost their node -/

/-- The connection `x` has lost its entry: none is left, and requests through it count on `k`. -/
structure Lost (s : State) (x k : ℕ) : Prop where
  table : ∀ key e, s.agents.lookup key = some e → e.conn ≠ x
  slots : ∀ q sl, s.slots.lookup q = some sl → sl.entry.conn = x → sl.entry.inflight = k
  known : ∃ sid, Known s x sid

/-- No request holds a slot through the connection `x`, except the one given. -/
def Clear (s : State) (x : ℕ) (except : Option ℕ) : Prop :=
  ∀ q sl, s.slots.lookup q = some sl → sl.entry.conn = x → except = some q

/-- A connection that has lost its node does not come to its lock section again. -/
theorem not_insert_of_lost (ho : Owned s) (h : Lost s x k) {cn : Conn} {r : Register} {sid : ℕ}
    {now : UInt64} (hc : s.conns.lookup x = some cn) (hh : cn.handler = .numbered r sid) :
    separate s (.insert x now) ≠ true := by
  intro hC
  obtain ⟨sid', t, htask, hreg⟩ := h.known
  rw [task_of_lookup hc] at htask
  cases htask
  obtain ⟨n, hn, -⟩ : ∃ n ∈ cn.registration.agent, n.stableId = sid' := by
    simpa [Registered, landed, hh] using hreg
  obtain ⟨e, he, hec⟩ := own_entry_of_separate ho hc hh hC n hn
  exact h.table n.key e he hec

theorem lost_step (ht : Tracked s) (ho : Owned s) (hC : separate s l = true)
    (hs : step allowLegacy s l = some s') (h : Lost s x k) : Lost s' x k := by
  refine ⟨fun key e he hx => ?_, fun q sl' hq hx => ?_, ?_⟩
  · rcases agents_step hs he with he | ⟨cn, r, sid, now, hc, hh, hl⟩
    · exact h.table key e he hx
    · subst hl
      rw [hx] at hc hC
      exact not_insert_of_lost ho h hc hh hC
  · rcases slots_step hs hq with ⟨sl, hq0, he⟩ | ⟨key, he⟩
    · rw [← he] at hx ⊢
      exact h.slots q sl hq0 hx
    · exact absurd hx (h.table key _ he)
  · obtain ⟨sid, hk⟩ := h.known
    exact ⟨sid, known_step ht ho hs x sid hk⟩

theorem clear_step (hs : step allowLegacy s l = some s') {except : Option ℕ} (h : Lost s x k)
    (hcl : Clear s x except) : Clear s' x except := by
  intro q sl' hq hx
  rcases slots_step hs hq with ⟨sl, hq0, he⟩ | ⟨key, he⟩
  · exact hcl q sl hq0 (he ▸ hx)
  · exact absurd hx (h.table key _ he)

/-- An entry leaves the table whose connection carries no other node. -/
theorem lost_of_carriesOnly (ht : Tracked s) (ho : Owned s) {key : AgentKey} {e : Entry}
    (he : s.agents.lookup key = some e) (hC : carriesOnly s e.conn e.stableId = true)
    (ha : ∀ key' e', s'.agents.lookup key' = some e' →
      key' ≠ key ∧ s.agents.lookup key' = some e' ∨ e'.conn ≠ e.conn)
    (hsl : ∀ q sl', s'.slots.lookup q = some sl' →
      ∃ sl, s.slots.lookup q = some sl ∧ sl.entry = sl'.entry)
    (hk : ∀ x sid, Known s x sid → Known s' x sid) : Lost s' e.conn e.inflight := by
  have hmine : ∀ e', Ref s e' → e'.conn = e.conn → e' = e := by
    intro e' he' hx
    refine ht.same e' e he' (Or.inl ⟨key, he⟩) ?_
    obtain ⟨t, htask, hreg⟩ := ht.ref e' he'
    obtain ⟨cn, hc, rfl⟩ := Option.map_eq_some_iff.mp (hx ▸ htask)
    simp only [carriesOnly, hc, Option.all_some, Bool.and_eq_true, List.all_eq_true] at hC
    rcases hreg with ⟨n, hn, hns⟩ | ⟨r, hl⟩
    · have := hC.1 n hn
      rw [← hns]
      simpa using this
    · have hp : pending cn.handler = some (r, e'.stableId) := by
        revert hl
        cases cn.handler <;> simp [landed, pending]
      rw [hp] at hC
      simpa using hC.2
  refine ⟨fun key' e' he' hx => ?_, fun q sl' hq hx => ?_, ⟨e.stableId, ?_⟩⟩
  · rcases ha key' e' he' with ⟨hne, he0⟩ | hne
    · have heq := hmine e' (Or.inl ⟨key', he0⟩) hx
      exact hne (ho.stableId_inj he0 he (by rw [heq])).1
    · exact hne hx
  · obtain ⟨sl, hq0, hsle⟩ := hsl q sl' hq
    rw [← hsle] at hx ⊢
    rw [hmine sl.entry (Or.inr ⟨q, sl, hq0, rfl⟩) hx]
  · exact hk _ _ (ht.ref e (Or.inl ⟨key, he⟩))

/-! ### Decisions to close -/

/-- Whoever has decided to close a connection, or will, deals with one that has lost its node; and whoever
has read that nobody is on it is right. -/
structure Decided (s : State) : Prop where
  handler : ∀ c t old, s.task c = some t → replaced t.handler = some old → Lost s old.conn old.inflight
  closing : ∀ c t r sid old, s.task c = some t → t.handler = .closing r sid old 0 →
    Clear s old.conn none
  removed : ∀ q sl e n, s.slots.lookup q = some sl → sl.report = .removed e n →
    Lost s e.conn e.inflight ∧ (n ≤ 1 → Clear s e.conn (some q))
  deferred : ∀ d ∈ s.deferred, Lost s d.conn d.inflight ∧ (d.drained = true → Clear s d.conn none)

theorem decided_init : Decided init where
  handler c t old h := by cases h
  closing c t r sid old h := by cases h
  removed q sl e n h := by cases h
  deferred d h := by cases h

theorem Decided.of_added (h : Decided s) (ht : Tracked s) (ho : Owned s) (hC : separate s l = true)
    (hs : step allowLegacy s l = some s')
    (htask : ∀ c t, s'.task c = some t → s.task c = some t ∨
      ((∀ old, replaced t.handler = some old → Lost s' old.conn old.inflight) ∧
        ∀ r sid old, t.handler = .closing r sid old 0 → Clear s' old.conn none))
    (hslot : ∀ q sl, s'.slots.lookup q = some sl → s.slots.lookup q = some sl ∨
      ∀ e n, sl.report = .removed e n →
        Lost s' e.conn e.inflight ∧ (n ≤ 1 → Clear s' e.conn (some q)))
    (hdef : ∀ d ∈ s'.deferred, d ∈ s.deferred ∨
      (Lost s' d.conn d.inflight ∧ (d.drained = true → Clear s' d.conn none))) : Decided s' := by
  refine ⟨fun c t old h1 h2 => ?_, fun c t r sid old h1 h2 => ?_, fun q sl e n h1 h2 => ?_,
    fun d hd => ?_⟩
  · rcases htask c t h1 with h1 | ⟨h1, -⟩
    · exact lost_step ht ho hC hs (h.handler c t old h1 h2)
    · exact h1 old h2
  · rcases htask c t h1 with h1 | ⟨-, h1⟩
    · have hl := h.handler c t old h1 (by rw [h2]; rfl)
      exact clear_step hs hl (h.closing c t r sid old h1 h2)
    · exact h1 r sid old h2
  · rcases hslot q sl h1 with h1 | h1
    · obtain ⟨hl, hcl⟩ := h.removed q sl e n h1 h2
      exact ⟨lost_step ht ho hC hs hl, fun hn => clear_step hs hl (hcl hn)⟩
    · exact h1 e n h2
  · rcases hdef d hd with hd | hd
    · obtain ⟨hl, hcl⟩ := h.deferred d hd
      exact ⟨lost_step ht ho hC hs hl, fun hz => clear_step hs hl (hcl hz)⟩
    · exact hd

/-- Fewer than `2 ^ 32` requests hold a slot, so the counters are exact. -/
def Few (s : State) : Prop := (values s.slots).length < 2 ^ 32

theorem few_init : Few init := Nat.two_pow_pos 32

theorem inflight_eq_live (ha : Accounted s) (hf : Few s) (k : ℕ) :
    (s.mem.inflight k).toNat = live s k :=
  ha.value_of_lt (Nat.lt_of_le_of_lt List.countP_le_length hf)

theorem clear_of_zero (ha : Accounted s) (hf : Few s) (hl : Lost s x k)
    (hz : s.mem.inflight k = 0) : Clear s x none := by
  intro q sl hq hx
  have hpos := live_pos_of_slot hq
  rw [hl.slots q sl hq hx, ← inflight_eq_live ha hf, hz] at hpos
  exact absurd hpos (Nat.lt_irrefl 0)

theorem eq_of_le_one (ha : Accounted s) (hf : Few s) {q q' : ℕ} {sl sl' : Slot}
    (hq : s.slots.lookup q = some sl) (hk : sl.entry.inflight = k)
    (hq' : s.slots.lookup q' = some sl') (hk' : sl'.entry.inflight = k)
    (hn : s.mem.inflight k ≤ 1) : q' = q := by
  by_contra hne
  have hle : live s k ≤ 1 := by
    rw [← inflight_eq_live ha hf]
    exact UInt32.le_iff_toNat_le.mp hn
  have herase := countVal_erase (fun sl => sl.entry.inflight = k) hq
  have hpos : 0 < countVal (fun sl => sl.entry.inflight = k) (s.slots.erase q) :=
    countVal_pos.mpr ⟨q', sl', by rw [lookup_erase, if_neg hne]; exact hq', by simp [hk']⟩
  simp only [hk, decide_true, if_true] at herase
  unfold live at hle
  omega

theorem task_or {P : Task → Prop} {c : ℕ} {t' : Task}
    (ht : ∀ c', s'.task c' = if c' = c then some t' else s.task c') (hP : P t') (c1 : ℕ) (t1 : Task)
    (h1 : s'.task c1 = some t1) : s.task c1 = some t1 ∨ P t1 := by
  rw [ht] at h1
  split_ifs at h1
  · cases h1
    exact Or.inr hP
  · exact Or.inl h1

theorem slot_or {P : ℕ → Slot → Prop} {q : ℕ} {sl' : Slot} (hs : s'.slots = s.slots.insert q sl')
    (hP : P q sl') (q1 : ℕ) (sl1 : Slot) (h1 : s'.slots.lookup q1 = some sl1) :
    s.slots.lookup q1 = some sl1 ∨ P q1 sl1 := by
  rw [hs, lookup_insert] at h1
  split_ifs at h1 with hq
  · cases h1
    exact Or.inr (hq ▸ hP)
  · exact Or.inl h1

/-- The connection of a superseded entry has lost its node. -/
theorem lost_insertOver (ht : Tracked s) (ho : Owned s) {c : ℕ} {now : UInt64} {cn : Conn}
    {r : Register} {sid : ℕ} {old e : Entry} (hc : s.conns.lookup c = some cn)
    (hh : cn.handler = .numbered r sid) (hold : s.agents.lookup (r.key cn.peerIp) = some old)
    (hC : separate s (.insert c now) = true) (hs : step allowLegacy s (.insert c now) = some s')
    (ha : s'.agents = s.agents.insert (r.key cn.peerIp) e) (hsl : s'.slots = s.slots)
    (hec : e.conn = c) : Lost s' old.conn old.inflight := by
  have hrep : toReplace s c = some old := by simp only [toReplace, hc, Option.bind_some, hh, hold]
  simp only [separate, hrep, Option.all_some, Bool.and_eq_true, bne_iff_ne] at hC
  refine lost_of_carriesOnly ht ho hold hC.2.2 (fun key' e' he' => ?_) (fun q sl' hq => ?_)
    (known_step ht ho hs)
  · rw [ha, lookup_insert] at he'
    split_ifs at he' with hk
    · cases he'
      rw [hec]
      exact Or.inr hC.2.1.symm
    · exact Or.inl ⟨hk, he'⟩
  · exact ⟨sl', hsl ▸ hq, rfl⟩

/-- The connection of an evicted entry has lost its node, and at a counter of 1 only the reporting request
is left on it. -/
theorem lost_remove (ht : Tracked s) (ho : Owned s) (hacc : Accounted s) (hf : Few s) {q : ℕ}
    {sl sl' : Slot} {cause : EvictCause} {key : AgentKey} {e : Entry}
    (hq : s.slots.lookup q = some sl) (hr : sl.report = .fatal cause)
    (he : s.agents.lookup key = some e) (hsid : e.stableId = sl.entry.stableId)
    (hev : (evictLocked s.agents s.mem sl.entry.stableId cause).1 =
      .removed key e (s.mem.inflight e.inflight)) (hC : separate s (.evict q) = true)
    (hs : step allowLegacy s (.evict q) = some s') (ha : s'.agents = s.agents.erase key)
    (hsl : s'.slots = s.slots.insert q sl') (hsle : sl'.entry = sl.entry) :
    Lost s' e.conn e.inflight ∧
      (s.mem.inflight e.inflight ≤ 1 → Clear s' e.conn (some q)) := by
  have hto : toEvict s q = some e := by simp only [toEvict, hq, Option.bind_some, hr, hev]
  simp only [separate, hto, Option.all_some] at hC
  have hentry : sl.entry = e :=
    ht.same _ _ (Or.inr ⟨q, sl, hq, rfl⟩) (Or.inl ⟨key, he⟩) hsid.symm
  have hslots : ∀ q' sl1, s'.slots.lookup q' = some sl1 →
      ∃ sl0, s.slots.lookup q' = some sl0 ∧ sl0.entry = sl1.entry := by
    intro q' sl1 h1
    rw [hsl, lookup_insert] at h1
    split_ifs at h1 with hqq
    · cases h1
      exact ⟨sl, hqq ▸ hq, hsle.symm⟩
    · exact ⟨sl1, h1, rfl⟩
  have hlost : Lost s' e.conn e.inflight := by
    refine lost_of_carriesOnly ht ho he hC (fun key' e' he' => ?_) hslots (known_step ht ho hs)
    rw [ha, lookup_erase] at he'
    split_ifs at he' with hk
    exact Or.inl ⟨hk, he'⟩
  refine ⟨hlost, fun hn q' sl1 h1 hx => ?_⟩
  obtain ⟨sl0, h0, he0⟩ := hslots q' sl1 h1
  have hk0 : sl0.entry.inflight = e.inflight := by
    rw [he0]
    exact hlost.slots q' sl1 h1 hx
  rw [eq_of_le_one hacc hf hq (by rw [hentry]) h0 hk0 hn]

/-- **One step**: what is decided about a connection is right. -/
theorem decided_step (h : Decided s) (ht : Tracked s) (ho : Owned s) (hacc : Accounted s) (hf : Few s)
    (hC : separate s l = true) (hs : step allowLegacy s l = some s') : Decided s' := by
  have hadd := h.of_added ht ho hC hs
  have hlost : ∀ {x k}, Lost s x k → Lost s' x k := fun hl => lost_step ht ho hC hs hl
  cases move_of_step hs with
  | nothing => exact h
  | health =>
    exact hadd (fun _ _ h1 => Or.inl h1) (fun _ _ h1 => Or.inl h1) fun _ h1 => Or.inl h1
  | connect | number | note | hangUp | dropNext | dropEnd | insertNew =>
    refine hadd (task_or (fun c' => task_setConn _ _ c' _) ⟨?_, ?_⟩) (fun _ _ h1 => Or.inl h1)
      fun _ h1 => Or.inl h1
    · intro old hold
      cases hold
    · intro r sid old hold
      cases hold
  | refuse =>
    exact hadd (fun c t h1 => Or.inl (by rwa [task_close] at h1)) (fun _ _ h1 => Or.inl h1)
      fun _ h1 => Or.inl h1
  | refuseAndEnd c f v now cn hc hh =>
    refine hadd (task_or (fun c' => task_setConn_close s c c' _ _ _ c) ⟨?_, ?_⟩)
      (fun _ _ h1 => Or.inl h1) fun _ h1 => Or.inl h1
    · intro old hold
      cases hold
    · intro r sid old hold
      cases hold
  | insertOver c now cn r sid old hc hh hold =>
    refine hadd (task_or (fun c' => task_setConn _ c c' _) ⟨?_, ?_⟩) (fun _ _ h1 => Or.inl h1)
      fun _ h1 => Or.inl h1
    · intro old' hold'
      cases hold'
      exact lost_insertOver ht ho hc hh hold hC hs rfl rfl rfl
    · intro r' sid' old' hold'
      cases hold'
  | load c cn r sid old hc hh =>
    have hl := h.handler c _ old (task_of_lookup hc) (by simp [replaced, hh])
    refine hadd (task_or (fun c' => task_setConn _ c c' _) ⟨?_, ?_⟩) (fun _ _ h1 => Or.inl h1)
      fun _ h1 => Or.inl h1
    · intro old' hold'
      cases hold'
      exact hlost hl
    · intro r' sid' old' hold'
      injection hold' with _ _ hold' hz
      subst hold'
      exact clear_step hs hl (clear_of_zero hacc hf hl hz)
  | closeNow c cn r sid old hc hh =>
    refine hadd (task_or (fun c' => task_setConn_close s c c' _ _ _ old.conn) ⟨?_, ?_⟩)
      (fun _ _ h1 => Or.inl h1) fun _ h1 => Or.inl h1
    · intro old' hold'
      cases hold'
    · intro r' sid' old' hold'
      cases hold'
  | closeLater c cn r sid old n hc hh =>
    have hl := h.handler c _ old (task_of_lookup hc) (by simp [replaced, hh])
    refine hadd (task_or (fun c' => task_setConn s c c' _) ⟨?_, ?_⟩) (fun _ _ h1 => Or.inl h1)
      (deferred_or ⟨hlost hl, by simp⟩)
    · intro old' hold'
      cases hold'
    · intro r' sid' old' hold'
      cases hold'
  | acquire q key e he hq ha =>
    exact hadd (fun _ _ h1 => Or.inl h1) (slot_or rfl (by simp)) fun _ h1 => Or.inl h1
  | release q sl hq hr =>
    refine hadd (fun _ _ h1 => Or.inl h1) (fun q' sl' h1 => ?_) fun _ h1 => Or.inl h1
    rw [lookup_erase] at h1
    split_ifs at h1
    exact Or.inl h1
  | fatal q failure now sl cause hq hr =>
    exact hadd (fun _ _ h1 => Or.inl h1) (slot_or rfl (by simp)) fun _ h1 => Or.inl h1
  | strike q sl cause m hq hr hm =>
    exact hadd (fun _ _ h1 => Or.inl h1) (slot_or rfl (by simp)) fun _ h1 => Or.inl h1
  | remove q sl cause key e m hq hr he hsid hm hev =>
    refine hadd (fun _ _ h1 => Or.inl h1) (slot_or rfl fun e' n hrem => ?_) fun _ h1 => Or.inl h1
    cases hrem
    exact lost_remove ht ho hacc hf hq hr he hsid hev hC hs rfl rfl rfl
  | evictNow q sl e n hq hr hn =>
    exact hadd (fun c t h1 => Or.inl (by rwa [task_close] at h1)) (slot_or rfl (by simp))
      fun _ h1 => Or.inl h1
  | evictLater q sl e n hq hr =>
    exact hadd (fun _ _ h1 => Or.inl h1) (slot_or rfl (by simp))
      (deferred_or ⟨hlost (h.removed q sl e n hq hr).1, by simp⟩)
  | drained i d hd hz =>
    have hl := (h.deferred d (List.mem_of_getElem? hd)).1
    refine hadd (fun _ _ h1 => Or.inl h1) (fun _ _ h1 => Or.inl h1) fun d' hd' => ?_
    rcases List.mem_or_eq_of_mem_set hd' with hd' | rfl
    · exact Or.inl hd'
    · exact Or.inr ⟨hlost hl, fun _ => clear_step hs hl (clear_of_zero hacc hf hl hz)⟩
  | deferredClose | deferredGrace =>
    exact hadd (fun c t h1 => Or.inl (by rwa [task_close] at h1)) (fun _ _ h1 => Or.inl h1)
      fun _ h1 => Or.inl (List.mem_of_mem_eraseIdx h1)

theorem length_values (m : HashMap ℕ Slot) : (values m).length = countVal (fun _ => true) m := by
  simp [countVal]

theorem few_step (h : Few s) (hC : separate s l = true) (hs : step allowLegacy s l = some s') :
    Few s' := by
  have hset : ∀ {q : ℕ} {sl sl' : Slot}, s.slots.lookup q = some sl →
      (values (s.slots.insert q sl')).length < 2 ^ 32 := by
    intro q sl sl' hq
    rw [length_values, countVal_replace (fun _ => true) hq rfl, ← length_values]
    exact h
  cases move_of_step hs with
  | nothing | health | connect | number | refuse | refuseAndEnd | insertOver | insertNew | load
  | closeNow | closeLater | note | hangUp | dropNext | dropEnd | drained | deferredClose
  | deferredGrace => exact h
  | acquire q key e he hq ha =>
    have hlt : (values s.slots).length + 1 < 2 ^ 32 := by simpa [separate] using hC
    show (values (s.slots.insert q _)).length < 2 ^ 32
    rw [length_values, countVal_insert_of_none _ (fun _ => true) hq, ← length_values]
    simpa using hlt
  | release q sl hq hr =>
    have hle := countVal_erase (fun _ => true) hq
    rw [← length_values, ← length_values] at hle
    exact Nat.lt_of_le_of_lt (hle ▸ Nat.le_add_right _ _) h
  | fatal q failure now sl cause hq hr => exact hset hq
  | strike q sl cause m hq hr hm => exact hset hq
  | remove q sl cause key e m hq hr he hsid hm hev => exact hset hq
  | evictNow q sl e n hq hr hn => exact hset hq
  | evictLater q sl e n hq hr => exact hset hq

/-! ### Closing -/

/-- When this step closes a connection for a takeover or an eviction, other than at the end of a grace
period, no request holds a slot through it, except the one whose report evicts. -/
def SafeClose (allowLegacy : Bool) (s : State) (l : Label) : Prop :=
  ∀ s' ev, step allowLegacy s l = some s' → s'.closes = s.closes ++ [ev] → ev.afterGrace = false →
    ev.closer ≠ .refusal → ∀ q sl, s.slots.lookup q = some sl → sl.entry.conn = ev.conn →
      ev.closer = .evict q

theorem safeClose_of_decided (h : Decided s) : SafeClose allowLegacy s l := by
  intro s' ev hs hev hgrace hrefusal q sl hq hx
  have hnone : s'.closes = s.closes → False := fun hsame => by
    rw [hsame] at hev
    simpa using congrArg List.length hev
  have hone : ∀ {c : ℕ} {closer : Closer} {g : Bool}, s'.closes = s.closes ++ [⟨c, closer, g⟩] →
      ev = ⟨c, closer, g⟩ := fun hcl => by
    rw [hcl] at hev
    simpa using (List.append_cancel_left hev).symm
  cases move_of_step hs with
  | nothing | health | connect | number | insertOver | insertNew | load | closeLater | note | hangUp
  | dropNext | dropEnd | acquire | release | fatal | strike | remove | evictLater | drained =>
    exact (hnone rfl).elim
  | refuse | refuseAndEnd =>
    rw [hone rfl] at hrefusal
    exact absurd rfl hrefusal
  | closeNow c cn r sid old hc hh =>
    rw [hone rfl] at hx
    have := h.closing c _ r sid old (task_of_lookup hc) hh q sl hq hx
    cases this
  | evictNow q0 sl0 e n hq0 hr hn =>
    rw [hone rfl] at hx ⊢
    have := (h.removed q0 sl0 e n hq0 hr).2 hn q sl hq hx
    rw [Option.some.inj this]
  | deferredClose i d hd hz =>
    rw [hone rfl] at hx
    have := (h.deferred d (List.mem_of_getElem? hd)).2 hz q sl hq hx
    cases this
  | deferredGrace i d hd =>
    rw [hone rfl] at hgrace
    cases hgrace

/-- **Close safety**, in every run in which evictions and takeovers hit connections that carry a single
node: no takeover, eviction or drained deferred close takes a connection away from a request that holds a
slot through it, except from the one whose report evicts. -/
theorem close_safety (ls : List Label)
    (hC : AllSteps (step allowLegacy) (fun s l => separate s l = true) init ls) :
    AllSteps (step allowLegacy) (SafeClose allowLegacy) init ls := by
  refine allSteps_of_invariant (I := fun s => (Tracked s ∧ Owned s) ∧ (Accounted s ∧ Few s) ∧ Decided s)
    (C := fun s l => separate s l = true) ?_ (fun s l hI _ => safeClose_of_decided hI.2.2) ls init
    ⟨⟨tracked_init, owned_init⟩, ⟨accounted_init, few_init⟩, decided_init⟩ hC
  rintro s l s' ⟨⟨ht, ho⟩, ⟨ha, hf⟩, hd⟩ hC hs
  exact ⟨⟨tracked_step ht ho hC hs, owned_step ho hs⟩, ⟨accounted_step ha hs, few_step hf hC hs⟩,
    decided_step hd ht ho ha hf hC hs⟩

/-- The request `q` takes a slot of the agent `name` and waits in vain for a response head, which is
reported. -/
def waitsInVain (q : ℕ) (name : String) : List Label :=
  [.acquire q ⟨"default", name, .v4 1⟩, .report q (.headTimeout ⟨0, 0, 0⟩) 0, .evict q]

/-- A connection with one agent, evicted after three requests. -/
def oneNodeEvicted : List Label :=
  .connect 0 (.v4 1) :: registers 0 "a" ++ [.note 0] ++ waitsInVain 0 "a" ++ [.release 0] ++
    waitsInVain 1 "a" ++ [.release 1] ++ waitsInVain 2 "a" ++ [.evictClose 2]

theorem close_safety_one_node :
    (∃ s, run (step true) init oneNodeEvicted = some s ∧ s.closes = [⟨0, .evict 2, false⟩]) ∧
      AllSteps (step true) (SafeClose true) init oneNodeEvicted :=
  ⟨exists_run (step true) init oneNodeEvicted (fun s => s.closes = [⟨0, .evict 2, false⟩]) (by decide),
    close_safety oneNodeEvicted (by decide)⟩

/-- A connection with two agents, one of them serving the request 9. -/
def twoNodesEvicted : List Label :=
  .connect 0 (.v4 1) :: registers 0 "a" ++ [.note 0] ++ registers 0 "b" ++ [.note 0] ++
    [.acquire 9 ⟨"default", "b", .v4 1⟩] ++ waitsInVain 0 "a" ++ [.release 0] ++
    waitsInVain 1 "a" ++ [.release 1] ++ waitsInVain 2 "a"

/-- Evicting one of two agents closes the connection that the other one's request is on. -/
theorem eviction_closes_shared_connection :
    ¬ ∀ ls, AllSteps (step true) (SafeClose true) init ls := by
  intro hall
  obtain ⟨s, hs, hq, hcl⟩ := exists_run (step true) init twoNodesEvicted
    (fun s => s.slots.lookup 9 = some ⟨⟨0, 2, "b", "default", ["*"], 0, 1⟩, .none⟩ ∧
      (step true s (.evictClose 2)).map (·.closes) = some (s.closes ++ [⟨0, .evict 2, false⟩]))
    (by decide)
  obtain ⟨s', hs', hev⟩ := Option.map_eq_some_iff.mp hcl
  have hsafe := (allSteps_concat (hall (twoNodesEvicted ++ [.evictClose 2])) hs).2
  have := hsafe s' ⟨0, .evict 2, false⟩ hs' hev rfl (by simp) 9 _ hq rfl
  simp at this

end HomeLlmGateway.Registry.CloseSafety
