import HomeLlmGateway.Registry.Ownership
import HomeLlmGateway.Registry.Takeover

/-! # The entries of a connection

Requests keep clones of entries that have left the table. Here every entry that is still known, in the
table or to a request, is traced to the connection that registered it, as long as evictions and takeovers
only hit connections that carry a single node (`separate`): then a connection registers no node twice,
and what it has registered stays noted for good. -/

namespace HomeLlmGateway.Registry.Lineage

open HomeLlmGateway.Lib.Assoc
open HomeLlmGateway.Registry.Node HomeLlmGateway.Registry.Table HomeLlmGateway.Registry.System
open HomeLlmGateway.Registry.Ownership HomeLlmGateway.Registry.Takeover

/-! ### The condition -/

/-- The entry that the report of the request `q` is about to take out of the table. -/
def toEvict (s : State) (q : ℕ) : Option Entry :=
  (s.slots.lookup q).bind fun sl =>
    match sl.report with
    | .fatal cause =>
      match (evictLocked s.agents s.mem sl.entry.stableId cause).1 with
      | .removed _ e _ => some e
      | _ => none
    | _ => none

/-- The connection `x` has registered, and is registering, nothing but the node with this `stable_id`. -/
def carriesOnly (s : State) (x sid : ℕ) : Bool :=
  (s.conns.lookup x).all fun cn =>
    cn.registration.agent.all (·.stableId = sid) && (pending cn.handler).all (·.2 = sid)

/-- Every node that the connection `c` has registered is still its own. -/
def keepsAll (s : State) (c : ℕ) : Bool :=
  (s.conns.lookup c).all fun cn =>
    cn.registration.agent.all fun n => (s.agents.lookup n.key).any (·.stableId = n.stableId)

/-- An entry that is superseded or evicted belongs to a connection that carries no other node, and is not
superseded by that connection itself; a connection that has lost a node registers no further one. Fewer
than `2 ^ 32` requests hold a slot. -/
def separate (s : State) : Label → Bool
  | .insert c _ => keepsAll s c &&
    (toReplace s c).all fun old => old.conn != c && carriesOnly s old.conn old.stableId
  | .evict q => (toEvict s q).all fun e => carriesOnly s e.conn e.stableId
  | .acquire _ _ => (values s.slots).length + 1 < 2 ^ 32
  | _ => true

variable {allowLegacy : Bool} {s s' : State} {c : ℕ} {t t' : Task} {l : Label}

/-! ### What a step does to slots and entries -/

theorem slots_step (hs : step allowLegacy s l = some s') {q : ℕ} {sl' : Slot}
    (h : s'.slots.lookup q = some sl') :
    (∃ sl, s.slots.lookup q = some sl ∧ sl.entry = sl'.entry) ∨
      ∃ key, s.agents.lookup key = some sl'.entry := by
  have hset : ∀ {q0 : ℕ} {sl0 sl1 : Slot}, s.slots.lookup q0 = some sl0 →
      (s.slots.insert q0 sl1).lookup q = some sl' → sl1.entry = sl0.entry →
      ∃ sl, s.slots.lookup q = some sl ∧ sl.entry = sl'.entry := by
    intro q0 sl0 sl1 hq0 hl he
    rw [lookup_insert] at hl
    split_ifs at hl with hq
    · cases hl
      exact ⟨sl0, hq ▸ hq0, he.symm⟩
    · exact ⟨sl', hl, rfl⟩
  cases move_of_step hs with
  | nothing | health | connect | number | refuse | refuseAndEnd | insertOver | insertNew | load
  | closeNow | closeLater | note | hangUp | dropNext | dropEnd | drained | deferredClose
  | deferredGrace => exact Or.inl ⟨sl', h, rfl⟩
  | acquire q0 key e he hq ha =>
    simp only [slots_setSlot, lookup_insert] at h
    split_ifs at h
    · cases h
      exact Or.inr ⟨key, he⟩
    · exact Or.inl ⟨sl', h, rfl⟩
  | release q0 sl hq hr =>
    simp only [lookup_erase] at h
    split_ifs at h
    exact Or.inl ⟨sl', h, rfl⟩
  | fatal q0 failure now sl cause hq hr => exact Or.inl (hset hq h rfl)
  | strike q0 sl cause m hq hr hm => exact Or.inl (hset hq h rfl)
  | remove q0 sl cause key e m hq hr he hs' hm hev => exact Or.inl (hset hq h rfl)
  | evictNow q0 sl e n hq hr hn => exact Or.inl (hset hq h rfl)
  | evictLater q0 sl e n hq hr => exact Or.inl (hset hq h rfl)

theorem agents_step (hs : step allowLegacy s l = some s') {key : AgentKey} {e : Entry}
    (h : s'.agents.lookup key = some e) :
    s.agents.lookup key = some e ∨ ∃ cn r sid now, s.conns.lookup e.conn = some cn ∧
      cn.handler = .numbered r sid ∧ l = .insert e.conn now := by
  cases move_of_step hs with
  | nothing | health | connect | number | refuse | refuseAndEnd | load | closeNow | closeLater | note
  | hangUp | dropEnd | drained | deferredClose | deferredGrace | acquire | release | fatal | strike
  | evictNow | evictLater => exact Or.inl h
  | insertOver c now cn r sid old hc hh ho | insertNew c now cn r sid hc hh ho =>
    simp only [agents_setConn, lookup_insert] at h
    split_ifs at h
    · cases h
      exact Or.inr ⟨cn, r, sid, now, hc, hh, rfl⟩
    · exact Or.inl h
  | dropNext c cn n rest hc hh =>
    simp only [agents_setConn, lookup_removeIfSame] at h
    split_ifs at h
    exact Or.inl h
  | remove q sl cause key' e' m hq hr he hs' hm hev =>
    simp only [agents_setSlot, lookup_erase] at h
    split_ifs at h
    exact Or.inl h

/-! ### Known entries -/

/-- The registration whose entry is in the table and that is not noted yet. -/
def landed : Handler → Option (Register × ℕ)
  | .inserted r sid _ | .closing r sid _ _ | .noting r sid => some (r, sid)
  | .accepting | .numbered _ _ | .dropping _ | .ended => none

/-- The task has put an entry with this `stable_id` into the table. -/
def Registered (t : Task) (sid : ℕ) : Prop :=
  (∃ n ∈ t.registration.agent, n.stableId = sid) ∨ ∃ r, landed t.handler = some (r, sid)

/-- A registration with this `stable_id` came over the connection `x`. -/
def Known (s : State) (x sid : ℕ) : Prop := ∃ t, s.task x = some t ∧ Registered t sid

/-- The entry is in the table or known to a request. -/
def Ref (s : State) (e : Entry) : Prop :=
  (∃ k, s.agents.lookup k = some e) ∨ ∃ q sl, s.slots.lookup q = some sl ∧ sl.entry = e

/-- Entries are told apart by their `stable_id`s and traced to their connections. -/
structure Tracked (s : State) : Prop where
  below : ∀ e, Ref s e → e.stableId < s.nextConnId
  numbered : ∀ c t r sid, s.task c = some t → t.handler = .numbered r sid → ∀ e, Ref s e →
    e.stableId ≠ sid
  same : ∀ e e', Ref s e → Ref s e' → e.stableId = e'.stableId → e = e'
  ref : ∀ e, Ref s e → Known s e.conn e.stableId
  once : ∀ c t r sid, s.task c = some t → landed t.handler = some (r, sid) →
    ∀ n ∈ t.registration.agent, n.key ≠ r.key t.peerIp

theorem not_ref_init (e : Entry) : ¬ Ref init e := by
  rintro (⟨k, h⟩ | ⟨q, sl, h, -⟩) <;> cases h

theorem tracked_init : Tracked init where
  below e h := absurd h (not_ref_init e)
  numbered c t r sid h := by cases h
  same e e' h := absurd h (not_ref_init e)
  ref e h := absurd h (not_ref_init e)
  once c t r sid h := by cases h

theorem Tracked.frame (h : Tracked s) (ht : ∀ c, s'.task c = s.task c)
    (hn : s'.nextConnId = s.nextConnId) (hr : ∀ e, Ref s' e → Ref s e) : Tracked s' where
  below e he := hn ▸ h.below e (hr e he)
  numbered c t r sid h1 h2 e he := h.numbered c t r sid (ht c ▸ h1) h2 e (hr e he)
  same e e' h1 h2 := h.same e e' (hr e h1) (hr e' h2)
  ref e he := by
    obtain ⟨t, h1, h2⟩ := h.ref e (hr e he)
    exact ⟨t, (ht e.conn).trans h1, h2⟩
  once c t r sid h1 := h.once c t r sid (ht c ▸ h1)

theorem Tracked.task_step (h : Tracked s) (hk : ∀ x sid, Known s x sid → Known s' x sid)
    (ht : ∀ c', s'.task c' = if c' = c then some t' else s.task c')
    (hn : s.nextConnId ≤ s'.nextConnId) (hr : ∀ e, Ref s' e → Ref s e)
    (hnum : ∀ r sid, t'.handler = .numbered r sid → ∀ e, Ref s e → e.stableId ≠ sid)
    (honce : ∀ r sid, landed t'.handler = some (r, sid) →
      ∀ n ∈ t'.registration.agent, n.key ≠ r.key t'.peerIp) : Tracked s' := by
  refine ⟨fun e he => Nat.lt_of_lt_of_le (h.below e (hr e he)) hn, fun c1 t1 r sid h1 h2 e he => ?_,
    fun e e' h1 h2 => h.same e e' (hr e h1) (hr e' h2), fun e he => hk _ _ (h.ref e (hr e he)),
    fun c1 t1 r sid h1 h2 => ?_⟩
  · rw [ht] at h1
    split_ifs at h1
    · cases h1
      exact hnum r sid h2 e (hr e he)
    · exact h.numbered c1 t1 r sid h1 h2 e (hr e he)
  · rw [ht] at h1
    split_ifs at h1
    · cases h1
      exact honce r sid h2
    · exact h.once c1 t1 r sid h1 h2

theorem Tracked.goOn (h : Tracked s) (hk : ∀ x sid, Known s x sid → Known s' x sid) {cn : Conn}
    {hd : Handler} (hc : s.conns.lookup c = some cn)
    (ht : ∀ c', s'.task c' =
      if c' = c then some ⟨cn.peerIp, hd, cn.registration⟩ else s.task c')
    (hn : s'.nextConnId = s.nextConnId) (hr : ∀ e, Ref s' e → Ref s e)
    (hl : landed hd = landed cn.handler) (hnum : ∀ r sid, hd ≠ .numbered r sid) : Tracked s' := by
  refine h.task_step hk ht hn.ge hr (fun r sid hd' => absurd hd' (hnum r sid)) fun r sid hl' => ?_
  have hl' : landed hd = some (r, sid) := hl'
  rw [hl] at hl'
  exact h.once c ⟨cn.peerIp, cn.handler, cn.registration⟩ r sid (task_of_lookup hc) hl'

theorem agent_note (g : Guarded t) (r : Register) (sid : ℕ)
    (honce : ∀ n ∈ t.registration.agent, n.key ≠ r.key t.peerIp) :
    (t.registration.noteForTenant r.tenantId r.agentId t.peerIp sid).agent =
      t.registration.agent ++ [⟨r.tenantId, r.agentId, normalizeIp t.peerIp, sid⟩] := by
  have hany : t.registration.agent.any
      (Registration.isNode r.tenantId r.agentId (normalizeIp t.peerIp)) ≠ true := by
    rw [Ne, any_isNode_iff g.ip g.notes.peerIp]
    rintro ⟨n, hn, hk⟩
    exact honce n hn hk
  simp [Registration.noteForTenant, hany]

theorem Known.setConn {x sid : ℕ} {cn cn' : Conn} (h : Known s x sid)
    (hc : s.conns.lookup c = some cn)
    (ht : ∀ c', s'.task c' =
      if c' = c then some ⟨cn'.peerIp, cn'.handler, cn'.registration⟩ else s.task c')
    (hreg : Registered ⟨cn.peerIp, cn.handler, cn.registration⟩ sid →
      Registered ⟨cn'.peerIp, cn'.handler, cn'.registration⟩ sid) : Known s' x sid := by
  obtain ⟨t, htask, hr⟩ := h
  by_cases hx : x = c
  · subst hx
    rw [task_of_lookup hc] at htask
    cases htask
    exact ⟨_, by rw [ht, if_pos rfl], hreg hr⟩
  · exact ⟨t, by rw [ht, if_neg hx]; exact htask, hr⟩

theorem known_step (h : Tracked s) (ho : Owned s) (hs : step allowLegacy s l = some s') (x sid : ℕ)
    (hx : Known s x sid) : Known s' x sid := by
  cases move_of_step hs with
  | nothing | health | acquire | release | fatal | strike | remove | evictLater | drained => exact hx
  | refuse | evictNow | deferredClose | deferredGrace =>
    obtain ⟨t, htask, hr⟩ := hx
    exact ⟨t, by rw [task_close]; exact htask, hr⟩
  | connect c ip hc =>
    obtain ⟨t, htask, hr⟩ := hx
    refine ⟨t, ?_, hr⟩
    rw [task_setConn, if_neg]
    · exact htask
    · rintro rfl
      simp [State.task, hc] at htask
  | number c f v now cn r hc hh ha =>
    exact hx.setConn hc (fun c' => task_setConn _ c c' _) fun hr => by
      simpa [Registered, landed, hh] using hr
  | refuseAndEnd c f v now cn hc hh =>
    exact hx.setConn hc (fun c' => task_setConn_close s c c' _ _ _ c) fun hr => by
      simpa [Registered, landed, hh] using hr
  | insertOver c now cn r sid' old hc hh hold | insertNew c now cn r sid' hc hh hold =>
    refine hx.setConn hc (fun c' => task_setConn _ c c' _) fun hr => Or.inl ?_
    simpa [Registered, landed, hh] using hr
  | load c cn r sid' old hc hh =>
    exact hx.setConn hc (fun c' => task_setConn _ c c' _) fun hr => by
      simpa [Registered, landed, hh] using hr
  | closeNow c cn r sid' old hc hh =>
    exact hx.setConn hc (fun c' => task_setConn_close s c c' _ _ _ old.conn) fun hr => by
      simpa [Registered, landed, hh] using hr
  | closeLater c cn r sid' old n hc hh =>
    exact hx.setConn hc (fun c' => task_setConn s c c' _) fun hr => by
      simpa [Registered, landed, hh] using hr
  | note c cn r sid' hc hh =>
    have htask := task_of_lookup hc
    have hagent := agent_note (ho.guarded c _ htask) r sid'
      (h.once c _ r sid' htask (by simp [landed, hh]))
    refine hx.setConn hc (fun c' => task_setConn _ c c' _) fun hr => Or.inl ?_
    simp only [Registered, hh, landed] at hr ⊢
    rw [hagent]
    rcases hr with ⟨n, hn, hns⟩ | ⟨r', hr'⟩
    · exact ⟨n, by simp [hn], hns⟩
    · cases hr'
      exact ⟨⟨r.tenantId, r.agentId, normalizeIp cn.peerIp, sid⟩, by simp, rfl⟩
  | hangUp c cn hc hh | dropNext c cn n rest hc hh | dropEnd c cn hc hh =>
    exact hx.setConn hc (fun c' => task_setConn _ c c' _) fun hr => by
      simpa [Registered, landed, hh] using hr

/-- A connection in its lock section still has the entry of every node it has noted. -/
theorem own_entry_of_separate (ho : Owned s) {cn : Conn} {r : Register} {sid : ℕ} {now : UInt64}
    (hc : s.conns.lookup c = some cn) (hh : cn.handler = .numbered r sid)
    (hC : separate s (.insert c now) = true) :
    ∀ n ∈ cn.registration.agent, ∃ e, s.agents.lookup n.key = some e ∧ e.conn = c := by
  intro n hn
  simp only [separate, keepsAll, hc, Option.all_some, Bool.and_eq_true, List.all_eq_true] at hC
  obtain ⟨e, he, hes⟩ := (Option.any_eq_true _ _).mp (hC.1 n hn)
  have hes : e.stableId = n.stableId := by simpa using hes
  obtain ⟨te, hte, -, hmem⟩ := ho.table n.key e he
  have hmem' : (e.stableId, n.key) ∈ held ⟨cn.peerIp, cn.handler, cn.registration⟩ := by
    simp only [held, hh]
    exact List.mem_cons_of_mem _ (mem_pairs.mpr ⟨n, hn, hes.symm, rfl⟩)
  exact ⟨e, he, (ho.unique _ _ _ _ _ _ _ hte (task_of_lookup hc) hmem hmem').1⟩

/-- The node that a connection registers is none of those it has noted. -/
theorem once_of_separate (ho : Owned s) {cn : Conn} {r : Register} {sid : ℕ} {now : UInt64}
    (hc : s.conns.lookup c = some cn) (hh : cn.handler = .numbered r sid)
    (hC : separate s (.insert c now) = true) :
    ∀ n ∈ cn.registration.agent, n.key ≠ r.key cn.peerIp := by
  intro n hn hk
  obtain ⟨e, he, hec⟩ := own_entry_of_separate ho hc hh hC n hn
  have hrep : toReplace s c = some e := by
    simp only [toReplace, hc, Option.bind_some, hh]
    rw [← hk]
    exact he
  simp [separate, hrep, hec] at hC

theorem ref_step (hs : step allowLegacy s l = some s') (hl : ∀ c now, l ≠ .insert c now) (e : Entry)
    (h : Ref s' e) : Ref s e := by
  rcases h with ⟨key, h⟩ | ⟨q, sl', h, rfl⟩
  · rcases agents_step hs h with h | ⟨cn, r, sid, now, -, -, hl'⟩
    · exact Or.inl ⟨key, h⟩
    · exact absurd hl' (hl _ _)
  · rcases slots_step hs h with ⟨sl, hq, he⟩ | ⟨key, he⟩
    · exact Or.inr ⟨q, sl, hq, he⟩
    · exact Or.inl ⟨key, he⟩

theorem tracked_insert (h : Tracked s) (ho : Owned s) {cn : Conn} {r : Register} {sid : ℕ}
    {now : UInt64} {e : Entry} {hd : Handler} (hc : s.conns.lookup c = some cn)
    (hh : cn.handler = .numbered r sid) (hC : separate s (.insert c now) = true)
    (ht : ∀ c', s'.task c' = if c' = c then some ⟨cn.peerIp, hd, cn.registration⟩ else s.task c')
    (hn : s'.nextConnId = s.nextConnId) (ha : s'.agents = s.agents.insert (r.key cn.peerIp) e)
    (hs : s'.slots = s.slots) (hec : e.conn = c) (hes : e.stableId = sid)
    (hl : landed hd = some (r, sid)) (hk : ∀ x sid, Known s x sid → Known s' x sid) :
    Tracked s' := by
  have htask := task_of_lookup hc
  have hmine : (sid, r.key cn.peerIp) ∈ held ⟨cn.peerIp, cn.handler, cn.registration⟩ := by
    simp [held, hh]
  have href : ∀ e', Ref s' e' → Ref s e' ∨ e' = e := by
    rintro e' (⟨k, h'⟩ | ⟨q, sl, h', he'⟩)
    · rw [ha, lookup_insert] at h'
      split_ifs at h'
      · exact Or.inr (Option.some.inj h').symm
      · exact Or.inl (Or.inl ⟨k, h'⟩)
    · exact Or.inl (Or.inr ⟨q, sl, hs ▸ h', he'⟩)
  have hfresh : ∀ e', Ref s e' → e'.stableId ≠ sid := h.numbered c _ r sid htask hh
  refine ⟨fun e' he' => ?_, fun c1 t1 r1 sid1 h1 h2 e' he' => ?_, fun e1 e2 h1 h2 hsame => ?_,
    fun e' he' => ?_, fun c1 t1 r1 sid1 h1 h2 => ?_⟩
  · rw [hn]
    rcases href e' he' with he' | rfl
    · exact h.below e' he'
    · rw [hes]
      exact ho.below c _ sid _ htask hmine
  · rw [ht] at h1
    split_ifs at h1 with hc1
    · cases h1
      have h2 : hd = .numbered r1 sid1 := h2
      rw [h2] at hl
      cases hl
    · rcases href e' he' with he' | rfl
      · exact h.numbered c1 t1 r1 sid1 h1 h2 e' he'
      · rw [hes]
        rintro rfl
        have hother : (sid, r1.key t1.peerIp) ∈ held t1 := by simp [held, h2]
        exact hc1 (ho.unique _ _ _ _ _ _ _ htask h1 hmine hother).1.symm
  · rcases href e1 h1 with h1 | rfl
    · rcases href e2 h2 with h2 | rfl
      · exact h.same e1 e2 h1 h2 hsame
      · exact absurd (hsame.trans hes) (hfresh e1 h1)
    · rcases href e2 h2 with h2 | rfl
      · exact absurd (hsame.symm.trans hes) (hfresh e2 h2)
      · rfl
  · rcases href e' he' with he' | rfl
    · exact hk _ _ (h.ref e' he')
    · exact ⟨_, by rw [ht, if_pos hec], Or.inr ⟨r, by rw [hes]; exact hl⟩⟩
  · rw [ht] at h1
    split_ifs at h1
    · cases h1
      have h2 : landed hd = some (r1, sid1) := h2
      rw [hl] at h2
      cases h2
      exact once_of_separate ho hc hh hC
    · exact h.once c1 t1 r1 sid1 h1 h2

/-- **One step** of a run in which evictions and takeovers hit connections with a single node. -/
theorem tracked_step (h : Tracked s) (ho : Owned s) (hC : separate s l = true)
    (hs : step allowLegacy s l = some s') : Tracked s' := by
  have hk := known_step h ho hs
  cases move_of_step hs with
  | nothing => exact h
  | health => exact h.frame (fun _ => rfl) rfl fun _ hr => hr
  | drained | acquire | release | fatal | strike | remove | evictLater =>
    exact h.frame (fun _ => rfl) rfl (ref_step hs (by simp))
  | refuse | deferredClose | deferredGrace | evictNow =>
    exact h.frame (fun c => task_close _ _ c _ _) rfl (ref_step hs (by simp))
  | connect c ip hc =>
    exact h.task_step hk (fun c' => task_setConn s c c' _) (Nat.le_refl _) (ref_step hs (by simp))
      (by simp) (by simp [landed])
  | number c f v now cn r hc hh ha =>
    refine h.task_step hk (fun c' => task_setConn _ c c' _) (Nat.le_succ _) (ref_step hs (by simp))
      (fun r' sid hnum e he => ?_) (by simp [landed])
    cases hnum
    exact (h.below e he).ne
  | refuseAndEnd c f v now cn hc hh =>
    exact h.goOn hk hc (fun c' => task_setConn_close s c c' _ _ _ c) rfl (ref_step hs (by simp))
      (by rw [hh]; rfl) (by simp)
  | insertOver c now cn r sid old hc hh hold =>
    exact tracked_insert h ho hc hh hC (fun c' => task_setConn _ c c' _) rfl rfl rfl rfl rfl rfl hk
  | insertNew c now cn r sid hc hh hold =>
    exact tracked_insert h ho hc hh hC (fun c' => task_setConn _ c c' _) rfl rfl rfl rfl rfl rfl hk
  | closeNow c cn r sid old hc hh =>
    exact h.goOn hk hc (fun c' => task_setConn_close s c c' _ _ _ old.conn) rfl
      (ref_step hs (by simp)) (by rw [hh]; rfl) (by simp)
  | closeLater c cn r sid old n hc hh =>
    exact h.goOn hk hc (fun c' => task_setConn s c c' _) rfl
      (ref_step hs (by simp)) (by rw [hh]; rfl) (by simp)
  | note c cn r sid hc hh =>
    exact h.task_step hk (fun c' => task_setConn _ c c' _) (Nat.le_refl _) (ref_step hs (by simp))
      (by simp) (by simp [landed])
  | load c cn r sid old hc hh | hangUp c cn hc hh | dropNext c cn n rest hc hh | dropEnd c cn hc hh =>
    exact h.goOn hk hc (fun c' => task_setConn _ c c' _) rfl (ref_step hs (by simp)) (by rw [hh]; rfl)
      (by simp)

end HomeLlmGateway.Registry.Lineage
