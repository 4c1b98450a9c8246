import HomeLlmGateway.Registry.System

/-! # Who owns an entry

An entry is owned by the `Registration` of the connection it points to. The table and the registrations
change in separate steps, so ownership is read off a connection's task: `held` lists the `stable_id`s it
has noted and not dropped, with their nodes, and the one it is about to note. Every entry is held by the
task of its connection, and no `stable_id` is held twice. -/

namespace HomeLlmGateway.Registry.Ownership

open HomeLlmGateway.Lib.Runs HomeLlmGateway.Lib.Assoc
open HomeLlmGateway.Registry.Node HomeLlmGateway.Registry.Table HomeLlmGateway.Registry.System

/-! ### What a task holds -/

/-- The noted `stable_id`s with their nodes. -/
def pairs (agent : List Noted) : List (ℕ × AgentKey) := agent.map fun n => (n.stableId, n.key)

/-- The `stable_id`s of a task, with their nodes. Once the new entry is in, the node's former note holds
nothing any more. -/
def held (t : Task) : List (ℕ × AgentKey) :=
  match t.handler with
  | .accepting => pairs t.registration.agent
  | .numbered r sid => (sid, r.key t.peerIp) :: pairs t.registration.agent
  | .inserted r sid _ | .closing r sid _ _ | .noting r sid =>
    (sid, r.key t.peerIp) :: (pairs t.registration.agent).filter (·.2 ≠ r.key t.peerIp)
  | .dropping rest => pairs rest
  | .ended => []

/-- The registration under way, if any, with its `stable_id`. -/
def pending : Handler → Option (Register × ℕ)
  | .numbered r sid | .inserted r sid _ | .closing r sid _ _ | .noting r sid => some (r, sid)
  | .accepting | .dropping _ | .ended => none

/-- What the `Registration` of a connection from `ip` keeps to. -/
structure Notes (ip : IpAddr) (g : Registration) : Prop where
  length : g.agent.length ≤ maxRegistrationsPerConnection
  tenant : ∀ n ∈ g.agent, g.tenant = some n.tenantId
  peerIp : ∀ n ∈ g.agent, n.peerIp = ip
  nodup : (g.agent.map Noted.key).Nodup

/-- What a task keeps to. -/
structure Guarded (t : Task) : Prop where
  ip : normalizeIp t.peerIp = t.peerIp
  notes : Notes t.peerIp t.registration
  accepted : ∀ r sid, pending t.handler = some (r, sid) →
    t.registration.acceptsForTenant r.tenantId r.agentId t.peerIp = true
  suffix : ∀ rest, t.handler = .dropping rest → rest <:+ t.registration.agent

theorem mem_pairs {agent : List Noted} {sid : ℕ} {k : AgentKey} :
    (sid, k) ∈ pairs agent ↔ ∃ n ∈ agent, n.stableId = sid ∧ n.key = k := by
  simp [pairs]

/-! ### Noting a registration -/

section noting

variable {g : Registration} {ip : IpAddr} {r : Register} {sid : ℕ}

theorem isNode_iff {n : Noted} (hip : normalizeIp ip = ip) (hn : n.peerIp = ip) :
    Registration.isNode r.tenantId r.agentId (normalizeIp ip) n = true ↔ n.key = r.key ip := by
  simp [Registration.isNode, Noted.key, Register.key, AgentKey.newInTenant, hn, hip]

theorem any_isNode_iff {agent : List Noted} (hip : normalizeIp ip = ip)
    (hp : ∀ n ∈ agent, n.peerIp = ip) :
    agent.any (Registration.isNode r.tenantId r.agentId (normalizeIp ip)) = true ↔
      ∃ n ∈ agent, n.key = r.key ip := by
  simp only [List.any_eq_true]
  exact exists_congr fun n => and_congr_right fun hn => isNode_iff hip (hp n hn)

theorem key_new (hip : normalizeIp ip = ip) :
    (⟨r.tenantId, r.agentId, normalizeIp ip, sid⟩ : Noted).key = r.key ip := by
  simp [Noted.key, Register.key, AgentKey.newInTenant, hip]

theorem key_setStable : ∀ agent : List Noted,
    (Registration.setStable r.tenantId r.agentId ip sid agent).map Noted.key = agent.map Noted.key
  | [] => rfl
  | n :: rest => by
    unfold Registration.setStable
    split_ifs
    · rfl
    · simp [key_setStable rest]

theorem mem_setStable {m : Noted} : ∀ {agent : List Noted},
    m ∈ Registration.setStable r.tenantId r.agentId ip sid agent →
    ∃ n ∈ agent, m.tenantId = n.tenantId ∧ m.peerIp = n.peerIp
  | [], h => by cases h
  | n :: rest, h => by
    unfold Registration.setStable at h
    split_ifs at h
    · rcases List.mem_cons.mp h with rfl | h
      · exact ⟨n, by simp, rfl, rfl⟩
      · exact ⟨m, by simp [h], rfl, rfl⟩
    · rcases List.mem_cons.mp h with rfl | h
      · exact ⟨m, by simp, rfl, rfl⟩
      · obtain ⟨n', hn', h'⟩ := mem_setStable h
        exact ⟨n', by simp [hn'], h'⟩

/-- Setting the `stable_id` of a noted node replaces what is held for it. -/
theorem pairs_setStable (hip : normalizeIp ip = ip) (p : ℕ × AgentKey) :
    ∀ {agent : List Noted}, (∀ n ∈ agent, n.peerIp = ip) → (agent.map Noted.key).Nodup →
    (∃ n ∈ agent, n.key = r.key ip) →
    (p ∈ pairs (Registration.setStable r.tenantId r.agentId (normalizeIp ip) sid agent) ↔
      p = (sid, r.key ip) ∨ (p ∈ pairs agent ∧ p.2 ≠ r.key ip))
  | [], _, _, ⟨_, h, _⟩ => by cases h
  | n :: rest, hp, hn, hex => by
    have hnip : n.peerIp = ip := hp n (by simp)
    simp only [List.map_cons, List.nodup_cons, List.mem_map, not_exists, not_and] at hn
    unfold Registration.setStable
    split_ifs with hnode
    · have hkey : n.key = r.key ip := (isNode_iff hip hnip).mp hnode
      have hset : ({ n with stableId := sid } : Noted).key = r.key ip := hkey
      have hrest : p ∈ pairs rest → p.2 ≠ r.key ip := by
        intro h hc
        obtain ⟨m, hm, rfl⟩ := List.mem_map.mp h
        exact hn.1 m hm (hc.trans hkey.symm)
      simp only [pairs, List.map_cons, List.mem_cons, hset, hkey]
      constructor
      · rintro (h | h)
        · exact Or.inl h
        · exact Or.inr ⟨Or.inr h, hrest h⟩
      · rintro (h | ⟨h | h, hk⟩)
        · exact Or.inl h
        · exact absurd (by rw [h]) hk
        · exact Or.inr h
    · have hkey : n.key ≠ r.key ip := fun hc => hnode ((isNode_iff hip hnip).mpr hc)
      have hex' : ∃ m ∈ rest, m.key = r.key ip := by
        obtain ⟨m, hm, hk⟩ := hex
        rcases List.mem_cons.mp hm with rfl | hm
        · exact absurd hk hkey
        · exact ⟨m, hm, hk⟩
      have ih := pairs_setStable hip p (fun m hm => hp m (by simp [hm])) hn.2 hex'
      have hhead : p = (n.stableId, n.key) → p.2 ≠ r.key ip := by
        rintro rfl
        exact hkey
      simp only [pairs] at ih ⊢
      simp only [List.map_cons, List.mem_cons, ih]
      constructor
      · rintro (h | h | ⟨h, hk⟩)
        · exact Or.inr ⟨Or.inl h, hhead h⟩
        · exact Or.inl h
        · exact Or.inr ⟨Or.inr h, hk⟩
      · rintro (h | ⟨h | h, hk⟩)
        · exact Or.inr (Or.inl h)
        · exact Or.inl h
        · exact Or.inr (Or.inr ⟨h, hk⟩)

/-- **Noting** turns what the task is about to note into what it has noted. -/
theorem pairs_noteForTenant (hip : normalizeIp ip = ip) (hg : Notes ip g) (p : ℕ × AgentKey) :
    p ∈ pairs (g.noteForTenant r.tenantId r.agentId ip sid).agent ↔
      p ∈ (sid, r.key ip) :: (pairs g.agent).filter (·.2 ≠ r.key ip) := by
  have hany := any_isNode_iff (r := r) hip hg.peerIp
  simp only [Registration.noteForTenant, List.mem_cons, List.mem_filter, decide_eq_true_eq]
  split_ifs with h
  · exact pairs_setStable hip p hg.peerIp hg.nodup (hany.mp h)
  · have hne : p ∈ pairs g.agent → p.2 ≠ r.key ip := by
      intro hp hc
      obtain ⟨n, hn, rfl⟩ := List.mem_map.mp hp
      exact h (hany.mpr ⟨n, hn, hc⟩)
    simp only [pairs] at hne ⊢
    simp only [List.map_append, List.mem_append, List.map_cons, List.map_nil, List.mem_singleton,
      key_new hip]
    constructor
    · rintro (hp | rfl)
      · exact Or.inr ⟨hp, hne hp⟩
      · exact Or.inl rfl
    · rintro (rfl | ⟨hp, -⟩)
      · exact Or.inr rfl
      · exact Or.inl hp

theorem notes_noteForTenant (hip : normalizeIp ip = ip) (hg : Notes ip g)
    (ha : g.acceptsForTenant r.tenantId r.agentId ip = true) :
    Notes ip (g.noteForTenant r.tenantId r.agentId ip sid) := by
  simp only [Registration.acceptsForTenant] at ha
  split_ifs at ha with hten
  have htenant : g.tenant.getD r.tenantId = r.tenantId := by
    cases ht : g.tenant with
    | none => rfl
    | some x => simpa [ht] using hten
  have hold : ∀ n ∈ g.agent, n.tenantId = r.tenantId := by
    intro n hn
    rw [hg.tenant n hn] at htenant
    exact htenant
  by_cases hany : g.agent.any (Registration.isNode r.tenantId r.agentId (normalizeIp ip)) = true
  · simp only [Registration.noteForTenant, hany, if_true, htenant]
    refine ⟨?_, fun n hn => ?_, fun n hn => ?_, ?_⟩
    · rw [← List.length_map Noted.key, key_setStable, List.length_map]
      exact hg.length
    · obtain ⟨m, hm, htid, -⟩ := mem_setStable hn
      rw [htid, hold m hm]
    · obtain ⟨m, hm, -, hpip⟩ := mem_setStable hn
      rw [hpip, hg.peerIp m hm]
    · rw [key_setStable]
      exact hg.nodup
  · have hlen : g.agent.length < maxRegistrationsPerConnection := by simpa [hany] using ha
    simp only [Registration.noteForTenant, hany, htenant]
    refine ⟨by simpa using hlen, fun n hn => ?_, fun n hn => ?_, ?_⟩
    · rcases List.mem_append.mp hn with hn | hn
      · rw [hold n hn]
      · rw [List.mem_singleton.mp hn]
    · rcases List.mem_append.mp hn with hn | hn
      · exact hg.peerIp n hn
      · rw [List.mem_singleton.mp hn]
        exact hip
    · have hnot : r.key ip ∉ g.agent.map Noted.key := fun hm => by
        obtain ⟨n, hn, hk⟩ := List.mem_map.mp hm
        exact hany ((any_isNode_iff hip hg.peerIp).mpr ⟨n, hn, hk⟩)
      simp only [Bool.false_eq_true, if_false, List.map_append, List.map_cons, List.map_nil,
        key_new hip]
      rw [← List.concat_eq_append]
      exact hg.nodup.concat hnot

end noting

/-! ### Ownership -/

/-- Every entry is held by the task of its connection, under its node; no `stable_id` is held twice. -/
structure Owned (s : State) : Prop where
  guarded : ∀ c t, s.task c = some t → Guarded t
  below : ∀ c t sid k, s.task c = some t → (sid, k) ∈ held t → sid < s.nextConnId
  unique : ∀ c t c' t' sid k k', s.task c = some t → s.task c' = some t' → (sid, k) ∈ held t →
    (sid, k') ∈ held t' → c = c' ∧ k = k'
  table : ∀ k e, s.agents.lookup k = some e → ∃ t, s.task e.conn = some t ∧
    k = ⟨e.tenantId, e.agentId, t.peerIp⟩ ∧ (e.stableId, k) ∈ held t

variable {allowLegacy : Bool} {s s' : State} {c : ℕ} {t t' : Task}

theorem owned_init : Owned init where
  guarded c t h := by cases h
  below c t sid k h := by cases h
  unique c t c' t' sid k k' h := by cases h
  table k e h := by cases h

theorem Owned.frame (h : Owned s) (ht : ∀ c, s'.task c = s.task c)
    (hn : s'.nextConnId = s.nextConnId)
    (ha : ∀ k e, s'.agents.lookup k = some e → s.agents.lookup k = some e) : Owned s' where
  guarded c t h' := h.guarded c t (ht c ▸ h')
  below c t sid k h' := hn ▸ h.below c t sid k (ht c ▸ h')
  unique c t c' t' sid k k' h1 h2 := h.unique c t c' t' sid k k' (ht c ▸ h1) (ht c' ▸ h2)
  table k e he := by
    obtain ⟨t, htask, hk⟩ := h.table k e (ha k e he)
    exact ⟨t, (ht e.conn).trans htask, hk⟩

/-- A step of the task of `c`: it may take one new `stable_id`, and it may put one entry of its own into
the table. What the table keeps of its entries, it goes on holding. -/
theorem Owned.task_step (h : Owned s) (key : AgentKey)
    (ht : ∀ c', s'.task c' = if c' = c then some t' else s.task c')
    (hg : Guarded t') (hn : s.nextConnId ≤ s'.nextConnId)
    (hheld : ∀ sid k, (sid, k) ∈ held t' → (∃ t, s.task c = some t ∧ (sid, k) ∈ held t) ∨
      (sid = s.nextConnId ∧ k = key ∧ s'.nextConnId = s.nextConnId + 1))
    (htab : ∀ k e, s'.agents.lookup k = some e →
      (s.agents.lookup k = some e ∧ ∀ t, s.task c = some t → (e.stableId, k) ∈ held t →
        (e.stableId, k) ∈ held t' ∧ t'.peerIp = t.peerIp) ∨
      (e.conn = c ∧ k = ⟨e.tenantId, e.agentId, t'.peerIp⟩ ∧ (e.stableId, k) ∈ held t')) :
    Owned s' := by
  have hlast : ∀ c1 t1 sid k, s'.task c1 = some t1 → (sid, k) ∈ held t1 →
      (∃ t0, s.task c1 = some t0 ∧ (sid, k) ∈ held t0) ∨
        (c1 = c ∧ sid = s.nextConnId ∧ k = key ∧ s'.nextConnId = s.nextConnId + 1) := by
    intro c1 t1 sid k h1 hk
    rw [ht] at h1
    split_ifs at h1 with hc
    · cases h1
      subst hc
      rcases hheld sid k hk with h' | h'
      · exact Or.inl h'
      · exact Or.inr ⟨rfl, h'⟩
    · exact Or.inl ⟨t1, h1, hk⟩
  refine ⟨fun c1 t1 h1 => ?_, fun c1 t1 sid k h1 hk => ?_,
    fun c1 t1 c2 t2 sid k1 k2 h1 h2 hk1 hk2 => ?_, fun k e he => ?_⟩
  · rw [ht] at h1
    split_ifs at h1
    · cases h1
      exact hg
    · exact h.guarded c1 t1 h1
  · rcases hlast c1 t1 sid k h1 hk with ⟨t0, h0, hk0⟩ | ⟨-, hs, -, hn'⟩
    · exact Nat.lt_of_lt_of_le (h.below c1 t0 sid k h0 hk0) hn
    · omega
  · rcases hlast c1 t1 sid k1 h1 hk1 with ⟨t3, h3, hk3⟩ | ⟨hc1, hs1, hkey1, -⟩
    · rcases hlast c2 t2 sid k2 h2 hk2 with ⟨t4, h4, hk4⟩ | ⟨-, hs2, -, -⟩
      · exact h.unique c1 t3 c2 t4 sid k1 k2 h3 h4 hk3 hk4
      · exact absurd (h.below c1 t3 sid k1 h3 hk3) (by omega)
    · rcases hlast c2 t2 sid k2 h2 hk2 with ⟨t4, h4, hk4⟩ | ⟨hc2, -, hkey2, -⟩
      · exact absurd (h.below c2 t4 sid k2 h4 hk4) (by omega)
      · exact ⟨hc1.trans hc2.symm, hkey1.trans hkey2.symm⟩
  · rcases htab k e he with ⟨he', hkeep⟩ | ⟨hc, hk, hmem⟩
    · obtain ⟨t0, h0, hk0, hmem0⟩ := h.table k e he'
      by_cases hc : e.conn = c
      · rw [hc] at h0
        obtain ⟨hmem', hip⟩ := hkeep t0 h0 hmem0
        refine ⟨t', ?_, by rw [hip]; exact hk0, hmem'⟩
        rw [ht, if_pos hc]
      · refine ⟨t0, ?_, hk0, hmem0⟩
        rw [ht, if_neg hc]
        exact h0
    · exact ⟨t', by rw [ht, if_pos hc], hk, hmem⟩

theorem Owned.regroup (h : Owned s) (hc : s.task c = some t)
    (ht : ∀ c', s'.task c' = if c' = c then some t' else s.task c') (hg : Guarded t')
    (hn : s'.nextConnId = s.nextConnId) (ha : s'.agents = s.agents) (hip : t'.peerIp = t.peerIp)
    (hheld : ∀ p, p ∈ held t' ↔ p ∈ held t) : Owned s' := by
  refine h.task_step ⟨"", "", t.peerIp⟩ ht hg hn.ge (fun sid k hk => Or.inl ⟨t, hc, (hheld _).mp hk⟩)
    fun k e he => Or.inl ⟨ha ▸ he, fun t0 h0 hk => ?_⟩
  rw [hc] at h0
  cases h0
  exact ⟨(hheld _).mpr hk, hip⟩

theorem Guarded.goOn {hd : Handler} (g : Guarded t)
    (hp : ∀ r sid, pending hd = some (r, sid) → pending t.handler = some (r, sid) ∨
      t.registration.acceptsForTenant r.tenantId r.agentId t.peerIp = true)
    (hs : ∀ rest, hd = .dropping rest → rest <:+ t.registration.agent) :
    Guarded ⟨t.peerIp, hd, t.registration⟩ where
  ip := g.ip
  notes := g.notes
  accepted r sid hr := (hp r sid hr).elim (g.accepted r sid) id
  suffix := hs

section steps

variable {cn : Conn} (h : Owned s) (hc : s.conns.lookup c = some cn)
include h hc

theorem owned_handler {hd : Handler} (ht : ∀ c', s'.task c' =
      if c' = c then some ⟨cn.peerIp, hd, cn.registration⟩ else s.task c')
    (hn : s'.nextConnId = s.nextConnId) (ha : s'.agents = s.agents)
    (hp : pending hd = none ∨ pending hd = pending cn.handler)
    (hs : ∀ rest, hd = .dropping rest → rest <:+ cn.registration.agent)
    (hheld : held ⟨cn.peerIp, hd, cn.registration⟩ =
      held ⟨cn.peerIp, cn.handler, cn.registration⟩) : Owned s' := by
  have htask := task_of_lookup hc
  have g := h.guarded c _ htask
  refine h.regroup htask ht (g.goOn (fun r sid hr => Or.inl ?_) hs) hn ha rfl fun p => by rw [hheld]
  rcases hp with hp | hp
  · rw [hp] at hr
    cases hr
  · rw [hp] at hr
    exact hr

theorem owned_insert {r : Register} {sid : ℕ} {e : Entry} {hd : Handler}
    (hh : cn.handler = .numbered r sid)
    (ht : ∀ c', s'.task c' = if c' = c then some ⟨cn.peerIp, hd, cn.registration⟩ else s.task c')
    (hn : s'.nextConnId = s.nextConnId) (ha : s'.agents = s.agents.insert (r.key cn.peerIp) e)
    (he : e.conn = c ∧ e.stableId = sid ∧ e.tenantId = r.tenantId ∧ e.agentId = r.agentId)
    (hp : pending hd = some (r, sid)) (hs : ∀ rest, hd ≠ .dropping rest)
    (hheld : held ⟨cn.peerIp, hd, cn.registration⟩ =
      (sid, r.key cn.peerIp) :: (pairs cn.registration.agent).filter (·.2 ≠ r.key cn.peerIp)) :
    Owned s' := by
  have htask := task_of_lookup hc
  have g := h.guarded c _ htask
  have hold : held ⟨cn.peerIp, cn.handler, cn.registration⟩ =
      (sid, r.key cn.peerIp) :: pairs cn.registration.agent := by simp [held, hh]
  obtain ⟨hec, hes, het, hea⟩ := he
  refine h.task_step (r.key cn.peerIp) ht (g.goOn (fun r' sid' hr' => Or.inl ?_) fun rest hr =>
    absurd hr (hs rest)) hn.ge (fun sid' k hk => Or.inl ⟨_, htask, ?_⟩) fun k e' he' => ?_
  · rw [hp] at hr'
    cases hr'
    simp [pending, hh]
  · rw [hheld] at hk
    rw [hold]
    rcases List.mem_cons.mp hk with hk | hk
    · rw [hk]
      exact List.mem_cons_self
    · exact List.mem_cons_of_mem _ (List.mem_filter.mp hk).1
  · rw [ha, lookup_insert] at he'
    split_ifs at he' with hk
    · cases he'
      right
      refine ⟨hec, ?_, ?_⟩
      · rw [hk, het, hea, Register.key, AgentKey.newInTenant, g.ip]
      · rw [hheld, hes, hk]
        exact List.mem_cons_self
    · left
      refine ⟨he', fun t0 h0 hmem => ⟨?_, ?_⟩⟩
      · rw [htask] at h0
        cases h0
        rw [hold] at hmem
        rw [hheld]
        rcases List.mem_cons.mp hmem with hmem | hmem
        · cases hmem
          exact absurd rfl hk
        · exact List.mem_cons_of_mem _ (List.mem_filter.mpr ⟨hmem, by simpa using hk⟩)
      · rw [htask] at h0
        cases h0
        rfl

theorem owned_note {r : Register} {sid : ℕ} (hh : cn.handler = .noting r sid) :
    Owned (s.setConn c { cn with
      handler := .accepting
      registration := cn.registration.noteForTenant r.tenantId r.agentId cn.peerIp sid }) := by
  have htask := task_of_lookup hc
  have g := h.guarded c _ htask
  have hacc := g.accepted r sid (by simp [pending, hh])
  refine h.regroup htask (fun c' => task_setConn s c c' _) ?_ rfl rfl rfl fun p => ?_
  · exact ⟨g.ip, notes_noteForTenant g.ip g.notes hacc, by simp [pending], by simp⟩
  · simp only [held, hh]
    exact pairs_noteForTenant g.ip g.notes p

theorem owned_dropNext {n : Noted} {rest : List Noted} (hh : cn.handler = .dropping (n :: rest)) :
    Owned ({ s with agents := removeIfSame s.agents n.key n.stableId }.setConn c
      { cn with handler := .dropping rest }) := by
  have htask := task_of_lookup hc
  have g := h.guarded c _ htask
  have hold : held ⟨cn.peerIp, cn.handler, cn.registration⟩ = pairs (n :: rest) := by simp [held, hh]
  refine h.task_step n.key (fun c' => task_setConn _ c c' _) (g.goOn (fun r sid hr => by cases hr)
    fun rest' hr => ?_) (Nat.le_refl _) (fun sid k hk => Or.inl ⟨_, htask, ?_⟩) fun k e he => Or.inl ?_
  · cases hr
    exact (List.suffix_cons n rest).trans (g.suffix (n :: rest) hh)
  · rw [hold]
    exact List.mem_cons_of_mem _ hk
  · simp only [agents_setConn, lookup_removeIfSame] at he
    split_ifs at he with hrem
    refine ⟨he, fun t0 h0 hmem => ?_⟩
    rw [htask] at h0
    cases h0
    rw [hold] at hmem
    refine ⟨?_, rfl⟩
    rcases List.mem_cons.mp hmem with hmem | hmem
    · obtain ⟨hsid, hk⟩ := Prod.mk.inj hmem
      refine absurd ⟨hk, ?_⟩ hrem
      rw [← hk, he]
      simp [hsid]
    · exact hmem

end steps

/-- **One step keeps ownership.** -/
theorem owned_step {l : Label} (h : Owned s) (hs : step allowLegacy s l = some s') : Owned s' := by
  cases move_of_step hs with
  | nothing => exact h
  | health | acquire | release | drained => exact h.frame (fun _ => rfl) rfl fun _ _ he => he
  | fatal | strike | evictLater => exact h.frame (fun _ => rfl) rfl fun _ _ he => he
  | refuse | evictNow | deferredClose | deferredGrace =>
    exact h.frame (fun c => task_close _ _ c _ _) rfl fun _ _ he => he
  | connect c ip hc =>
    have htask : s.task c = none := by simp [State.task, hc]
    refine h.task_step ⟨"", "", ip⟩ (fun c' => task_setConn s c c' _) ?_ (Nat.le_refl _)
      (fun sid k hk => by cases hk) fun k e he => Or.inl ⟨he, fun t0 h0 => ?_⟩
    · exact ⟨normalizeIp_idem ip, ⟨by simp [Registration.new], by simp [Registration.new],
        by simp [Registration.new], by simp [Registration.new]⟩, by simp [pending], by simp⟩
    · rw [htask] at h0
      cases h0
  | number c f v now cn r hc hh ha =>
    have htask := task_of_lookup hc
    have g := h.guarded c _ htask
    refine h.task_step (r.key cn.peerIp) (fun c' => task_setConn _ c c' _) ?_ (Nat.le_succ _) ?_ ?_
    · exact g.goOn (fun r' sid hr' => by cases hr'; exact Or.inr ha) fun rest hr => by cases hr
    · intro sid k hk
      rcases List.mem_cons.mp hk with hk | hk
      · cases hk
        exact Or.inr ⟨rfl, rfl, rfl⟩
      · exact Or.inl ⟨_, htask, by simpa [held, hh] using hk⟩
    · intro k e he
      refine Or.inl ⟨he, fun t0 h0 hk => ?_⟩
      rw [htask] at h0
      cases h0
      simp only [held, hh] at hk
      exact ⟨List.mem_cons_of_mem _ hk, rfl⟩
  | refuseAndEnd c f v now cn hc hh =>
    refine owned_handler h hc (fun c' => task_setConn_close s c c' _ _ _ c) rfl rfl (Or.inl rfl)
      (fun rest hr => ?_) (by simp [held, hh])
    cases hr
    exact List.suffix_refl _
  | insertOver c now cn r sid old hc hh ho =>
    exact owned_insert h hc hh (fun c' => task_setConn _ c c' _) rfl rfl ⟨rfl, rfl, rfl, rfl⟩ rfl
      (fun _ hr => by cases hr) rfl
  | insertNew c now cn r sid hc hh ho =>
    exact owned_insert h hc hh (fun c' => task_setConn _ c c' _) rfl rfl ⟨rfl, rfl, rfl, rfl⟩ rfl
      (fun _ hr => by cases hr) rfl
  | load c cn r sid old hc hh =>
    exact owned_handler h hc (fun c' => task_setConn _ c c' _) rfl rfl (Or.inr (by rw [hh]; rfl))
      (fun _ hr => by cases hr) (by simp [held, hh])
  | closeNow c cn r sid old hc hh =>
    exact owned_handler h hc (fun c' => task_setConn_close s c c' _ _ _ old.conn) rfl rfl
      (Or.inr (by rw [hh]; rfl)) (fun _ hr => by cases hr) (by simp [held, hh])
  | closeLater c cn r sid old n hc hh =>
    exact owned_handler h hc (fun c' => task_setConn s c c' _) rfl rfl
      (Or.inr (by rw [hh]; rfl)) (fun _ hr => by cases hr) (by simp [held, hh])
  | note c cn r sid hc hh => exact owned_note h hc hh
  | hangUp c cn hc hh =>
    refine owned_handler h hc (fun c' => task_setConn _ c c' _) rfl rfl (Or.inl rfl)
      (fun rest hr => ?_) (by simp [held, hh])
    cases hr
    exact List.suffix_refl _
  | dropNext c cn n rest hc hh => exact owned_dropNext h hc hh
  | dropEnd c cn hc hh =>
    exact owned_handler h hc (fun c' => task_setConn _ c c' _) rfl rfl (Or.inl rfl)
      (fun _ hr => by cases hr) (by simp [held, hh, pairs])
  | remove q sl cause key e m hq hr he hs' hm hev =>
    refine h.frame (fun _ => rfl) rfl fun k e' he' => ?_
    simp only [agents_setSlot, lookup_erase] at he'
    split_ifs at he'
    exact he'

theorem owned_reaches (h : Reaches (step allowLegacy) init s) : Owned s :=
  run_invariant (I := Owned) (fun _ _ _ hi hs => owned_step hi hs) owned_init h

/-- Entries are told apart by their `stable_id`s. -/
theorem Owned.stableId_inj (h : Owned s) {k k' : AgentKey} {e e' : Entry}
    (he : s.agents.lookup k = some e) (he' : s.agents.lookup k' = some e')
    (hs : e.stableId = e'.stableId) : k = k' ∧ e = e' := by
  obtain ⟨t, htask, -, hmem⟩ := h.table k e he
  obtain ⟨t', htask', -, hmem'⟩ := h.table k' e' he'
  rw [← hs] at hmem'
  obtain ⟨-, rfl⟩ := h.unique _ _ _ _ _ _ _ htask htask' hmem hmem'
  rw [he] at he'
  exact ⟨rfl, Option.some.inj he'⟩

/-! ### No ghost agents -/

theorem mem_held {sid : ℕ} {k : AgentKey} (g : Guarded t) (h : (sid, k) ∈ held t) :
    ((∃ n ∈ t.registration.agent, n.stableId = sid ∧ n.key = k) ∨
      ∃ r, pending t.handler = some (r, sid) ∧ k = r.key t.peerIp) ∧
    t.handler ≠ .ended ∧ ∀ rest, t.handler = .dropping rest → ∃ n ∈ rest, n.stableId = sid := by
  unfold held at h
  cases hh : t.handler with
  | accepting =>
    rw [hh] at h
    exact ⟨Or.inl (mem_pairs.mp h), by simp, by simp⟩
  | numbered r sid' =>
    rw [hh] at h
    refine ⟨?_, by simp, by simp⟩
    rcases List.mem_cons.mp h with h | h
    · cases h
      exact Or.inr ⟨r, rfl, rfl⟩
    · exact Or.inl (mem_pairs.mp h)
  | inserted r sid' | closing r sid' | noting r sid' =>
    rw [hh] at h
    refine ⟨?_, by simp, by simp⟩
    rcases List.mem_cons.mp h with h | h
    · cases h
      exact Or.inr ⟨r, rfl, rfl⟩
    · exact Or.inl (mem_pairs.mp (List.mem_filter.mp h).1)
  | dropping rest =>
    rw [hh] at h
    obtain ⟨n, hn, hsid, hk⟩ := mem_pairs.mp h
    refine ⟨Or.inl ⟨n, (g.suffix rest hh).subset hn, hsid, hk⟩, by simp, fun rest' hr => ?_⟩
    cases hr
    exact ⟨n, hn, hsid⟩
  | ended =>
    rw [hh] at h
    cases h

/-- One `remove_if_same_for_tenant` of a drop takes out the entry with that `stable_id`. -/
theorem lookup_dropNext (h : Owned s) {cn : Conn} {n : Noted} {rest : List Noted}
    (hc : s.conns.lookup c = some cn) (hh : cn.handler = .dropping (n :: rest)) (k : AgentKey) :
    (removeIfSame s.agents n.key n.stableId).lookup k =
      (s.agents.lookup k).filter fun e => e.stableId ≠ n.stableId := by
  rw [lookup_removeIfSame]
  cases he : s.agents.lookup k with
  | none => simp
  | some e =>
    by_cases hs : e.stableId = n.stableId
    · obtain ⟨t, htask, -, hmem⟩ := h.table k e he
      have hhold : (e.stableId, n.key) ∈ held ⟨cn.peerIp, cn.handler, cn.registration⟩ := by
        simp [held, hh, pairs, hs]
      obtain ⟨-, hk⟩ := h.unique _ _ _ _ _ _ _ htask (task_of_lookup hc) hmem hhold
      subst hk
      simp [he, hs, Option.filter]
    · have hno : ¬ (k = n.key ∧ (s.agents.lookup n.key).any (·.stableId = n.stableId) = true) := by
        rintro ⟨rfl, ha⟩
        rw [he] at ha
        exact hs (by simpa using ha)
      rw [if_neg hno]
      simp [hs, Option.filter]

/-- The rest of a drop, undisturbed, takes out the entries it still owns and no other. -/
theorem run_drop : ∀ (rest : List Noted) {s : State} {cn : Conn}, Owned s →
    s.conns.lookup c = some cn → cn.handler = .dropping rest →
    ∃ s', run (step allowLegacy) s (List.replicate rest.length (.dropNext c)) = some s' ∧
      ∀ k, s'.agents.lookup k =
        (s.agents.lookup k).filter fun e => e.stableId ∉ rest.map (·.stableId)
  | [], s, cn, _, _, _ => ⟨s, rfl, fun k => by ext e; simp⟩
  | n :: rest, s, cn, h, hc, hh => by
    have hs : step allowLegacy s (.dropNext c) =
        some ({ s with agents := removeIfSame s.agents n.key n.stableId }.setConn c
          { cn with handler := .dropping rest }) := by
      simp [step, withConn, hc, hh]
    have hc' : ({ s with agents := removeIfSame s.agents n.key n.stableId }.setConn c
        { cn with handler := .dropping rest }).conns.lookup c =
        some { cn with handler := .dropping rest } := by
      simp [State.setConn]
    obtain ⟨s', hrun, hlook⟩ := run_drop rest (owned_step h hs) hc' rfl
    refine ⟨s', run_cons_eq_some.mpr ⟨_, hs, hrun⟩, fun k => ?_⟩
    rw [hlook k, agents_setConn, lookup_dropNext h hc hh, Option.filter_filter]
    congr 1
    funext e
    simp [List.mem_cons]

/-- **No ghost agents.** In every reachable state an entry lies under its own node. Its `stable_id` is no
other entry's, and is noted, or is about to be noted, by the `Registration` of the connection that the
entry points to; that connection's task has not ended, and if it is dropping its `Registration`, the
entry's turn is still to come. A `Registration` has at most four nodes, of one tenant. What is left of a
drop takes out exactly the entries it still owns. -/
theorem no_ghost_agents (h : Reaches (step allowLegacy) init s) :
    (∀ k e, s.agents.lookup k = some e → ∃ cn, s.conns.lookup e.conn = some cn ∧
      k = ⟨e.tenantId, e.agentId, cn.peerIp⟩ ∧ normalizeIp cn.peerIp = cn.peerIp ∧
      ((∃ n ∈ cn.registration.agent, n.stableId = e.stableId ∧ n.key = k) ∨
        ∃ r, pending cn.handler = some (r, e.stableId) ∧ k = r.key cn.peerIp) ∧
      cn.handler ≠ .ended ∧
      ∀ rest, cn.handler = .dropping rest → ∃ n ∈ rest, n.stableId = e.stableId) ∧
    (∀ k e k' e', s.agents.lookup k = some e → s.agents.lookup k' = some e' →
      e.stableId = e'.stableId → k = k' ∧ e = e') ∧
    (∀ c cn, s.conns.lookup c = some cn →
      cn.registration.agent.length ≤ maxRegistrationsPerConnection ∧
      ∃ tenantId, ∀ n ∈ cn.registration.agent, n.tenantId = tenantId) ∧
    (∀ c cn n rest, s.conns.lookup c = some cn → cn.handler = .dropping (n :: rest) →
      ∀ s', step allowLegacy s (.dropNext c) = some s' → ∀ k, s'.agents.lookup k =
        (s.agents.lookup k).filter fun e => e.stableId ≠ n.stableId) ∧
    (∀ c cn rest, s.conns.lookup c = some cn → cn.handler = .dropping rest →
      ∃ s', run (step allowLegacy) s (List.replicate rest.length (.dropNext c)) = some s' ∧
        ∀ k, s'.agents.lookup k =
          (s.agents.lookup k).filter fun e => e.stableId ∉ rest.map (·.stableId)) := by
  have ho := owned_reaches h
  refine ⟨fun k e he => ?_, fun k e k' e' he he' hs => ho.stableId_inj he he' hs,
    fun c cn hc => ?_, fun c cn n rest hc hh s' hs k => ?_,
    fun c cn rest hc hh => run_drop rest ho hc hh⟩
  · obtain ⟨t, htask, hk, hmem⟩ := ho.table k e he
    obtain ⟨cn, hc, rfl⟩ := Option.map_eq_some_iff.mp htask
    have g := ho.guarded _ _ htask
    exact ⟨cn, hc, hk, g.ip, mem_held g hmem⟩
  · have g := ho.guarded c _ (task_of_lookup hc)
    refine ⟨g.notes.length, cn.registration.tenant.getD "", fun n hn => ?_⟩
    rw [g.notes.tenant n hn]
    rfl
  · simp only [step, withConn, hc, Option.bind_some, hh, Option.some.injEq] at hs
    subst hs
    exact lookup_dropNext ho hc hh k

/-- A connection `c` registers the agent `name`, up to the note if nothing is superseded. -/
def registers (c : ℕ) (name : String) : List Label :=
  [.frame c (.register name ["*"] 0 "") false 0, .insert c 0]

/-- Two agents on one connection. -/
theorem no_ghost_agents_two : ∃ s, run (step true) init (.connect 0 (.v4 1) :: registers 0 "a" ++
      [.note 0] ++ registers 0 "b" ++ [.note 0]) = some s ∧
    s.agents.lookup ⟨"default", "b", .v4 1⟩ = some ⟨0, 2, "b", "default", ["*"], 0, 1⟩ ∧
    ∃ cn, s.conns.lookup 0 = some cn ∧ cn.handler ≠ .ended := by
  obtain ⟨s, hs, he⟩ := exists_run (step true) init (.connect 0 (.v4 1) :: registers 0 "a" ++
      [.note 0] ++ registers 0 "b" ++ [.note 0])
    (fun s => s.agents.lookup ⟨"default", "b", .v4 1⟩ =
      some ⟨0, 2, "b", "default", ["*"], 0, 1⟩) (by decide)
  obtain ⟨cn, hc, -, -, -, hne, -⟩ := (no_ghost_agents ⟨_, hs⟩).1 _ _ he
  exact ⟨s, hs, he, cn, hc, hne⟩

/-- Whether no connection that satisfies `p` has noted the `stable_id`. -/
def unnoted (p : Conn → Bool) (s : State) (sid : ℕ) : Bool :=
  (values s.conns).all fun cn => !p cn || cn.registration.agent.all fun n => n.stableId != sid

theorem unnoted_spec {p : Conn → Bool} {sid : ℕ} (h : unnoted p s sid = true) :
    ∀ c cn, s.conns.lookup c = some cn → p cn = true → ∀ n ∈ cn.registration.agent,
      n.stableId ≠ sid := by
  intro c cn hc hp n hn
  have hm := List.all_eq_true.mp h cn ((mem_values _ _).mpr ⟨c, hc⟩)
  simp only [hp, Bool.not_true, Bool.false_or, List.all_eq_true] at hm
  simpa using hm n hn

/-- A new entry is not noted at once. And a connection that was closed, because another one took over one
of its two nodes, keeps the entry of the other until its task ends. -/
theorem entry_unnoted_or_closed :
    (∃ s k e, Reaches (step true) init s ∧ s.agents.lookup k = some e ∧
      ∀ c cn, s.conns.lookup c = some cn → ∀ n ∈ cn.registration.agent, n.stableId ≠ e.stableId) ∧
    ∃ s k e, Reaches (step true) init s ∧ s.agents.lookup k = some e ∧
      (∀ c cn, s.conns.lookup c = some cn → cn.handler = .accepting) ∧
      ∀ c cn, s.conns.lookup c = some cn → cn.closed = false → ∀ n ∈ cn.registration.agent,
        n.stableId ≠ e.stableId := by
  constructor
  · obtain ⟨s, hs, he, hu⟩ := exists_run (step true) init (.connect 0 (.v4 1) :: registers 0 "a")
      (fun s => s.agents.lookup ⟨"default", "a", .v4 1⟩ = some ⟨0, 1, "a", "default", ["*"], 0, 0⟩ ∧
        unnoted (fun _ => true) s 1 = true) (by decide)
    exact ⟨s, _, _, ⟨_, hs⟩, he, fun c cn hc => unnoted_spec hu c cn hc rfl⟩
  · obtain ⟨s, hs, he, hh, hu⟩ := exists_run (step true) init
      (.connect 0 (.v4 1) :: registers 0 "a" ++ [.note 0] ++ registers 0 "b" ++ [.note 0] ++
        .connect 1 (.v4 1) :: registers 1 "a" ++ [.loadInflight 1, .closeOld 1, .note 1])
      (fun s => s.agents.lookup ⟨"default", "b", .v4 1⟩ = some ⟨0, 2, "b", "default", ["*"], 0, 1⟩ ∧
        (values s.conns).all (fun cn => cn.handler = .accepting) = true ∧
        unnoted (fun cn => !cn.closed) s 2 = true) (by decide)
    refine ⟨s, _, _, ⟨_, hs⟩, he, fun c cn hc => ?_, fun c cn hc ho => ?_⟩
    · simpa using List.all_eq_true.mp hh cn ((mem_values _ _).mpr ⟨c, hc⟩)
    · exact unnoted_spec hu c cn hc (by simp [ho])

end HomeLlmGateway.Registry.Ownership
