import HomeLlmGateway.Registry.Ownership

/-! # What a connection may touch

A control frame names an agent, a tenant and a token as its sender likes. What the frames of a connection
can do to the table is bounded by two things the sender does not choose afterwards: the tenant of the
first registration that was accepted on the connection, and the socket address. Both are read off the
labels of the run: `firstTenant` and `socketIp`. -/

namespace HomeLlmGateway.Registry.Authority

open HomeLlmGateway.Lib.Runs HomeLlmGateway.Lib.Assoc HomeLlmGateway.Proto.Frames
open HomeLlmGateway.Gateway.Tenant (defaultTenantId)
open HomeLlmGateway.Registry.Node HomeLlmGateway.Registry.Table HomeLlmGateway.Registry.System
open HomeLlmGateway.Registry.Ownership

/-! ### What the labels of a run say about a connection -/

/-- The connection whose task makes the step. -/
def conn : Label → Option ℕ
  | .connect c _ | .frame c _ _ _ | .insert c _ | .loadInflight c | .closeOld c | .note c | .hangUp c
  | .dropNext c => some c
  | _ => none

/-- The registration a frame asks for, if the policy lets it: a token-less one goes to the default tenant,
the other one to the tenant whose token was verified. -/
def asks (allowLegacy verified : Bool) : Frame → Option Register
  | .register agentId models maxConcurrency _ =>
    if allowLegacy then some ⟨defaultTenantId, agentId, models, maxConcurrency⟩ else none
  | .registerWithTenant agentId tenantId _ models maxConcurrency _ =>
    if verified then some ⟨tenantId, agentId, models, maxConcurrency⟩ else none
  | _ => none

/-- The registration that the step accepts on the connection `c`. -/
def accepted (allowLegacy : Bool) (c : ℕ) (s : State) : Label → Option Register
  | .frame c' f verified _ =>
    if c' = c then (s.conns.lookup c).bind fun cn =>
      (asks allowLegacy verified f).filter fun r =>
        cn.registration.acceptsForTenant r.tenantId r.agentId cn.peerIp
    else none
  | _ => none

/-- The tenant of the first registration that is accepted on the connection `c`. -/
def firstTenant (allowLegacy : Bool) (c : ℕ) (ls : List Label) : Option String :=
  (firstAlong (accepted allowLegacy c) (step allowLegacy) init ls).map (·.tenantId)

/-- The address a connection comes from. -/
def connectIp (c : ℕ) : Label → Option IpAddr
  | .connect c' ip => if c' = c then some ip else none
  | _ => none

/-- The address the connection `c` came from. -/
def socketIp (c : ℕ) (ls : List Label) : Option IpAddr := ls.findSome? (connectIp c)

/-- The frame a step of the connection `c` handles, and whether its token was verified. -/
def frameOf (c : ℕ) : Label → Option (Frame × Bool)
  | .frame c' f verified _ => if c' = c then some (f, verified) else none
  | _ => none

/-- The last frame of the connection `c`. -/
def lastFrame (c : ℕ) (ls : List Label) : Option (Frame × Bool) := (ls.filterMap (frameOf c)).getLast?

/-- The run has a lock section by which the connection `c` registers `stableId`. -/
def RegisteredOver (allowLegacy : Bool) (c stableId : ℕ) (ls : List Label) : Prop :=
  ∃ ls1 now ls2 s cn r, ls = ls1 ++ .insert c now :: ls2 ∧ run (step allowLegacy) init ls1 = some s ∧
    s.conns.lookup c = some cn ∧ cn.handler = .numbered r stableId

section labels

variable {allowLegacy : Bool} {c : ℕ} {ls : List Label} {l : Label} {s : State}

theorem accepted_eq_none (h : ∀ f v now, l ≠ .frame c f v now) : accepted allowLegacy c s l = none := by
  cases l with
  | frame c' f v now =>
    have hc : c' ≠ c := fun hc => h f v now (by rw [hc])
    simp [accepted, hc]
  | _ => rfl

theorem frameOf_eq_none (h : ∀ f v now, l ≠ .frame c f v now) : frameOf c l = none := by
  cases l with
  | frame c' f v now =>
    have hc : c' ≠ c := fun hc => h f v now (by rw [hc])
    simp [frameOf, hc]
  | _ => rfl

theorem firstTenant_concat (hr : run (step allowLegacy) init ls = some s) :
    firstTenant allowLegacy c (ls ++ [l]) =
      (firstTenant allowLegacy c ls).or ((accepted allowLegacy c s l).map (·.tenantId)) := by
  unfold firstTenant
  rw [firstAlong_concat _ hr]
  cases firstAlong (accepted allowLegacy c) (step allowLegacy) init ls <;> rfl

theorem socketIp_concat : socketIp c (ls ++ [l]) = (socketIp c ls).or (connectIp c l) := by
  unfold socketIp
  rw [List.findSome?_append]
  cases h : connectIp c l <;> simp [h]

theorem lastFrame_concat : lastFrame c (ls ++ [l]) = (frameOf c l).or (lastFrame c ls) := by
  unfold lastFrame
  rw [List.filterMap_append]
  cases h : frameOf c l <;> simp [h]

theorem RegisteredOver.concat {sid : ℕ} (h : RegisteredOver allowLegacy c sid ls) :
    RegisteredOver allowLegacy c sid (ls ++ [l]) := by
  obtain ⟨ls1, now, ls2, s, cn, r, rfl, hs⟩ := h
  exact ⟨ls1, now, ls2 ++ [l], s, cn, r, by simp, hs⟩

end labels

/-! ### What a frame does -/

section frames

variable {allowLegacy v : Bool} {s s' : State} {c : ℕ} {f : Frame} {now : UInt64} {r : Register}

/-- A frame that may register is a token-less one, if these are allowed, for the default tenant, or one
with a verified token. -/
theorem asks_eq_some (h : asks allowLegacy v f = some r) :
    (∃ agentId models maxConcurrency version, f = .register agentId models maxConcurrency version ∧
      allowLegacy = true ∧ r.tenantId = defaultTenantId) ∨
    ∃ agentId token models maxConcurrency version,
      f = .registerWithTenant agentId r.tenantId token models maxConcurrency version ∧ v = true := by
  unfold asks at h
  split at h
  · split_ifs at h with hl
    cases h
    exact Or.inl ⟨_, _, _, _, rfl, hl, rfl⟩
  · split_ifs at h with hv
    cases h
    exact Or.inr ⟨_, _, _, _, _, rfl, hv⟩
  · cases h

/-- What a connection's task works on changes at most for `c`, which may begin to drop. -/
def OnlyDrops (s s' : State) (c : ℕ) (cn : Conn) : Prop :=
  ∀ c', s'.task c' = s.task c' ∨
    (c' = c ∧ s'.task c' = some ⟨cn.peerIp, .dropping cn.registration.agent, cn.registration⟩)

/-- **A control frame** has a registration accepted, refreshes an entry of its own, or neither. -/
theorem frame_cases (h : step allowLegacy s (.frame c f v now) = some s') :
    ∃ cn, s.conns.lookup c = some cn ∧ cn.handler = .accepting ∧
      ((∃ r, asks allowLegacy v f = some r ∧
        accepted allowLegacy c s (.frame c f v now) = some r ∧
        s' = { s with nextConnId := s.nextConnId + 1 }.setConn c
          { cn with handler := .numbered r s.nextConnId }) ∨
      (accepted allowLegacy c s (.frame c f v now) = none ∧ s'.agents = s.agents ∧ s'.mem = s.mem ∧
        OnlyDrops s s' c cn) ∨
      ∃ agentId inflight tenant sid e, f = .heartbeat agentId inflight ∧
        cn.registration.tenant = some tenant ∧
        cn.registration.ownedStableIdForTenant tenant agentId cn.peerIp = some sid ∧
        s.agents.lookup (.newInTenant tenant agentId cn.peerIp) = some e ∧ e.stableId = sid ∧
        s' = { s with mem := { s.mem with
          health := Function.update s.mem.health sid ((s.mem.health sid).heartbeat now) } }) := by
  obtain ⟨cn, hc, h⟩ := withConn_eq_some.mp h
  split at h
  case h_2 => cases h
  next hh =>
  cases h
  refine ⟨cn, hc, hh, ?_⟩
  -- a frame that asks for `r` is accepted or refused by the connection's `Registration`
  have hasks : ∀ r, asks allowLegacy v f = some r →
      (∃ r', asks allowLegacy v f = some r' ∧ accepted allowLegacy c s (.frame c f v now) = some r' ∧
        registerAgent s c cn r = { s with nextConnId := s.nextConnId + 1 }.setConn c
          { cn with handler := .numbered r' s.nextConnId }) ∨
      (accepted allowLegacy c s (.frame c f v now) = none ∧ (registerAgent s c cn r).agents = s.agents ∧
        (registerAgent s c cn r).mem = s.mem ∧ OnlyDrops s (registerAgent s c cn r) c cn) := by
    intro r hr
    unfold registerAgent
    by_cases ha : cn.registration.acceptsForTenant r.tenantId r.agentId cn.peerIp = true
    · refine Or.inl ⟨r, hr, by simp [accepted, hc, hr, ha, Option.filter], ?_⟩
      rw [if_pos ha]
    · refine Or.inr ⟨by simp [accepted, hc, hr, ha, Option.filter], ?_⟩
      rw [if_neg ha]
      exact ⟨rfl, rfl, fun c' => Or.inl (task_close s c c' _ _)⟩
  have hrefuse : asks allowLegacy v f = none →
      accepted allowLegacy c s (.frame c f v now) = none ∧ (refuse s c cn).agents = s.agents ∧
        (refuse s c cn).mem = s.mem ∧ OnlyDrops s (refuse s c cn) c cn := by
    intro hr
    refine ⟨by simp [accepted, hc, hr], rfl, rfl, fun c' => ?_⟩
    have ht := task_setConn_close s c c' { cn with handler := .dropping cn.registration.agent }
      .refusal false c
    by_cases hcc : c' = c
    · rw [if_pos hcc] at ht
      exact Or.inr ⟨hcc, ht⟩
    · rw [if_neg hcc] at ht
      exact Or.inl ht
  have hnothing : asks allowLegacy v f = none →
      accepted allowLegacy c s (.frame c f v now) = none ∧ s.agents = s.agents ∧ s.mem = s.mem ∧
        OnlyDrops s s c cn :=
    fun hr => ⟨by simp [accepted, hc, hr], rfl, rfl, fun c' => Or.inl rfl⟩
  cases f with
  | register agentId models maxConcurrency version =>
    simp only [onControlFrame]
    split_ifs with hl
    · rcases hasks ⟨defaultTenantId, agentId, models, maxConcurrency⟩ (by simp [asks, hl]) with h | h
      · exact Or.inl h
      · exact Or.inr (Or.inl h)
    · exact Or.inr (Or.inl (hrefuse (by simp [asks, hl])))
  | registerWithTenant agentId tenantId token models maxConcurrency version =>
    simp only [onControlFrame]
    split_ifs with hv
    · rcases hasks ⟨tenantId, agentId, models, maxConcurrency⟩ (by simp [asks, hv]) with h | h
      · exact Or.inl h
      · exact Or.inr (Or.inl h)
    · exact Or.inr (Or.inl (hrefuse (by simp [asks, hv])))
  | heartbeat agentId inflight =>
    simp only [onControlFrame]
    split
    · exact Or.inr (Or.inl (hnothing rfl))
    · next tenant ht =>
      split
      · exact Or.inr (Or.inl (hnothing rfl))
      · next sid hsid =>
        split
        · exact Or.inr (Or.inl (hnothing rfl))
        · next sid' hb =>
          unfold heartbeatIfSame at hb
          split at hb
          · next e he =>
            split_ifs at hb with hs
            cases hb
            subst hs
            exact Or.inr (Or.inr ⟨agentId, inflight, tenant, e.stableId, e, rfl, ht, hsid, he, rfl, rfl⟩)
          · cases hb
  | proxyRequest | proxyResponseHead | proxyResponseBody | proxyResponseEnd | cancel | error =>
    exact Or.inr (Or.inl (hnothing rfl))

end frames

/-! ### What binds a connection -/

/-- What binds a connection's task: its address, the tenant of its `Registration` and the registration
under way. -/
structure Badge where
  peerIp : IpAddr
  tenant : Option String
  pending : Option (Register × ℕ)

/-- The badge of a connection. -/
def badge (s : State) (c : ℕ) : Option Badge :=
  (s.task c).map fun t => ⟨t.peerIp, t.registration.tenant, pending t.handler⟩

/-- A badge that the run so far accounts for. -/
structure Badge.Accounted (allowLegacy : Bool) (ls : List Label) (c : ℕ) (b : Badge) : Prop where
  ip : (socketIp c ls).map normalizeIp = some b.peerIp
  tenant : ∀ x, b.tenant = some x → firstTenant allowLegacy c ls = some x
  pending : ∀ r sid, b.pending = some (r, sid) → firstTenant allowLegacy c ls = some r.tenantId ∧
    ∃ f v, lastFrame c ls = some (f, v) ∧ asks allowLegacy v f = some r
  none : b.tenant = none → b.pending = none → firstTenant allowLegacy c ls = none

/-- **What the run so far accounts for**: the badges of all connections, and for every entry the
registration of its `stable_id` over its connection. -/
structure Accounted (allowLegacy : Bool) (ls : List Label) (s : State) : Prop where
  unknown : ∀ c, badge s c = none → firstTenant allowLegacy c ls = none ∧ socketIp c ls = none
  known : ∀ c b, badge s c = some b → b.Accounted allowLegacy ls c
  table : ∀ k e, s.agents.lookup k = some e → RegisteredOver allowLegacy e.conn e.stableId ls

section badges

variable {allowLegacy : Bool} {ls : List Label} {l : Label} {s s' : State} {c : ℕ}

theorem badge_of_lookup {cn : Conn} (hc : s.conns.lookup c = some cn) :
    badge s c = some ⟨cn.peerIp, cn.registration.tenant, pending cn.handler⟩ := by
  unfold badge
  rw [task_of_lookup hc]
  rfl

theorem badge_setConn (c' : ℕ) (cn : Conn) : badge (s.setConn c cn) c' =
    if c' = c then some ⟨cn.peerIp, cn.registration.tenant, pending cn.handler⟩ else badge s c' := by
  unfold badge
  rw [task_setConn]
  split_ifs <;> rfl

theorem badge_close (c' x : ℕ) (closer : Closer) (g : Bool) : badge (s.close x closer g) c' = badge s c' := by
  unfold badge
  rw [task_close]

theorem badge_goOn {cn : Conn} {hd : Handler} (hc : s.conns.lookup c = some cn)
    (hp : pending hd = pending cn.handler) (c' : ℕ) :
    badge (s.setConn c { cn with handler := hd }) c' = badge s c' := by
  rw [badge_setConn]
  split_ifs with h
  · subst h
    rw [badge_of_lookup hc, hp]
  · rfl

/-- The steps that change the badge of a connection: it connects, handles a frame or notes. -/
def changesBadge (c : ℕ) : Label → Bool
  | .connect c' _ | .frame c' _ _ _ | .note c' => c' = c
  | _ => false

theorem badge_eq_of_step (h : step allowLegacy s l = some s') (hl : changesBadge c l = false) :
    badge s' c = badge s c := by
  have hm := move_of_step h
  cases hm with
  | connect c' ip hc | note c' cn r sid hc hh =>
    have hne : c ≠ c' := fun he => by simp [changesBadge, he] at hl
    rw [badge_setConn, if_neg hne]
  | number c' f v now cn r hc hh ha =>
    have hne : c ≠ c' := fun he => by simp [changesBadge, he] at hl
    rw [badge_setConn, if_neg hne]
    rfl
  | refuseAndEnd c' f v now cn hc hh =>
    rw [badge_close]
    exact badge_goOn hc (by rw [hh]; rfl) c
  | refuse | evictNow | deferredClose | deferredGrace => exact badge_close _ _ _ _
  | insertOver c' now cn r sid old hc hh ho =>
    exact (badge_goOn (s := { s with agents := _, mem := _ }) hc (by rw [hh]; rfl) c).trans rfl
  | insertNew c' now cn r sid hc hh ho =>
    exact (badge_goOn (s := { s with agents := _, nextCounter := _, mem := _ }) hc
      (by rw [hh]; rfl) c).trans rfl
  | load c' cn r sid old hc hh => exact badge_goOn hc (by rw [hh]; rfl) c
  | closeNow c' cn r sid old hc hh =>
    rw [badge_close]
    exact badge_goOn hc (by rw [hh]; rfl) c
  | closeLater c' cn r sid old n hc hh => exact badge_goOn hc (by rw [hh]; rfl) c
  | hangUp c' cn hc hh => exact badge_goOn hc (by rw [hh]; rfl) c
  | dropNext c' cn n rest hc hh =>
    exact (badge_goOn (s := { s with agents := _ }) hc (by rw [hh]; rfl) c).trans rfl
  | dropEnd c' cn hc hh => exact badge_goOn hc (by rw [hh]; rfl) c
  | _ => rfl

/-- **How the table changes**: a registration puts its entry in, a drop or a report takes one out. -/
theorem lookup_change (h : step allowLegacy s l = some s') {k : AgentKey}
    (hk : s'.agents.lookup k ≠ s.agents.lookup k) :
    (∃ c now cn r sid e, l = .insert c now ∧ s.conns.lookup c = some cn ∧
      cn.handler = .numbered r sid ∧ k = r.key cn.peerIp ∧ s'.agents.lookup k = some e ∧
      e.conn = c ∧ e.stableId = sid ∧ r = ⟨e.tenantId, e.agentId, e.models, e.maxConcurrency⟩) ∨
    (∃ c cn n rest, l = .dropNext c ∧ s.conns.lookup c = some cn ∧
      cn.handler = .dropping (n :: rest) ∧ k = n.key ∧ s'.agents.lookup k = none) ∨
    ((∃ q, l = .evict q) ∧ s'.agents.lookup k = none) := by
  cases move_of_step h with
  | insertOver c now cn r sid old hc hh ho =>
    rw [agents_setConn, lookup_insert] at hk ⊢
    split_ifs at hk with hkey
    · exact Or.inl ⟨c, now, cn, r, sid, _, rfl, hc, hh, hkey, if_pos hkey, rfl, rfl, rfl⟩
    · exact absurd rfl hk
  | insertNew c now cn r sid hc hh ho =>
    rw [agents_setConn, lookup_insert] at hk ⊢
    split_ifs at hk with hkey
    · exact Or.inl ⟨c, now, cn, r, sid, _, rfl, hc, hh, hkey, if_pos hkey, rfl, rfl, rfl⟩
    · exact absurd rfl hk
  | dropNext c cn n rest hc hh =>
    rw [agents_setConn, lookup_removeIfSame] at hk ⊢
    split_ifs at hk with hkey
    · exact Or.inr (Or.inl ⟨c, cn, n, rest, rfl, hc, hh, hkey.1, if_pos hkey⟩)
    · exact absurd rfl hk
  | remove q sl cause key e m hq hr he hs hm hev =>
    rw [agents_setSlot, lookup_erase] at hk ⊢
    split_ifs at hk with hkey
    · exact Or.inr (Or.inr ⟨⟨q, rfl⟩, if_pos hkey⟩)
    · exact absurd rfl hk
  | _ => exact absurd rfl hk

theorem Badge.Accounted.concat {b : Badge} (hr : run (step allowLegacy) init ls = some s)
    (h : b.Accounted allowLegacy ls c) (hf : ∀ f v now, l ≠ .frame c f v now) :
    b.Accounted allowLegacy (ls ++ [l]) c := by
  have hfirst : firstTenant allowLegacy c (ls ++ [l]) = firstTenant allowLegacy c ls := by
    rw [firstTenant_concat hr, accepted_eq_none hf, Option.map_none, Option.or_none]
  have hlast : lastFrame c (ls ++ [l]) = lastFrame c ls := by
    rw [lastFrame_concat, frameOf_eq_none hf, Option.none_or]
  obtain ⟨ip, hip, hb⟩ := Option.map_eq_some_iff.mp h.ip
  refine ⟨?_, ?_, ?_, ?_⟩
  · rw [socketIp_concat, hip, Option.some_or, Option.map_some, hb]
  · rw [hfirst]
    exact h.tenant
  · rw [hfirst, hlast]
    exact h.pending
  · rw [hfirst]
    exact h.none

theorem accounted_init : Accounted allowLegacy [] init where
  unknown c _ := ⟨rfl, rfl⟩
  known c b h := by cases h
  table k e h := by cases h

theorem tenantId_of_accepts {g : Registration} {x tenantId agentId : String} {ip : IpAddr}
    (ha : g.acceptsForTenant tenantId agentId ip = true) (hx : g.tenant = some x) : tenantId = x := by
  unfold Registration.acceptsForTenant at ha
  split_ifs at ha with hten
  rw [hx] at hten
  have hxt : x = tenantId := by simpa using hten
  exact hxt.symm

/-- The connection `c` handles a frame. -/
theorem known_frame {f : Frame} {v : Bool} {now : UInt64} {b : Badge}
    (hr : run (step allowLegacy) init ls = some s) (h : Accounted allowLegacy ls s)
    (hs : step allowLegacy s (.frame c f v now) = some s') (hb : badge s' c = some b) :
    b.Accounted allowLegacy (ls ++ [.frame c f v now]) c := by
  obtain ⟨cn, hc, hh, hcases⟩ := frame_cases hs
  have hold := h.known c _ (badge_of_lookup hc)
  rw [hh] at hold
  have hip : socketIp c (ls ++ [.frame c f v now]) = socketIp c ls := by
    rw [socketIp_concat]
    exact Option.or_none
  have hlast : lastFrame c (ls ++ [.frame c f v now]) = some (f, v) := by
    rw [lastFrame_concat]
    simp [frameOf]
  have hfirst := firstTenant_concat (c := c) (l := .frame c f v now) hr
  -- without an accepted registration the badge stays, and no registration is under way
  have hkeep : accepted allowLegacy c s (.frame c f v now) = none →
      b = ⟨cn.peerIp, cn.registration.tenant, none⟩ →
      b.Accounted allowLegacy (ls ++ [.frame c f v now]) c := by
    rintro hacc rfl
    rw [hacc, Option.map_none, Option.or_none] at hfirst
    refine ⟨by rw [hip]; exact hold.ip, ?_, fun r sid hp => (by cases hp), ?_⟩
    · rw [hfirst]
      exact hold.tenant
    · rw [hfirst]
      exact hold.none
  rcases hcases with ⟨r, hasks, hacc, rfl⟩ | ⟨hacc, -, -, htask⟩ | ⟨agentId, inflight, tenant, sid, e, hf, -,
    -, -, -, rfl⟩
  · rw [badge_setConn, if_pos rfl] at hb
    cases hb
    rw [hacc, Option.map_some] at hfirst
    have ha : cn.registration.acceptsForTenant r.tenantId r.agentId cn.peerIp = true := by
      simp only [accepted, if_true, hc, Option.bind_some, Option.filter_eq_some_iff] at hacc
      exact hacc.2
    have hf' : firstTenant allowLegacy c (ls ++ [.frame c f v now]) = some r.tenantId := by
      rw [hfirst]
      cases ht : cn.registration.tenant with
      | none => rw [hold.none ht rfl, Option.none_or]
      | some x => rw [hold.tenant x ht, tenantId_of_accepts ha ht, Option.some_or]
    refine ⟨by rw [hip]; exact hold.ip, fun x hx => ?_, fun r' sid hp => ?_, fun _ hp => (by cases hp)⟩
    · rw [hf', tenantId_of_accepts ha hx]
    · cases hp
      exact ⟨hf', f, v, hlast, hasks⟩
  · refine hkeep hacc ?_
    rcases htask c with ht | ⟨-, ht⟩
    · have hb' : badge s' c = badge s c := by
        unfold badge
        rw [ht]
      rw [hb', badge_of_lookup hc, hh] at hb
      exact (Option.some.inj hb).symm
    · unfold badge at hb
      rw [ht] at hb
      exact (Option.some.inj hb).symm
  · refine hkeep ?_ ?_
    · subst hf
      simp [accepted, asks, hc]
    · have hb' : badge s c = some b := hb
      rw [badge_of_lookup hc, hh] at hb'
      exact (Option.some.inj hb').symm

theorem known_note {b : Badge} (hr : run (step allowLegacy) init ls = some s)
    (h : Accounted allowLegacy ls s) (hs : step allowLegacy s (.note c) = some s')
    (hb : badge s' c = some b) : b.Accounted allowLegacy (ls ++ [.note c]) c := by
  obtain ⟨cn, hc, hs⟩ := withConn_eq_some.mp hs
  split at hs
  case h_2 => cases hs
  next r sid hh =>
  cases hs
  rw [badge_setConn, if_pos rfl] at hb
  cases hb
  have hold := (h.known c _ (badge_of_lookup hc)).concat (l := .note c) hr (by simp)
  have hf := (hold.pending r sid (by rw [hh]; rfl)).1
  refine ⟨hold.ip, fun x hx => ?_, fun r' sid' hp => (by cases hp), fun ht => (by cases ht)⟩
  have hx' : cn.registration.tenant.getD r.tenantId = x := Option.some.inj hx
  cases ht : cn.registration.tenant with
  | none =>
    rw [ht] at hx'
    rw [hf]
    exact congrArg some hx'
  | some y =>
    rw [ht] at hx'
    rw [hold.tenant y ht]
    exact congrArg some hx'

theorem known_connect {ip : IpAddr} {b : Badge} (hr : run (step allowLegacy) init ls = some s)
    (h : Accounted allowLegacy ls s) (hs : step allowLegacy s (.connect c ip) = some s')
    (hb : badge s' c = some b) : b.Accounted allowLegacy (ls ++ [.connect c ip]) c := by
  simp only [step] at hs
  split at hs
  case h_2 => cases hs
  next hc =>
  cases hs
  rw [badge_setConn, if_pos rfl] at hb
  cases hb
  have hnone : badge s c = none := by simp [badge, State.task, hc]
  obtain ⟨hf, hi⟩ := h.unknown c hnone
  refine ⟨?_, fun x hx => (by cases hx), fun r' sid' hp => (by cases hp), fun _ _ => ?_⟩
  · rw [socketIp_concat, hi]
    simp [connectIp]
  · rw [firstTenant_concat hr, hf]
    rfl

theorem badge_ne_none (hs : step allowLegacy s l = some s') (hl : changesBadge c l = true) :
    badge s' c ≠ none := by
  cases l with
  | connect c' ip =>
    have hc : c' = c := by simpa [changesBadge] using hl
    subst hc
    simp only [step] at hs
    split at hs
    · cases hs
      rw [badge_setConn, if_pos rfl]
      simp
    · cases hs
  | frame c' f v now =>
    have hc : c' = c := by simpa [changesBadge] using hl
    subst hc
    obtain ⟨cn, hc, hh, ⟨r, -, -, rfl⟩ | ⟨-, -, -, htask⟩ | ⟨_, _, _, _, _, -, -, -, -, -, rfl⟩⟩ := frame_cases hs
    · rw [badge_setConn, if_pos rfl]
      simp
    · unfold badge
      rcases htask c' with ht | ⟨-, ht⟩
      · rw [ht, task_of_lookup hc]
        simp
      · rw [ht]
        simp
    · have hb := badge_of_lookup hc
      show badge s c' ≠ none
      rw [hb]
      simp
  | note c' =>
    have hc : c' = c := by simpa [changesBadge] using hl
    subst hc
    obtain ⟨cn, hc, hs⟩ := withConn_eq_some.mp hs
    split at hs
    · cases hs
      rw [badge_setConn, if_pos rfl]
      simp
    · cases hs
  | _ => cases hl

theorem connectIp_eq_none (hl : changesBadge c l = false) : connectIp c l = none := by
  cases l with
  | connect c' ip =>
    have hc : c' ≠ c := by simpa [changesBadge] using hl
    simp [connectIp, hc]
  | _ => rfl

theorem accounted_step (hr : run (step allowLegacy) init ls = some s) (h : Accounted allowLegacy ls s)
    (hs : step allowLegacy s l = some s') : Accounted allowLegacy (ls ++ [l]) s' := by
  have hnf : ∀ {c}, changesBadge c l = false → ∀ f v now, l ≠ .frame c f v now := by
    rintro c hl f v now rfl
    simp [changesBadge] at hl
  refine ⟨fun c hb => ?_, fun c b hb => ?_, fun k e he => ?_⟩
  · have hl : changesBadge c l = false := by
      by_contra hl
      exact badge_ne_none hs (by simpa using hl) hb
    rw [badge_eq_of_step hs hl] at hb
    obtain ⟨hf, hi⟩ := h.unknown c hb
    refine ⟨?_, ?_⟩
    · rw [firstTenant_concat hr, hf, accepted_eq_none (hnf hl)]
      rfl
    · rw [socketIp_concat, hi, connectIp_eq_none hl]
      rfl
  · by_cases hl : changesBadge c l = false
    · rw [badge_eq_of_step hs hl] at hb
      exact (h.known c b hb).concat hr (hnf hl)
    · cases l with
      | connect c' ip =>
        have hc : c' = c := by simpa [changesBadge] using hl
        subst hc
        exact known_connect hr h hs hb
      | frame c' f v now =>
        have hc : c' = c := by simpa [changesBadge] using hl
        subst hc
        exact known_frame hr h hs hb
      | note c' =>
        have hc : c' = c := by simpa [changesBadge] using hl
        subst hc
        exact known_note hr h hs hb
      | _ => exact absurd rfl hl
  · by_cases hk : s'.agents.lookup k = s.agents.lookup k
    · rw [hk] at he
      exact (h.table k e he).concat
    · rcases lookup_change hs hk with ⟨c, now, cn, r, sid, e', rfl, hc, hh, -, he', hec, hes, -⟩ |
        ⟨_, _, _, _, _, _, _, _, hn⟩ | ⟨_, hn⟩
      · rw [he'] at he
        cases he
        subst hec hes
        exact ⟨ls, now, [], s, cn, r, rfl, hr, hc, hh⟩
      · rw [hn] at he
        cases he
      · rw [hn] at he
        cases he

/-- **The whole run accounts for its end.** -/
theorem accounted_run (hr : run (step allowLegacy) init ls = some s) : Accounted allowLegacy ls s :=
  run_history (H := Accounted allowLegacy) (C := fun _ _ => True) accounted_init
    (fun _ _ _ _ hr h _ hs => accounted_step hr h hs) ls s (allSteps_true ls init) hr

end badges

/-! ### Authority -/

section authority

variable {allowLegacy : Bool} {ls : List Label} {l : Label} {s s' : State} {c : ℕ}

/-- The node is of the connection's first accepted tenant, and at the connection's own address. -/
def Within (allowLegacy : Bool) (ls : List Label) (c : ℕ) (k : AgentKey) : Prop :=
  firstTenant allowLegacy c ls = some k.tenantId ∧ (socketIp c ls).map normalizeIp = some k.peerIp

theorem insertLocked_spec (s : State) (c : ℕ) (cn : Conn) (r : Register) (sid : ℕ) (now : UInt64) :
    (insertLocked s c cn r sid now).mem.health = Function.update s.mem.health sid (.new now) ∧
      ∃ e, (insertLocked s c cn r sid now).agents.lookup (r.key cn.peerIp) = some e ∧ e.conn = c ∧
        e.stableId = sid := by
  have he : ∀ e : Entry, (s.agents.insert (r.key cn.peerIp) e).lookup (r.key cn.peerIp) = some e :=
    fun e => by rw [lookup_insert, if_pos rfl]
  unfold insertLocked
  dsimp only
  split
  · exact ⟨rfl, _, he _, rfl, rfl⟩
  · exact ⟨rfl, _, he _, rfl, rfl⟩

theorem health_of_conn_step (hs : step allowLegacy s l = some s') (hc : conn l = some c) :
    s'.mem.health = s.mem.health ∨ (∃ f v now, l = .frame c f v now) ∨
      ∃ now cn r sid, l = .insert c now ∧ s.conns.lookup c = some cn ∧ cn.handler = .numbered r sid ∧
        s' = insertLocked s c cn r sid now := by
  cases l with
  | connect c' ip =>
    simp only [step] at hs
    split at hs
    · cases hs
      exact Or.inl rfl
    · cases hs
  | frame c' f v now =>
    cases hc
    exact Or.inr (Or.inl ⟨f, v, now, rfl⟩)
  | insert c' now =>
    cases hc
    obtain ⟨cn, hcn, hs⟩ := withConn_eq_some.mp hs
    split at hs
    · next r sid hh =>
      cases hs
      exact Or.inr (Or.inr ⟨now, cn, r, sid, rfl, hcn, hh, rfl⟩)
    · cases hs
  | loadInflight c' | note c' | hangUp c' =>
    obtain ⟨cn, -, hs⟩ := withConn_eq_some.mp hs
    split at hs
    · cases hs
      exact Or.inl rfl
    · cases hs
  | closeOld c' =>
    obtain ⟨cn, -, hs⟩ := withConn_eq_some.mp hs
    split at hs
    · dsimp only at hs
      split_ifs at hs
      · cases hs
        exact Or.inl rfl
      · cases hs
        exact Or.inl rfl
    · cases hs
  | dropNext c' =>
    obtain ⟨cn, -, hs⟩ := withConn_eq_some.mp hs
    split at hs
    · cases hs
      exact Or.inl rfl
    · cases hs
      exact Or.inl rfl
    · cases hs
  | _ => cases hc

/-- The registration under way and the noted nodes are within the connection's authority. -/
theorem within_pending {cn : Conn} {r : Register} {sid : ℕ}
    (hr : run (step allowLegacy) init ls = some s) (hc : s.conns.lookup c = some cn)
    (hp : pending cn.handler = some (r, sid)) : Within allowLegacy ls c (r.key cn.peerIp) := by
  have hb := (accounted_run hr).known c _ (badge_of_lookup hc)
  have g := (owned_reaches ⟨ls, hr⟩).guarded c _ (task_of_lookup hc)
  have hip : normalizeIp cn.peerIp = cn.peerIp := g.ip
  refine ⟨(hb.pending r sid hp).1, ?_⟩
  show _ = some (normalizeIp cn.peerIp)
  rw [hip]
  exact hb.ip

theorem within_noted {cn : Conn} {n : Noted} (hr : run (step allowLegacy) init ls = some s)
    (hc : s.conns.lookup c = some cn) (hn : n ∈ cn.registration.agent) :
    Within allowLegacy ls c n.key := by
  have hb := (accounted_run hr).known c _ (badge_of_lookup hc)
  have g := (owned_reaches ⟨ls, hr⟩).guarded c _ (task_of_lookup hc)
  have hip : normalizeIp cn.peerIp = cn.peerIp := g.ip
  refine ⟨hb.tenant n.tenantId (g.notes.tenant n hn), ?_⟩
  show _ = some (normalizeIp n.peerIp)
  rw [g.notes.peerIp n hn, hip]
  exact hb.ip

/-- What the connection changes in the table is within its authority. -/
theorem table_within (hr : run (step allowLegacy) init ls = some s)
    (hs : step allowLegacy s l = some s') (hc : conn l = some c) {k : AgentKey}
    (hk : s'.agents.lookup k ≠ s.agents.lookup k) : Within allowLegacy ls c k := by
  rcases lookup_change hs hk with ⟨c', now, cn, r, sid, e, rfl, hcn, hh, rfl, -⟩ |
    ⟨c', cn, n, rest, rfl, hcn, hh, rfl, -⟩ | ⟨⟨q, rfl⟩, -⟩
  · cases hc
    exact within_pending hr hcn (by rw [hh]; rfl)
  · cases hc
    have g := (owned_reaches ⟨ls, hr⟩).guarded c _ (task_of_lookup hcn)
    exact within_noted hr hcn ((g.suffix _ hh).subset (by simp))
  · cases hc

theorem refresh_own (hr : run (step allowLegacy) init ls = some s)
    (hs : step allowLegacy s l = some s') (hc : conn l = some c) {sid : ℕ}
    (hsid : s'.mem.health sid ≠ s.mem.health sid) :
    ∃ k e, s'.agents.lookup k = some e ∧ e.stableId = sid ∧ e.conn = c ∧
      RegisteredOver allowLegacy c sid (ls ++ [l]) ∧ Within allowLegacy ls c k := by
  rcases health_of_conn_step hs hc with h | ⟨f, v, now, rfl⟩ | ⟨now, cn, r, sid', rfl, hcn, hh, rfl⟩
  · rw [h] at hsid
    exact absurd rfl hsid
  · obtain ⟨cn, hcn, hh, ⟨r, -, -, rfl⟩ | ⟨-, -, hm, -⟩ | ⟨agentId, inflight, tenant, sid', e, -, htenant, hown, he, hes,
      rfl⟩⟩ := frame_cases hs
    · exact absurd rfl hsid
    · rw [hm] at hsid
      exact absurd rfl hsid
    · by_cases hne : sid = sid'
      · subst hne
        have ho := owned_reaches ⟨ls, hr⟩
        have g := ho.guarded c _ (task_of_lookup hcn)
        obtain ⟨n, hn, hns⟩ := Option.map_eq_some_iff.mp hown
        have hmem := List.mem_of_find?_eq_some hn
        have hnode := List.find?_some hn
        have hkey : n.key = .newInTenant tenant agentId cn.peerIp :=
          (isNode_iff (r := ⟨tenant, agentId, [], 0⟩) g.ip (g.notes.peerIp n hmem)).mp hnode
        obtain ⟨t, ht, -, hheld⟩ := ho.table _ e he
        have hheld' : (sid, n.key) ∈ held ⟨cn.peerIp, cn.handler, cn.registration⟩ := by
          rw [hh]
          exact mem_pairs.mpr ⟨n, hmem, hns, rfl⟩
        rw [hes] at hheld
        obtain ⟨hec, -⟩ := ho.unique _ _ _ _ _ _ _ ht (task_of_lookup hcn) hheld hheld'
        have hreg := (accounted_run hr).table _ e he
        rw [hec, hes] at hreg
        exact ⟨_, e, he, hes, hec, hreg.concat, hkey ▸ within_noted hr hcn hmem⟩
      · refine absurd ?_ hsid
        exact Function.update_of_ne hne _ _
  · obtain ⟨hm, e, he, hec, hes⟩ := insertLocked_spec s c cn r sid' now
    by_cases hne : sid = sid'
    · subst hne
      exact ⟨_, e, he, hes, hec, ⟨ls, now, [], s, cn, r, rfl, hr, hcn, hh⟩,
        within_pending hr hcn (by rw [hh]; rfl)⟩
    · rw [hm] at hsid
      refine absurd ?_ hsid
      exact Function.update_of_ne hne _ _

theorem insert_asked (hr : run (step allowLegacy) init ls = some s)
    (hs : step allowLegacy s l = some s') (hc : conn l = some c) {k : AgentKey} {e : Entry}
    (he : s'.agents.lookup k = some e) (hne : s.agents.lookup k ≠ some e) :
    ∃ f v, lastFrame c ls = some (f, v) ∧
      asks allowLegacy v f = some ⟨e.tenantId, e.agentId, e.models, e.maxConcurrency⟩ := by
  have hk : s'.agents.lookup k ≠ s.agents.lookup k := by
    rw [he]
    exact fun h => hne h.symm
  rcases lookup_change hs hk with ⟨c', now, cn, r, sid, e', rfl, hcn, hh, -, he', -, -, hre⟩ |
    ⟨_, _, _, _, _, _, _, _, hn⟩ | ⟨_, hn⟩
  · cases hc
    rw [he] at he'
    cases he'
    have hb := (accounted_run hr).known c _ (badge_of_lookup hcn)
    obtain ⟨f, v, hl, ha⟩ := (hb.pending r sid (by rw [hh]; rfl)).2
    exact ⟨f, v, hl, by rw [ha, hre]⟩
  · rw [hn] at he
    cases he
  · rw [hn] at he
    cases he

/-- **Authority of an agent connection.** Whatever the other connections and requests do: a step of the
connection `c` changes only entries of the tenant of its first accepted registration, at its own socket
address; a health record it touches is that of an entry registered over it; and what it registers was asked
for by its last frame, either token-less, if legacy registration is allowed, for the default tenant, or with
a verified token of the tenant. -/
theorem connection_authority (hr : run (step allowLegacy) init ls = some s)
    (hs : step allowLegacy s l = some s') (hc : conn l = some c) :
    (∀ k, s'.agents.lookup k ≠ s.agents.lookup k → Within allowLegacy ls c k) ∧
    (∀ sid, s'.mem.health sid ≠ s.mem.health sid → ∃ k e, s'.agents.lookup k = some e ∧
      e.stableId = sid ∧ e.conn = c ∧ RegisteredOver allowLegacy c sid (ls ++ [l]) ∧
      Within allowLegacy ls c k) ∧
    (∀ k e, s'.agents.lookup k = some e → s.agents.lookup k ≠ some e →
      ∃ f v, lastFrame c ls = some (f, v) ∧
        ((∃ agentId models maxConcurrency version, f = .register agentId models maxConcurrency version ∧
            allowLegacy = true ∧ e.tenantId = defaultTenantId) ∨
          ∃ agentId token models maxConcurrency version,
            f = .registerWithTenant agentId e.tenantId token models maxConcurrency version ∧
              v = true)) := by
  refine ⟨fun k hk => table_within hr hs hc hk, fun sid hsid => refresh_own hr hs hc hsid,
    fun k e he hne => ?_⟩
  obtain ⟨f, v, hl, ha⟩ := insert_asked hr hs hc he hne
  exact ⟨f, v, hl, asks_eq_some ha⟩

end authority

/-- An agent of the tenant `acme` connects and registers. -/
def joins : List Label :=
  [.connect 0 (.v6 0 0xffff00000001), .frame 0 (.registerWithTenant "a" "acme" "token" ["m"] 1 "") true 0,
    .insert 0 0, .note 0]

/-- Its heartbeat refreshes its own entry. -/
theorem connection_authority_heartbeat : ∃ s s', run (step false) init joins = some s ∧
    step false s (.frame 0 (.heartbeat "a" 0) false 5) = some s' ∧
    s'.mem.health 1 ≠ s.mem.health 1 ∧ ∃ k e, s'.agents.lookup k = some e ∧ e.stableId = 1 ∧
      e.conn = 0 ∧ k.tenantId = "acme" ∧ k.peerIp = .v4 1 := by
  obtain ⟨s, hr, h⟩ := exists_run (step false) init joins
    (fun s => (step false s (.frame 0 (.heartbeat "a" 0) false 5)).any
      (fun s' => s'.mem.health 1 ≠ s.mem.health 1) = true) (by decide)
  obtain ⟨s', hs, hne⟩ := (Option.any_eq_true _ _).mp h
  have hne : s'.mem.health 1 ≠ s.mem.health 1 := of_decide_eq_true hne
  obtain ⟨k, e, he, hes, hec, -, hw⟩ := (connection_authority hr hs rfl).2.1 1 hne
  have hf : firstTenant false 0 joins = some "acme" := by decide
  have hi : (socketIp 0 joins).map normalizeIp = some (.v4 1) := by decide
  obtain ⟨hw1, hw2⟩ := hw
  rw [hf] at hw1
  rw [hi] at hw2
  exact ⟨s, s', hr, hs, hne, k, e, he, hes, hec, (Option.some.inj hw1).symm, (Option.some.inj hw2).symm⟩

end HomeLlmGateway.Registry.Authority
