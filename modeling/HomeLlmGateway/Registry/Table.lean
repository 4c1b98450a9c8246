import HomeLlmGateway.Registry.Node

/-! # The registry table

The table from nodes to entries and what is done to it under its lock (`gateway/src/registry/table.rs`,
`gateway/src/registry/eviction.rs`), and the `Registration` by which a connection remembers the nodes it
registered. Each function here is one lock section; what the code does between lock sections (reading a
counter, closing a connection, noting a registration) is a step of its own in `Registry.System`. -/

namespace HomeLlmGateway.Registry.Table

open HomeLlmGateway.Lib.Assoc HomeLlmGateway.Registry.Node

/-- `(agent_id, peer_ip) → Entry`, per tenant. -/
abbrev Agents := HashMap AgentKey Entry

/-! ### Registering -/

/-- What a frame asks to register, with the tenant it may register for. -/
structure Register where
  tenantId : String
  agentId : String
  models : List String
  maxConcurrency : UInt32
  deriving DecidableEq

/-- The node of a registration that comes from `peerIp`. -/
def Register.key (r : Register) (peerIp : IpAddr) : AgentKey :=
  .newInTenant r.tenantId r.agentId peerIp

/-- What `register_with_grace_in_tenant` takes of an entry it supersedes. -/
structure Superseded where
  conn : ℕ
  inflight : ℕ
  agentId : String
  deriving DecidableEq

/-- The entry that the lock section finds under the key. -/
def superseded (t : Agents) (key : AgentKey) : Option Superseded :=
  (t.lookup key).map fun old => ⟨old.conn, old.inflight, old.agentId⟩

/-- The new entry. It takes over the counter of the superseded one; a first registration gets the new
counter at address `fresh`. -/
def newEntry (t : Agents) (r : Register) (peerIp : IpAddr) (conn stableId fresh : ℕ) : Entry where
  conn := conn
  stableId := stableId
  agentId := r.agentId
  tenantId := r.tenantId
  models := r.models
  maxConcurrency := r.maxConcurrency
  inflight := match superseded t (r.key peerIp) with
    | some old => old.inflight
    | none => fresh

/-! ### Removing and refreshing -/

/-- `remove_if_same_for_tenant`. -/
def removeIfSame (t : Agents) (key : AgentKey) (stableId : ℕ) : Agents :=
  match t.lookup key with
  | some e => if e.stableId = stableId then t.erase key else t
  | none => t

/-- `heartbeat_if_same_for_tenant`: the health record to refresh. -/
def heartbeatIfSame (t : Agents) (key : AgentKey) (stableId : ℕ) : Option ℕ :=
  match t.lookup key with
  | some e => if e.stableId = stableId then some e.stableId else none
  | none => none

/-- The entry with a given `stable_id`, and its node. -/
def findStable (t : Agents) (stableId : ℕ) : Option (AgentKey × Entry) :=
  (t.entries.find? fun p => p.2.stableId = stableId).map fun p => (p.1, p.2)

/-- What the lock section of `evict` comes to. -/
inductive Evicted where
  | notFound
  | belowThreshold (consecutive : UInt32)
  /-- removed, with the in-flight count read -/
  | removed (key : AgentKey) (entry : Entry) (inflight : UInt32)
  deriving DecidableEq

/-- The lock section of `evict`: count the failure, and take the entry out at the third. -/
def evictLocked (t : Agents) (m : Mem) (stableId : ℕ) (cause : EvictCause) : Evicted × Agents × Mem :=
  match findStable t stableId with
  | none => (.notFound, t, m)
  | some (key, e) =>
    let (h, n) := (m.health e.stableId).strike cause
    let m := { m with health := Function.update m.health e.stableId h }
    if n < tunnelTimeoutsBeforeEvict then (.belowThreshold n, t, m)
    else (.removed key e (m.inflight e.inflight), t.erase key, m)

/-! ### The registrations of a connection -/

/-- A node that a connection has registered, with the `stable_id` it got. -/
structure Noted where
  tenantId : String
  agentId : String
  peerIp : IpAddr
  stableId : ℕ
  deriving DecidableEq

/-- The key under which the noted node is registered. -/
def Noted.key (n : Noted) : AgentKey := .newInTenant n.tenantId n.agentId n.peerIp

/-- `Registration`. -/
structure Registration where
  tenant : Option String
  agent : List Noted
  deriving DecidableEq

/-- `MAX_REGISTRATIONS_PER_CONNECTION`. -/
def maxRegistrationsPerConnection : ℕ := 4

namespace Registration

/-- `Registration::new`. -/
def new : Registration := ⟨none, []⟩

/-- Whether a noted node is the given one. -/
def isNode (tenantId agentId : String) (ip : IpAddr) (n : Noted) : Bool :=
  n.tenantId == tenantId && n.agentId == agentId && n.peerIp == ip

/-- `accepts_for_tenant`. -/
def acceptsForTenant (g : Registration) (tenantId agentId : String) (peerIp : IpAddr) : Bool :=
  if g.tenant.any (· != tenantId) then false
  else g.agent.any (isNode tenantId agentId (normalizeIp peerIp)) ||
    g.agent.length < maxRegistrationsPerConnection

/-- Set the `stable_id` of the first node that is the given one. -/
def setStable (tenantId agentId : String) (ip : IpAddr) (stableId : ℕ) : List Noted → List Noted
  | [] => []
  | n :: rest =>
    if isNode tenantId agentId ip n then { n with stableId := stableId } :: rest
    else n :: setStable tenantId agentId ip stableId rest

/-- `note_for_tenant`. -/
def noteForTenant (g : Registration) (tenantId agentId : String) (peerIp : IpAddr) (stableId : ℕ) :
    Registration where
  tenant := some (g.tenant.getD tenantId)
  agent := if g.agent.any (isNode tenantId agentId (normalizeIp peerIp))
    then setStable tenantId agentId (normalizeIp peerIp) stableId g.agent
    else g.agent ++ [⟨tenantId, agentId, normalizeIp peerIp, stableId⟩]

/-- `owned_stable_id_for_tenant`. -/
def ownedStableIdForTenant (g : Registration) (tenantId agentId : String) (peerIp : IpAddr) : Option ℕ :=
  (g.agent.find? (isNode tenantId agentId (normalizeIp peerIp))).map (·.stableId)

end Registration

/-! ### What the lock sections do to the table -/

theorem lookup_removeIfSame (t : Agents) (key k : AgentKey) (stableId : ℕ) :
    (removeIfSame t key stableId).lookup k =
      if k = key ∧ (t.lookup key).any (·.stableId = stableId) then none else t.lookup k := by
  unfold removeIfSame
  cases he : t.lookup key with
  | none => simp
  | some e =>
    by_cases hs : e.stableId = stableId
    · simp only [hs, if_true, lookup_erase, Option.any_some, decide_true, and_true]
    · simp [hs]

theorem findStable_some {t : Agents} {stableId : ℕ} {key : AgentKey} {e : Entry}
    (h : findStable t stableId = some (key, e)) : t.lookup key = some e ∧ e.stableId = stableId := by
  simp only [findStable, Option.map_eq_some_iff] at h
  obtain ⟨⟨k, v⟩, hf, he⟩ := h
  cases he
  have hm := List.mem_of_find?_eq_some hf
  have hp := List.find?_some hf
  exact ⟨(mem_entries_iff _ _ _).mp hm, by simpa using hp⟩

/-- **The lock section of `evict`**: nothing, a failure counted, or the entry out. -/
theorem evictLocked_spec (t : Agents) (m : Mem) (stableId : ℕ) (cause : EvictCause) :
    (evictLocked t m stableId cause = (.notFound, t, m)) ∨
      (∃ n m', evictLocked t m stableId cause = (.belowThreshold n, t, m') ∧
        m'.inflight = m.inflight) ∨
      ∃ key e m', evictLocked t m stableId cause = (.removed key e (m.inflight e.inflight), t.erase key, m') ∧
        t.lookup key = some e ∧ e.stableId = stableId ∧ m'.inflight = m.inflight := by
  unfold evictLocked
  cases hf : findStable t stableId with
  | none => exact Or.inl rfl
  | some p =>
    obtain ⟨key, e⟩ := p
    obtain ⟨hl, hs⟩ := findStable_some hf
    dsimp only
    split_ifs
    · exact Or.inr (Or.inl ⟨_, _, rfl, rfl⟩)
    · exact Or.inr (Or.inr ⟨key, e, _, rfl, hl, hs, rfl⟩)

end HomeLlmGateway.Registry.Table
