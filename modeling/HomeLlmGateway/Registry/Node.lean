import HomeLlmGateway.Lib.Assoc

/-! # Nodes of the registry

A node is a tenant, an agent id and a source address (`gateway/src/registry/keys.rs`), and the registry
keeps one `Entry` for it (`gateway/src/registry/entry.rs`). An entry is cloned out of the table to every
request that uses it. What a clone shares with the table lies behind an `Arc`: the in-flight counter and
the health record. Here these live in a memory (`Mem`), and an entry holds the address of its counter;
its health record is found under its `stable_id`, since every registration makes a new one. The counter
has an address of its own because a takeover passes it on. -/

namespace HomeLlmGateway.Registry.Node

/-! ### Identity -/

/-- `IpAddr`; an IPv6 address by its two halves. -/
inductive IpAddr where
  | v4 (addr : UInt32)
  | v6 (hi lo : UInt64)
  deriving DecidableEq

/-- `normalize_ip`: an IPv4-mapped IPv6 address is the IPv4 address. -/
def normalizeIp : IpAddr → IpAddr
  | .v4 addr => .v4 addr
  | .v6 hi lo => if hi = 0 ∧ lo >>> 32 = 0xffff then .v4 lo.toUInt32 else .v6 hi lo

theorem normalizeIp_idem (ip : IpAddr) : normalizeIp (normalizeIp ip) = normalizeIp ip := by
  cases ip with
  | v4 addr => rfl
  | v6 hi lo =>
    by_cases h : hi = 0 ∧ lo >>> 32 = 0xffff
    · simp [normalizeIp, h]
    · simp [normalizeIp, h]

/-- `AgentKey`. -/
structure AgentKey where
  tenantId : String
  agentId : String
  peerIp : IpAddr
  deriving DecidableEq

/-- `AgentKey::new_in_tenant`. -/
def AgentKey.newInTenant (tenantId agentId : String) (peerIp : IpAddr) : AgentKey :=
  ⟨tenantId, agentId, normalizeIp peerIp⟩

/-! ### Entries -/

/-- `Entry`, without its health record. -/
structure Entry where
  /-- the connection its handle points to -/
  conn : ℕ
  stableId : ℕ
  agentId : String
  tenantId : String
  models : List String
  maxConcurrency : UInt32
  /-- the address of the in-flight counter -/
  inflight : ℕ
  deriving DecidableEq

/-- `NEVER`. -/
def never : UInt64 := 0xffffffffffffffff

/-- The health record of an entry: times in milliseconds, consecutive failures by cause. -/
structure Health where
  lastSeenMillis : UInt64
  lastHeartbeatMillis : UInt64
  openTimeouts : UInt32
  headTimeouts : UInt32
  tunnelWriteFailures : UInt32
  lastHeadOk : UInt64
  deriving DecidableEq

/-- The health record of a registration at time `now`: seen, but neither a heartbeat nor a response head
yet. -/
def Health.new (now : UInt64) : Health := ⟨now, never, 0, 0, 0, never⟩

/-- What the `Arc`s of the entries point to. -/
structure Mem where
  inflight : ℕ → UInt32
  health : ℕ → Health

/-! ### Judging a failure -/

/-- `since_millis`, a saturating subtraction. -/
def sinceMillis (lastSeenMillis nowMillis : UInt64) : UInt64 :=
  if lastSeenMillis ≤ nowMillis then nowMillis - lastSeenMillis else 0

/-- `is_fresh`. -/
def isFresh (lastSeenMillis nowMillis staleAfter : UInt64) : Bool :=
  sinceMillis lastSeenMillis nowMillis < staleAfter

/-- `HeadSilence`, in milliseconds. -/
structure HeadSilence where
  window : UInt64
  peerAliveWindow : UInt64
  stuckAfter : UInt64
  deriving DecidableEq

/-- `EvictCause`. -/
inductive EvictCause where
  | openTimeout
  | headTimeout
  | tunnelWriteFailed
  deriving DecidableEq

/-- `last_head_ago`. -/
def lastHeadAgo (h : Health) (now : UInt64) : Option UInt64 :=
  if h.lastHeadOk = never then none else some (sinceMillis h.lastHeadOk now)

/-- `peer_alive`. -/
def peerAlive (h : Health) (now window : UInt64) : Bool :=
  h.lastHeartbeatMillis != never && isFresh h.lastHeartbeatMillis now window

/-- `head_timeout_is_fatal`. -/
def headTimeoutIsFatal (h : Health) (now : UInt64) (ctx : HeadSilence) : Bool :=
  match lastHeadAgo h now with
  | none => true
  | some silence =>
    if silence ≤ ctx.window then false
    else !(peerAlive h now ctx.peerAliveWindow && silence ≤ ctx.stuckAfter)

/-- `open_timeout_is_fatal`, for an entry with `inflight` requests on it. -/
def openTimeoutIsFatal (e : Entry) (inflight streamCeiling : UInt32) : Bool :=
  let ceiling := max streamCeiling 1
  let effective := if e.maxConcurrency = 0 then ceiling else min e.maxConcurrency ceiling
  inflight < effective

/-- One more failure of a cause: the record and the new count. -/
def Health.strike (h : Health) : EvictCause → Health × UInt32
  | .openTimeout => ({ h with openTimeouts := h.openTimeouts + 1 }, h.openTimeouts + 1)
  | .headTimeout => ({ h with headTimeouts := h.headTimeouts + 1 }, h.headTimeouts + 1)
  | .tunnelWriteFailed =>
    ({ h with tunnelWriteFailures := h.tunnelWriteFailures + 1 }, h.tunnelWriteFailures + 1)

/-- `TUNNEL_TIMEOUTS_BEFORE_EVICT`. -/
def tunnelTimeoutsBeforeEvict : UInt32 := 3

/-- A response head at time `now` (`note_tunnel_op_ok`). -/
def Health.headOk (h : Health) (now : UInt64) : Health :=
  { h with openTimeouts := 0, headTimeouts := 0, tunnelWriteFailures := 0, lastHeadOk := now }

/-- A heartbeat at time `now`. -/
def Health.heartbeat (h : Health) (now : UInt64) : Health :=
  { h with lastSeenMillis := now, lastHeartbeatMillis := now }

end HomeLlmGateway.Registry.Node
