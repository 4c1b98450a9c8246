import HomeLlmGateway.Gateway.Tenant
import HomeLlmGateway.Lib.Runs
import HomeLlmGateway.Proto.Frames
import HomeLlmGateway.Registry.Table

/-! # Agent connections, requests and the registry

The registry as its users share it: any number of agent connections, each with the task that handles its
control streams (`gateway/src/tunnel/`), any number of requests that hold a slot
(`gateway/src/registry/admission.rs`) and report failures (`gateway/src/registry/eviction.rs`), and the
tasks that close a connection later (`gateway/src/evict_close.rs`).

A step is one lock section, one atomic operation or one call on a connection handle, so a run is any
interleaving the code allows. What a task does between two awaits stays in order: a registration goes
through `numbered`, `inserted`, `closing` and `noting`, and a request that reports a failure cannot drop
its slot before the report is done. -/

namespace HomeLlmGateway.Registry.System

open HomeLlmGateway.Lib.Assoc HomeLlmGateway.Proto.Frames
open HomeLlmGateway.Gateway.Tenant (defaultTenantId)
open HomeLlmGateway.Registry.Node HomeLlmGateway.Registry.Table

/-! ### The parties -/

/-- Where the task of a connection stands. -/
inductive Handler where
  /-- in the accept loop, or waiting for a control frame -/
  | accepting
  /-- `register_with_grace_in_tenant` has its `stable_id` -/
  | numbered (r : Register) (stableId : ℕ)
  /-- the new entry is in the table in place of `old` -/
  | inserted (r : Register) (stableId : ℕ) (old : Superseded)
  /-- the counter of the superseded entry was read -/
  | closing (r : Register) (stableId : ℕ) (old : Superseded) (inflight : UInt32)
  /-- about to call `note_for_tenant` -/
  | noting (r : Register) (stableId : ℕ)
  /-- dropping its `Registration` -/
  | dropping (rest : List Noted)
  | ended
  deriving DecidableEq

/-- An agent connection. -/
structure Conn where
  /-- normalised once, when the task starts -/
  peerIp : IpAddr
  closed : Bool
  handler : Handler
  registration : Registration
  deriving DecidableEq

/-- Where a request stands that reports a failure of its tunnel. -/
inductive Report where
  /-- not reporting -/
  | none
  /-- judged fatal, `evict` comes -/
  | fatal (cause : EvictCause)
  /-- its report took `entry` out of the table; how many requests were on it -/
  | removed (entry : Entry) (inflight : UInt32)
  deriving DecidableEq

/-- A request with its `SlotGuard` and its clone of the entry. -/
structure Slot where
  entry : Entry
  report : Report
  deriving DecidableEq

/-- Who closes a connection. -/
inductive Closer where
  /-- the registration with this `stable_id` over this connection, which supersedes an entry -/
  | takeover (conn stableId : ℕ)
  /-- the report of this request -/
  | evict (request : ℕ)
  /-- the task of the connection itself, which refuses a frame -/
  | refusal
  deriving DecidableEq

/-- A task of `defer_close`. -/
structure DeferredClose where
  conn : ℕ
  inflight : ℕ
  agentId : String
  closer : Closer
  /-- it has read a counter of 0 -/
  drained : Bool
  deriving DecidableEq

/-- The closes so far. -/
structure CloseEvent where
  conn : ℕ
  closer : Closer
  /-- closed because the grace period of a deferred close is over -/
  afterGrace : Bool
  deriving DecidableEq

structure State where
  /-- `NEXT_CONN_ID`, without a bound: it has 64 bits, and a process does not register `2 ^ 64` times. -/
  nextConnId : ℕ
  /-- the next address for a counter -/
  nextCounter : ℕ
  agents : Agents
  mem : Mem
  conns : HashMap ℕ Conn
  slots : HashMap ℕ Slot
  deferred : List DeferredClose
  closes : List CloseEvent

/-- `Registry::default`, no connection and no request yet. -/
def init : State where
  nextConnId := 1
  nextCounter := 0
  agents := ∅
  mem := ⟨fun _ => 0, fun _ => .new 0⟩
  conns := ∅
  slots := ∅
  deferred := []
  closes := []

/-! ### Steps -/

/-- Put a connection back. -/
def State.setConn (s : State) (c : ℕ) (cn : Conn) : State := { s with conns := s.conns.insert c cn }

/-- Put a request back. -/
def State.setSlot (s : State) (q : ℕ) (sl : Slot) : State := { s with slots := s.slots.insert q sl }

/-- Write a counter. -/
def State.setInflight (s : State) (k : ℕ) (n : UInt32) : State :=
  { s with mem := { s.mem with inflight := Function.update s.mem.inflight k n } }

/-- `Handle::close`. -/
def State.close (s : State) (c : ℕ) (closer : Closer) (afterGrace : Bool) : State :=
  { s with
    conns := mapVal (fun c' cn => if c' = c then { cn with closed := true } else cn) s.conns
    closes := s.closes ++ [⟨c, closer, afterGrace⟩] }

/-- `register_agent`: refuse, or go on to the registry with a new `stable_id`. -/
def registerAgent (s : State) (c : ℕ) (cn : Conn) (r : Register) : State :=
  if cn.registration.acceptsForTenant r.tenantId r.agentId cn.peerIp then
    { s with nextConnId := s.nextConnId + 1 }.setConn c { cn with handler := .numbered r s.nextConnId }
  else s.close c .refusal false

/-- A refused registration ends the connection's task. -/
def refuse (s : State) (c : ℕ) (cn : Conn) : State :=
  (s.setConn c { cn with handler := .dropping cn.registration.agent }).close c .refusal false

/-- `handle_control_stream` on a frame. `verified` is what `verify_tenant` answers. -/
def onControlFrame (allowLegacy : Bool) (s : State) (c : ℕ) (cn : Conn) (verified : Bool)
    (now : UInt64) : Frame → State
  | .register agentId models maxConcurrency _ =>
    if allowLegacy then registerAgent s c cn ⟨defaultTenantId, agentId, models, maxConcurrency⟩
    else refuse s c cn
  | .registerWithTenant agentId tenantId _ models maxConcurrency _ =>
    if verified then registerAgent s c cn ⟨tenantId, agentId, models, maxConcurrency⟩
    else refuse s c cn
  | .heartbeat agentId _ =>
    match cn.registration.tenant with
    | none => s
    | some tenant =>
      match cn.registration.ownedStableIdForTenant tenant agentId cn.peerIp with
      | none => s
      | some stableId =>
        match heartbeatIfSame s.agents (.newInTenant tenant agentId cn.peerIp) stableId with
        | none => s
        | some sid => { s with mem := { s.mem with
            health := Function.update s.mem.health sid ((s.mem.health sid).heartbeat now) } }
  | _ => s

/-- The lock section of `register_with_grace_in_tenant`. -/
def insertLocked (s : State) (c : ℕ) (cn : Conn) (r : Register) (stableId : ℕ) (now : UInt64) : State :=
  let old := superseded s.agents (r.key cn.peerIp)
  let e := newEntry s.agents r cn.peerIp c stableId s.nextCounter
  let health := Function.update s.mem.health stableId (.new now)
  let s' : State := { s with agents := s.agents.insert (r.key cn.peerIp) e }
  match old with
  | some old => { s' with mem := { s.mem with health := health } }.setConn c
      { cn with handler := .inserted r stableId old }
  | none => { s' with
      nextCounter := s.nextCounter + 1
      mem := ⟨Function.update s.mem.inflight s.nextCounter 0, health⟩ }.setConn c
        { cn with handler := .noting r stableId }

/-- The compare-exchange of `try_acquire_excluding_for_tenant` on one candidate. -/
def canAcquire (m : Mem) (e : Entry) : Bool :=
  e.maxConcurrency == 0 || m.inflight e.inflight < e.maxConcurrency

/-- How a request's tunnel failed. -/
inductive Failure where
  | openTimeout (streamCeiling : UInt32)
  | openFailed
  | headTimeout (silence : HeadSilence)
  | writeFailed
  deriving DecidableEq

/-- The judgement of `report_open_timeout`, `report_open_failed`, `report_head_timeout` and
`report_write_failed`: the cause to count, if the failure is fatal. -/
def judge (m : Mem) (e : Entry) (now : UInt64) : Failure → Option EvictCause
  | .openTimeout ceiling =>
    if openTimeoutIsFatal e (m.inflight e.inflight) ceiling then some .openTimeout else none
  | .openFailed => some .openTimeout
  | .headTimeout silence =>
    if headTimeoutIsFatal (m.health e.stableId) now silence then some .headTimeout else none
  | .writeFailed => some .tunnelWriteFailed

/-- What happens next. -/
inductive Label where
  /-- a connection is accepted and its task starts -/
  | connect (c : ℕ) (ip : IpAddr)
  /-- the task handles a control frame -/
  | frame (c : ℕ) (f : Frame) (verified : Bool) (now : UInt64)
  /-- the lock section of a registration -/
  | insert (c : ℕ) (now : UInt64)
  /-- the registration reads the counter of the entry it superseded -/
  | loadInflight (c : ℕ)
  /-- it closes the superseded connection, or leaves that to a task -/
  | closeOld (c : ℕ)
  | note (c : ℕ)
  /-- the accept loop ends -/
  | hangUp (c : ℕ)
  /-- the next `remove_if_same_for_tenant` of `Registration::drop` -/
  | dropNext (c : ℕ)
  /-- a request takes a slot of the node `key` -/
  | acquire (request : ℕ) (key : AgentKey)
  /-- it drops its `SlotGuard` -/
  | release (request : ℕ)
  /-- it reports a failure: the judgement, the lock section of `evict`, the close -/
  | report (request : ℕ) (failure : Failure) (now : UInt64)
  | evict (request : ℕ)
  | evictClose (request : ℕ)
  /-- it has a response head (`note_tunnel_op_ok`) -/
  | headOk (request : ℕ) (now : UInt64)
  /-- a task of `defer_close` reads its counter -/
  | deferredLoad (i : ℕ)
  /-- it closes, after a counter of 0 -/
  | deferredClose (i : ℕ)
  /-- it closes, after the grace period -/
  | deferredGrace (i : ℕ)

/-- The request that a step is a step of. -/
def Label.request : Label → Option ℕ
  | .acquire q _ | .release q | .report q _ _ | .evict q | .evictClose q | .headOk q _ => some q
  | _ => none

/-- The steps that take the table's lock for writing. -/
def Label.writesTable : Label → Bool
  | .insert _ _ | .dropNext _ | .evict _ => true
  | _ => false

/-- The task of the connection `c` goes on by `f`. -/
def withConn (s : State) (c : ℕ) (f : Conn → Option State) : Option State := (s.conns.lookup c).bind f

/-- The request `q` goes on by `f`. -/
def withSlot (s : State) (q : ℕ) (f : Slot → Option State) : Option State := (s.slots.lookup q).bind f

/-- One step. -/
def step (allowLegacy : Bool) (s : State) : Label → Option State
  | .connect c ip =>
    match s.conns.lookup c with
    | none => some (s.setConn c ⟨normalizeIp ip, false, .accepting, .new⟩)
    | some _ => none
  | .frame c f verified now => withConn s c fun cn =>
    match cn.handler with
    | .accepting => some (onControlFrame allowLegacy s c cn verified now f)
    | _ => none
  | .insert c now => withConn s c fun cn =>
    match cn.handler with
    | .numbered r stableId => some (insertLocked s c cn r stableId now)
    | _ => none
  | .loadInflight c => withConn s c fun cn =>
    match cn.handler with
    | .inserted r stableId old =>
      some (s.setConn c { cn with handler := .closing r stableId old (s.mem.inflight old.inflight) })
    | _ => none
  | .closeOld c => withConn s c fun cn =>
    match cn.handler with
    | .closing r stableId old n =>
      let s' := s.setConn c { cn with handler := .noting r stableId }
      if n = 0 then some (s'.close old.conn (.takeover c stableId) false)
      else some { s' with deferred :=
        s.deferred ++ [⟨old.conn, old.inflight, old.agentId, .takeover c stableId, false⟩] }
    | _ => none
  | .note c => withConn s c fun cn =>
    match cn.handler with
    | .noting r stableId => some (s.setConn c { cn with
        handler := .accepting
        registration := cn.registration.noteForTenant r.tenantId r.agentId cn.peerIp stableId })
    | _ => none
  | .hangUp c => withConn s c fun cn =>
    match cn.handler with
    | .accepting => some (s.setConn c { cn with handler := .dropping cn.registration.agent })
    | _ => none
  | .dropNext c => withConn s c fun cn =>
    match cn.handler with
    | .dropping (n :: rest) =>
      some ({ s with agents := removeIfSame s.agents n.key n.stableId }.setConn c
        { cn with handler := .dropping rest })
    | .dropping [] => some (s.setConn c { cn with handler := .ended })
    | _ => none
  | .acquire q key =>
    match s.agents.lookup key, s.slots.lookup q with
    | some e, none =>
      if canAcquire s.mem e then
        some ((s.setInflight e.inflight (s.mem.inflight e.inflight + 1)).setSlot q ⟨e, .none⟩)
      else none
    | _, _ => none
  | .release q => withSlot s q fun sl =>
    match sl.report with
    | .none =>
      some { s.setInflight sl.entry.inflight (s.mem.inflight sl.entry.inflight - 1) with
        slots := s.slots.erase q }
    | _ => none
  | .report q failure now => withSlot s q fun sl =>
    match sl.report, judge s.mem sl.entry now failure with
    | .none, some cause => some (s.setSlot q { sl with report := .fatal cause })
    | .none, none => some s
    | _, _ => none
  | .evict q => withSlot s q fun sl =>
    match sl.report with
    | .fatal cause =>
      match evictLocked s.agents s.mem sl.entry.stableId cause with
      | (.removed _ e n, agents, mem) =>
        some ({ s with agents := agents, mem := mem }.setSlot q { sl with report := .removed e n })
      | (_, agents, mem) =>
        some ({ s with agents := agents, mem := mem }.setSlot q { sl with report := .none })
    | _ => none
  | .evictClose q => withSlot s q fun sl =>
    match sl.report with
    | .removed e n =>
      let s' := s.setSlot q { sl with report := .none }
      -- the reporting request itself holds one slot
      if n ≤ 1 then some (s'.close e.conn (.evict q) false)
      else some { s' with deferred := s.deferred ++ [⟨e.conn, e.inflight, e.agentId, .evict q, false⟩] }
    | _ => none
  | .headOk q now => withSlot s q fun sl =>
    match findStable s.agents sl.entry.stableId with
    | some (_, e) => some { s with mem := { s.mem with
        health := Function.update s.mem.health e.stableId ((s.mem.health e.stableId).headOk now) } }
    | none => some s
  | .deferredLoad i =>
    (s.deferred[i]?).map fun d =>
      if s.mem.inflight d.inflight = 0 then { s with deferred := s.deferred.set i { d with drained := true } }
      else s
  | .deferredClose i =>
    (s.deferred[i]?).bind fun d =>
      if d.drained then some ({ s with deferred := s.deferred.eraseIdx i }.close d.conn d.closer false)
      else none
  | .deferredGrace i =>
    (s.deferred[i]?).bind fun d =>
      if d.drained then none
      else some ({ s with deferred := s.deferred.eraseIdx i }.close d.conn d.closer true)

/-! ### Reading the state -/

/-- A connection without its `closed` flag: what its task works on. -/
structure Task where
  peerIp : IpAddr
  handler : Handler
  registration : Registration

/-- The task of a connection. -/
def State.task (s : State) (c : ℕ) : Option Task :=
  (s.conns.lookup c).map fun cn => ⟨cn.peerIp, cn.handler, cn.registration⟩

section reading

variable (s : State) (c c' : ℕ) (cn : Conn) (q : ℕ) (sl : Slot) (closer : Closer) (g : Bool)

theorem task_of_lookup {s : State} {c : ℕ} {cn : Conn} (hc : s.conns.lookup c = some cn) :
    s.task c = some ⟨cn.peerIp, cn.handler, cn.registration⟩ := by
  simp [State.task, hc]

theorem task_setConn : (s.setConn c cn).task c' =
    if c' = c then some ⟨cn.peerIp, cn.handler, cn.registration⟩ else s.task c' := by
  unfold State.task State.setConn
  rw [lookup_insert]
  split_ifs <;> rfl

@[simp] theorem task_close : (s.close c closer g).task c' = s.task c' := by
  unfold State.task State.close
  simp only [lookup_mapVal, Option.map_map]
  congr 1
  funext cn
  simp only [Function.comp_apply]
  split_ifs <;> rfl

theorem task_setConn_close (x : ℕ) : ((s.setConn c cn).close x closer g).task c' =
    if c' = c then some ⟨cn.peerIp, cn.handler, cn.registration⟩ else s.task c' := by
  rw [task_close, task_setConn]

@[simp] theorem task_setSlot : (s.setSlot q sl).task c = s.task c := rfl
@[simp] theorem agents_setConn : (s.setConn c cn).agents = s.agents := rfl
@[simp] theorem agents_setSlot : (s.setSlot q sl).agents = s.agents := rfl
@[simp] theorem agents_close : (s.close c closer g).agents = s.agents := rfl
@[simp] theorem slots_setConn : (s.setConn c cn).slots = s.slots := rfl
@[simp] theorem slots_close : (s.close c closer g).slots = s.slots := rfl
@[simp] theorem slots_setSlot : (s.setSlot q sl).slots = s.slots.insert q sl := rfl
@[simp] theorem mem_setConn : (s.setConn c cn).mem = s.mem := rfl
@[simp] theorem mem_setSlot : (s.setSlot q sl).mem = s.mem := rfl
@[simp] theorem mem_close : (s.close c closer g).mem = s.mem := rfl
@[simp] theorem deferred_setConn : (s.setConn c cn).deferred = s.deferred := rfl
@[simp] theorem deferred_setSlot : (s.setSlot q sl).deferred = s.deferred := rfl
@[simp] theorem deferred_close : (s.close c closer g).deferred = s.deferred := rfl
@[simp] theorem nextConnId_setConn : (s.setConn c cn).nextConnId = s.nextConnId := rfl
@[simp] theorem nextConnId_setSlot : (s.setSlot q sl).nextConnId = s.nextConnId := rfl
@[simp] theorem nextConnId_close : (s.close c closer g).nextConnId = s.nextConnId := rfl
@[simp] theorem nextCounter_setConn : (s.setConn c cn).nextCounter = s.nextCounter := rfl
@[simp] theorem nextCounter_setSlot : (s.setSlot q sl).nextCounter = s.nextCounter := rfl
@[simp] theorem nextCounter_close : (s.close c closer g).nextCounter = s.nextCounter := rfl
@[simp] theorem closes_setConn : (s.setConn c cn).closes = s.closes := rfl
@[simp] theorem closes_setSlot : (s.setSlot q sl).closes = s.closes := rfl
@[simp] theorem closes_close : (s.close c closer g).closes = s.closes ++ [⟨c, closer, g⟩] := rfl

end reading

/-! ### What a step can do -/

/-- What a step can do. -/
inductive Move (s : State) : Label → State → Prop
  /-- nothing -/
  | nothing (l : Label) : Move s l s
  /-- only health records change -/
  | health (l : Label) (h : ℕ → Health) : Move s l { s with mem := { s.mem with health := h } }
  | connect (c : ℕ) (ip : IpAddr) (hc : s.conns.lookup c = none) :
      Move s (.connect c ip) (s.setConn c ⟨normalizeIp ip, false, .accepting, .new⟩)
  | number (c : ℕ) (f : Frame) (v : Bool) (now : UInt64) (cn : Conn) (r : Register)
      (hc : s.conns.lookup c = some cn) (hh : cn.handler = .accepting)
      (ha : cn.registration.acceptsForTenant r.tenantId r.agentId cn.peerIp = true) :
      Move s (.frame c f v now) ({ s with nextConnId := s.nextConnId + 1 }.setConn c
        { cn with handler := .numbered r s.nextConnId })
  | refuse (c : ℕ) (f : Frame) (v : Bool) (now : UInt64) (cn : Conn)
      (hc : s.conns.lookup c = some cn) (hh : cn.handler = .accepting) :
      Move s (.frame c f v now) (s.close c .refusal false)
  | refuseAndEnd (c : ℕ) (f : Frame) (v : Bool) (now : UInt64) (cn : Conn)
      (hc : s.conns.lookup c = some cn) (hh : cn.handler = .accepting) :
      Move s (.frame c f v now)
        ((s.setConn c { cn with handler := .dropping cn.registration.agent }).close c .refusal false)
  | insertOver (c : ℕ) (now : UInt64) (cn : Conn) (r : Register) (sid : ℕ) (old : Entry)
      (hc : s.conns.lookup c = some cn) (hh : cn.handler = .numbered r sid)
      (ho : s.agents.lookup (r.key cn.peerIp) = some old) :
      Move s (.insert c now) ({ s with
        agents := s.agents.insert (r.key cn.peerIp)
          ⟨c, sid, r.agentId, r.tenantId, r.models, r.maxConcurrency, old.inflight⟩
        mem := { s.mem with health := Function.update s.mem.health sid (.new now) } }.setConn c
          { cn with handler := .inserted r sid ⟨old.conn, old.inflight, old.agentId⟩ })
  | insertNew (c : ℕ) (now : UInt64) (cn : Conn) (r : Register) (sid : ℕ)
      (hc : s.conns.lookup c = some cn) (hh : cn.handler = .numbered r sid)
      (ho : s.agents.lookup (r.key cn.peerIp) = none) :
      Move s (.insert c now) ({ s with
        agents := s.agents.insert (r.key cn.peerIp)
          ⟨c, sid, r.agentId, r.tenantId, r.models, r.maxConcurrency, s.nextCounter⟩
        nextCounter := s.nextCounter + 1
        mem := ⟨Function.update s.mem.inflight s.nextCounter 0,
          Function.update s.mem.health sid (.new now)⟩ }.setConn c
            { cn with handler := .noting r sid })
  | load (c : ℕ) (cn : Conn) (r : Register) (sid : ℕ) (old : Superseded)
      (hc : s.conns.lookup c = some cn) (hh : cn.handler = .inserted r sid old) :
      Move s (.loadInflight c) (s.setConn c
        { cn with handler := .closing r sid old (s.mem.inflight old.inflight) })
  | closeNow (c : ℕ) (cn : Conn) (r : Register) (sid : ℕ) (old : Superseded)
      (hc : s.conns.lookup c = some cn) (hh : cn.handler = .closing r sid old 0) :
      Move s (.closeOld c)
        ((s.setConn c { cn with handler := .noting r sid }).close old.conn (.takeover c sid) false)
  | closeLater (c : ℕ) (cn : Conn) (r : Register) (sid : ℕ) (old : Superseded) (n : UInt32)
      (hc : s.conns.lookup c = some cn) (hh : cn.handler = .closing r sid old n) :
      Move s (.closeOld c) { s.setConn c { cn with handler := .noting r sid } with
        deferred := s.deferred ++ [⟨old.conn, old.inflight, old.agentId, .takeover c sid, false⟩] }
  | note (c : ℕ) (cn : Conn) (r : Register) (sid : ℕ)
      (hc : s.conns.lookup c = some cn) (hh : cn.handler = .noting r sid) :
      Move s (.note c) (s.setConn c { cn with
        handler := .accepting
        registration := cn.registration.noteForTenant r.tenantId r.agentId cn.peerIp sid })
  | hangUp (c : ℕ) (cn : Conn)
      (hc : s.conns.lookup c = some cn) (hh : cn.handler = .accepting) :
      Move s (.hangUp c) (s.setConn c { cn with handler := .dropping cn.registration.agent })
  | dropNext (c : ℕ) (cn : Conn) (n : Noted) (rest : List Noted)
      (hc : s.conns.lookup c = some cn) (hh : cn.handler = .dropping (n :: rest)) :
      Move s (.dropNext c) ({ s with agents := removeIfSame s.agents n.key n.stableId }.setConn c
        { cn with handler := .dropping rest })
  | dropEnd (c : ℕ) (cn : Conn)
      (hc : s.conns.lookup c = some cn) (hh : cn.handler = .dropping []) :
      Move s (.dropNext c) (s.setConn c { cn with handler := .ended })
  | acquire (q : ℕ) (key : AgentKey) (e : Entry) (he : s.agents.lookup key = some e)
      (hq : s.slots.lookup q = none) (ha : canAcquire s.mem e = true) :
      Move s (.acquire q key)
        ((s.setInflight e.inflight (s.mem.inflight e.inflight + 1)).setSlot q ⟨e, .none⟩)
  | release (q : ℕ) (sl : Slot) (hq : s.slots.lookup q = some sl) (hr : sl.report = .none) :
      Move s (.release q)
        { s.setInflight sl.entry.inflight (s.mem.inflight sl.entry.inflight - 1) with
          slots := s.slots.erase q }
  | fatal (q : ℕ) (failure : Failure) (now : UInt64) (sl : Slot) (cause : EvictCause)
      (hq : s.slots.lookup q = some sl) (hr : sl.report = .none) :
      Move s (.report q failure now) (s.setSlot q { sl with report := .fatal cause })
  | strike (q : ℕ) (sl : Slot) (cause : EvictCause) (m : Mem) (hq : s.slots.lookup q = some sl)
      (hr : sl.report = .fatal cause) (hm : m.inflight = s.mem.inflight) :
      Move s (.evict q) ({ s with mem := m }.setSlot q { sl with report := .none })
  | remove (q : ℕ) (sl : Slot) (cause : EvictCause) (key : AgentKey) (e : Entry) (m : Mem)
      (hq : s.slots.lookup q = some sl) (hr : sl.report = .fatal cause)
      (he : s.agents.lookup key = some e) (hs : e.stableId = sl.entry.stableId)
      (hm : m.inflight = s.mem.inflight)
      (hev : (evictLocked s.agents s.mem sl.entry.stableId cause).1 =
        .removed key e (s.mem.inflight e.inflight)) :
      Move s (.evict q) ({ s with agents := s.agents.erase key, mem := m }.setSlot q
        { sl with report := .removed e (s.mem.inflight e.inflight) })
  | evictNow (q : ℕ) (sl : Slot) (e : Entry) (n : UInt32) (hq : s.slots.lookup q = some sl)
      (hr : sl.report = .removed e n) (hn : n ≤ 1) :
      Move s (.evictClose q)
        ((s.setSlot q { sl with report := .none }).close e.conn (.evict q) false)
  | evictLater (q : ℕ) (sl : Slot) (e : Entry) (n : UInt32) (hq : s.slots.lookup q = some sl)
      (hr : sl.report = .removed e n) :
      Move s (.evictClose q) { s.setSlot q { sl with report := .none } with
        deferred := s.deferred ++ [⟨e.conn, e.inflight, e.agentId, .evict q, false⟩] }
  | drained (i : ℕ) (d : DeferredClose) (hd : s.deferred[i]? = some d)
      (hz : s.mem.inflight d.inflight = 0) :
      Move s (.deferredLoad i) { s with deferred := s.deferred.set i { d with drained := true } }
  | deferredClose (i : ℕ) (d : DeferredClose) (hd : s.deferred[i]? = some d) (hz : d.drained = true) :
      Move s (.deferredClose i)
        ({ s with deferred := s.deferred.eraseIdx i }.close d.conn d.closer false)
  | deferredGrace (i : ℕ) (d : DeferredClose) (hd : s.deferred[i]? = some d) :
      Move s (.deferredGrace i)
        ({ s with deferred := s.deferred.eraseIdx i }.close d.conn d.closer true)

section inversion

variable {allowLegacy : Bool} {s s' : State}

theorem move_registerAgent {c : ℕ} {f : Frame} {v : Bool} {now : UInt64} {cn : Conn} (r : Register)
    (hc : s.conns.lookup c = some cn) (hh : cn.handler = .accepting) :
    Move s (.frame c f v now) (registerAgent s c cn r) := by
  unfold registerAgent
  split_ifs with ha
  · exact .number c f v now cn r hc hh ha
  · exact .refuse c f v now cn hc hh

theorem move_frame {c : ℕ} {f : Frame} {v : Bool} {now : UInt64} {cn : Conn}
    (hc : s.conns.lookup c = some cn) (hh : cn.handler = .accepting) :
    Move s (.frame c f v now) (onControlFrame allowLegacy s c cn v now f) := by
  cases f with
  | register agentId models maxConcurrency version =>
    simp only [onControlFrame]
    split_ifs
    · exact move_registerAgent _ hc hh
    · exact .refuseAndEnd c _ v now cn hc hh
  | registerWithTenant agentId tenantId token models maxConcurrency version =>
    simp only [onControlFrame]
    split_ifs
    · exact move_registerAgent _ hc hh
    · exact .refuseAndEnd c _ v now cn hc hh
  | heartbeat agentId inflight =>
    simp only [onControlFrame]
    split
    · exact .nothing _
    · split
      · exact .nothing _
      · split
        · exact .nothing _
        · exact .health _ _
  | proxyRequest | proxyResponseHead | proxyResponseBody | proxyResponseEnd | cancel | error =>
    exact .nothing _

theorem move_insert {c : ℕ} {now : UInt64} {cn : Conn} {r : Register} {sid : ℕ}
    (hc : s.conns.lookup c = some cn) (hh : cn.handler = .numbered r sid) :
    Move s (.insert c now) (insertLocked s c cn r sid now) := by
  cases ho : s.agents.lookup (r.key cn.peerIp) with
  | none =>
    have h := Move.insertNew c now cn r sid hc hh ho
    simpa [insertLocked, superseded, newEntry, ho] using h
  | some old =>
    have h := Move.insertOver c now cn r sid old hc hh ho
    simpa [insertLocked, superseded, newEntry, ho] using h

theorem move_evict {q : ℕ} {sl : Slot} {cause : EvictCause} (hq : s.slots.lookup q = some sl)
    (hr : sl.report = .fatal cause) (h : step allowLegacy s (.evict q) = some s') :
    Move s (.evict q) s' := by
  simp only [step, withSlot, hq, Option.bind_some, hr] at h
  rcases evictLocked_spec s.agents s.mem sl.entry.stableId cause with
    he | ⟨n, m, he, hm⟩ | ⟨key, e, m, he, hl, hs, hm⟩
  · rw [he] at h
    cases h
    exact .strike q sl cause s.mem hq hr rfl
  · rw [he] at h
    cases h
    exact .strike q sl cause m hq hr hm
  · rw [he] at h
    cases h
    exact .remove q sl cause key e m hq hr hl hs hm (by rw [he])

theorem withConn_eq_some {c : ℕ} {f : Conn → Option State} :
    withConn s c f = some s' ↔ ∃ cn, s.conns.lookup c = some cn ∧ f cn = some s' :=
  Option.bind_eq_some_iff

theorem withSlot_eq_some {q : ℕ} {f : Slot → Option State} :
    withSlot s q f = some s' ↔ ∃ sl, s.slots.lookup q = some sl ∧ f sl = some s' :=
  Option.bind_eq_some_iff

/-- **Inversion of a step.** -/
theorem move_of_step {l : Label} (h : step allowLegacy s l = some s') : Move s l s' := by
  cases l with
  | connect c ip =>
    simp only [step] at h
    split at h
    · next hc => cases h; exact .connect c ip hc
    · cases h
  | frame c f v now =>
    obtain ⟨cn, hc, h⟩ := withConn_eq_some.mp h
    split at h
    · next hh => cases h; exact move_frame hc hh
    · cases h
  | insert c now =>
    obtain ⟨cn, hc, h⟩ := withConn_eq_some.mp h
    split at h
    · next r sid hh => cases h; exact move_insert hc hh
    · cases h
  | loadInflight c =>
    obtain ⟨cn, hc, h⟩ := withConn_eq_some.mp h
    split at h
    · next r sid old hh => cases h; exact .load c cn r sid old hc hh
    · cases h
  | closeOld c =>
    obtain ⟨cn, hc, h⟩ := withConn_eq_some.mp h
    split at h
    · next r sid old n hh =>
      dsimp only at h
      split_ifs at h with hn
      · subst hn; cases h; exact .closeNow c cn r sid old hc hh
      · cases h; exact .closeLater c cn r sid old n hc hh
    · cases h
  | note c =>
    obtain ⟨cn, hc, h⟩ := withConn_eq_some.mp h
    split at h
    · next r sid hh => cases h; exact .note c cn r sid hc hh
    · cases h
  | hangUp c =>
    obtain ⟨cn, hc, h⟩ := withConn_eq_some.mp h
    split at h
    · next hh => cases h; exact .hangUp c cn hc hh
    · cases h
  | dropNext c =>
    obtain ⟨cn, hc, h⟩ := withConn_eq_some.mp h
    split at h
    · next n rest hh => cases h; exact .dropNext c cn n rest hc hh
    · next hh => cases h; exact .dropEnd c cn hc hh
    · cases h
  | acquire q key =>
    simp only [step] at h
    split at h
    · next e he hq =>
      split_ifs at h with ha
      cases h
      exact .acquire q key e he hq ha
    · cases h
  | release q =>
    obtain ⟨sl, hq, h⟩ := withSlot_eq_some.mp h
    split at h
    · next hr => cases h; exact .release q sl hq hr
    · cases h
  | report q failure now =>
    obtain ⟨sl, hq, h⟩ := withSlot_eq_some.mp h
    split at h
    · next cause hr _ => cases h; exact .fatal q failure now sl cause hq hr
    · cases h; exact .nothing _
    · cases h
  | evict q =>
    obtain ⟨sl, hq, h'⟩ := withSlot_eq_some.mp h
    split at h'
    · next cause hr => exact move_evict hq hr h
    · cases h'
  | evictClose q =>
    obtain ⟨sl, hq, h⟩ := withSlot_eq_some.mp h
    split at h
    · next e n hr =>
      dsimp only at h
      split_ifs at h with hn
      · cases h; exact .evictNow q sl e n hq hr hn
      · cases h; exact .evictLater q sl e n hq hr
    · cases h
  | headOk q now =>
    obtain ⟨sl, hq, h⟩ := withSlot_eq_some.mp h
    split at h
    · cases h; exact .health _ _
    · cases h; exact .nothing _
  | deferredLoad i =>
    obtain ⟨d, hd, h⟩ := Option.map_eq_some_iff.mp h
    split_ifs at h with hz
    · subst h; exact .drained i d hd hz
    · subst h; exact .nothing _
  | deferredClose i =>
    obtain ⟨d, hd, h⟩ := Option.bind_eq_some_iff.mp h
    split_ifs at h with hz
    cases h
    exact .deferredClose i d hd hz
  | deferredGrace i =>
    obtain ⟨d, hd, h⟩ := Option.bind_eq_some_iff.mp h
    split_ifs at h
    cases h
    exact .deferredGrace i d hd

/-- A step leaves the slots of other requests alone. -/
theorem slot_eq_of_step {l : Label} (h : step allowLegacy s l = some s') {q : ℕ}
    (hq : l.request ≠ some q) : s'.slots.lookup q = s.slots.lookup q := by
  have hne : ∀ {q'}, l.request = some q' → q ≠ q' := fun hl he => hq (by rw [hl, he])
  cases move_of_step h with
  | acquire | fatal | strike | remove | evictNow | evictLater =>
    simp [State.setInflight, hne rfl]
  | release => simp [hne rfl]
  | _ => rfl

/-- A step that does not lock the table for writing leaves it alone. -/
theorem agents_eq_of_step {l : Label} (h : step allowLegacy s l = some s') (hl : l.writesTable = false) :
    s'.agents = s.agents := by
  cases move_of_step h with
  | insertOver | insertNew | dropNext | dropEnd | strike | remove => simp [Label.writesTable] at hl
  | _ => rfl

end inversion

end HomeLlmGateway.Registry.System
