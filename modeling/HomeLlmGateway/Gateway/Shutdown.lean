import HomeLlmGateway.Proxy.Relay
import HomeLlmGateway.Storage.UsageLedger

/-! # Shutdown

`Gateway::shutdown` (`gateway/src/gateway.rs`) beside the requests it waits for. `drain` waits until no
request holds an admission ticket, then the usage is flushed, then what is left of the forward tasks is
aborted. A ticket is held by the body of a response, with the receiving end of the relay's channel: both are
gone when the body has ended, or when its client is (`http/admission.rs`). The task that settles the usage
is another one (`Proxy.Forward`), and it may outlive the body.

Every relay is a `Proxy.Forward.State`, the usage store a `Storage.Usage.State`; when a relay settles, the
store accumulates. When a task notices the shutdown phase is left open, so is whether it is aborted. -/

namespace HomeLlmGateway.Gateway.Shutdown

open HomeLlmGateway.Lib.Assoc HomeLlmGateway.Proto.Frames
open HomeLlmGateway.Proto.Io (IoError)
open HomeLlmGateway.Storage.Usage (UsageDelta UsageRecord Db accumulate)
open HomeLlmGateway.Proxy.Forward (Ctx Watch)

/-! ### The state -/

/-- A request whose response head has been received. -/
structure Relay where
  ctx : Ctx
  keyId : String
  keyName : String
  /-- the head was received before the shutdown began -/
  early : Bool
  task : Proxy.Forward.State

/-- A call of `accumulate_usage`, with the request that made it. -/
structure Entry where
  request : ℕ
  keyId : String
  tenantId : String
  name : String
  delta : UsageDelta
  now : UInt64
  deriving DecidableEq

/-- How far `shutdown` is. -/
inductive Phase where
  | serving
  | draining
  /-- `drain` has returned -/
  | drained
  /-- the forced flush holds the gate -/
  | flushing
  | flushed
  /-- the forced flush failed, or took too long -/
  | unflushed
  | returned (flushed : Bool)
  deriving DecidableEq

structure State where
  relays : HashMap ℕ Relay
  /-- the tickets of requests without a response head -/
  others : ℕ
  usage : Storage.Usage.State
  /-- the calls of `accumulate_usage` so far -/
  log : List Entry
  phase : Phase
  /-- `drain` returned because it read zero -/
  reachedZero : Bool
  /-- how many of the calls came before the forced flush took its batch -/
  seen : ℕ

def init (db : Db) : State where
  relays := ∅
  others := 0
  usage := Storage.Usage.init db
  log := []
  phase := .serving
  reachedZero := false
  seen := 0

/-- `active_count`: the tickets held. -/
def activeCount (s : State) : ℕ := countVal (fun r => r.task.chan.rxAlive) s.relays + s.others

/-! ### One step -/

/-- What happens next. -/
inductive Label where
  /-- a request is admitted -/
  | enter
  /-- a request ends without a response head -/
  | leave
  /-- the response head of a request arrives, its forward task is spawned -/
  | head (i : ℕ) (ctx : Ctx) (keyId keyName : String)
      (upstream : List (Except IoError (Option Frame))) (w : Watch)
  /-- the forward task of `i`, or its client, goes on; `tenantId` and `now` are for `accumulate_usage` -/
  | relay (i : ℕ) (l : Proxy.Forward.Label) (tenantId : String) (now : UInt64)
  /-- the periodic flush, and the statements of any flush -/
  | flush (l : Storage.Usage.Label)
  | beginDrain
  /-- `drain` reads the count, or gives up -/
  | drained (graceElapsed : Bool)
  /-- `flush_usage_blocking` takes its batch -/
  | forceFlush
  | flushTimeout
  | returns

/-- The steps of a flush. The usage store does not restart here, and accumulates with the relays only. -/
def isFlush : Storage.Usage.Label → Bool
  | .accumulate .. => false
  | .restart _ => false
  | .flushOnce force => !force
  | _ => true

/-- Whether the step ends a flush without success. -/
def fails : Storage.Usage.Label → Bool
  | .transaction ok => !ok
  | .execute ok => !ok
  | .commit ok => !ok
  | _ => false

/-- What a step of a flush means to a `shutdown` that waits for its own. -/
def Phase.afterFlush (phase : Phase) (l : Storage.Usage.Label) : Phase :=
  if phase = .flushing then
    if fails l then .unflushed else if l = .mark then .flushed else .flushing
  else phase

/-- The calls of `accumulate_usage` that a step of the relay makes. -/
def entriesOf (i : ℕ) (r : Relay) (task : Proxy.Forward.State) (tenantId : String) (now : UInt64) :
    List Entry :=
  (task.ledger.drop r.task.ledger.length).map fun d => ⟨i, r.keyId, tenantId, r.keyName, d, now⟩

/-- `accumulate_usage`, once. -/
def accumulateEntry (usage : HashMap String UsageRecord) (e : Entry) : HashMap String UsageRecord :=
  accumulate usage e.keyId e.tenantId e.name e.delta e.now

/-- The store after some calls. -/
def accumulateAll (usage : HashMap String UsageRecord) (es : List Entry) : HashMap String UsageRecord :=
  es.foldl accumulateEntry usage

def step (s : State) : Label → Option State
  | .enter => some { s with others := s.others + 1 }
  | .leave => if 0 < s.others then some { s with others := s.others - 1 } else none
  | .head i ctx keyId keyName upstream w =>
    match s.relays.lookup i with
    | some _ => none
    | none =>
      if 0 < s.others then
        some { s with
          others := s.others - 1
          relays := s.relays.insert i ⟨ctx, keyId, keyName, s.phase = .serving,
            Proxy.Forward.init ctx 32 upstream w⟩ }
      else none
  | .relay i l tenantId now =>
    (s.relays.lookup i).bind fun r => (Proxy.Forward.step r.ctx r.task l).map fun task =>
      { s with
        relays := s.relays.insert i { r with task := task }
        usage := { s.usage with
          usage := accumulateAll s.usage.usage (entriesOf i r task tenantId now) }
        log := s.log ++ entriesOf i r task tenantId now }
  | .flush l =>
    if isFlush l then
      (Storage.Usage.step s.usage l).map fun usage =>
        { s with usage := usage, phase := s.phase.afterFlush l }
    else none
  | .beginDrain => if s.phase = .serving then some { s with phase := .draining } else none
  | .drained graceElapsed =>
    if s.phase = .draining ∧ (graceElapsed = true ∨ activeCount s = 0) then
      some { s with phase := .drained, reachedZero := !graceElapsed }
    else none
  | .forceFlush =>
    if s.phase = .drained then
      (Storage.Usage.step s.usage (.flushOnce true)).map fun usage =>
        { s with
          usage := usage
          seen := s.log.length
          -- with nothing to write the call returns at once
          phase := if usage.flush = .idle then .flushed else .flushing }
    else none
  | .flushTimeout => if s.phase = .flushing then some { s with phase := .unflushed } else none
  | .returns =>
    match s.phase with
    | .flushed => some { s with phase := .returned true }
    | .unflushed => some { s with phase := .returned false }
    | _ => none

end HomeLlmGateway.Gateway.Shutdown
