import HomeLlmGateway.Proto.Io
import HomeLlmGateway.Registry.Routing
import HomeLlmGateway.Registry.System

/-! # Opening a tunnel and sending the request

`open_and_send` (`gateway/src/proxy/routing.rs`) with `open_tunnel` and `tunnel_write`
(`gateway/src/proxy/tunnel.rs`): pick an agent, take a slot, open a stream, write the request frame, and
on a failure try once more on another connection.

The call runs on the shared registry of `Registry.System`: between any two of its steps the other parties
may take any steps of theirs, except that nobody touches a `SlotGuard` of the call and nobody writes the
table while the call holds its read lock. The answers of the transport are in the labels: how opening the
stream and writing the frame end, and how much of the frame was let through if the write failed. What a
`SlotGuard` stands for is a number that no live guard has. -/

namespace HomeLlmGateway.Proxy.Routing

open HomeLlmGateway.Lib.Assoc HomeLlmGateway.Lib.ByteCodec
open HomeLlmGateway.Proto.Frames HomeLlmGateway.Proto.Io
open HomeLlmGateway.Registry.Node HomeLlmGateway.Registry.Routing
open HomeLlmGateway.Registry.System (canAcquire judge Failure)

/-! ### The tunnel -/

/-- What `tokio::time::timeout` gives: the result of the operation, or that the time is over. -/
inductive Timed where
  | ok
  | error (message : String)
  | elapsed
  deriving DecidableEq

/-- `OpenFailure`. -/
inductive OpenFailure where
  | timedOut
  | failed (e : String)
  deriving DecidableEq

def OpenFailure.message : OpenFailure → String
  | .timedOut => "tunnel open timed out"
  | .failed e => e

/-- `WriteFailure`. -/
inductive WriteFailure where
  | timedOut
  | failed (e : String)
  deriving DecidableEq

namespace WriteFailure

def message : WriteFailure → String
  | .timedOut => "tunnel write timed out"
  | .failed e => e

def isTunnelBroken : WriteFailure → Bool
  | .timedOut => false
  | .failed _ => true

/-- `class`. -/
def kind : WriteFailure → String
  | .timedOut => "backpressure"
  | .failed _ => "broken"

end WriteFailure

/-- `open_tunnel`. -/
def openTunnel : Timed → Option OpenFailure
  | .ok => none
  | .error e => some (.failed ("tunnel open failed: " ++ e))
  | .elapsed => some .timedOut

/-- `tunnel_write`: how it fails, and what the agent's side of the stream can ever see of the frame then.
A frame that cannot be encoded is not written at all. -/
def tunnelWrite (P : Postcard) (frame : Frame) (write : Timed) (letThrough : Bytes) :
    Option (WriteFailure × Bytes) :=
  match writeFrame P frame with
  | .error e => some (.failed ("tunnel write failed: " ++ e.message), [])
  | .ok _ =>
    match write with
    | .ok => none
    | .error e => some (.failed ("tunnel write failed: " ++ e), letThrough)
    | .elapsed => some (.timedOut, letThrough)

/-! ### The call -/

/-- `RequestError`, as far as routing raises it. -/
inductive RequestError where
  | noEdge
  | modelNotFound
  | atCapacity
  | badGateway (message : String)
  deriving DecidableEq

/-- The metrics that `open_and_send` records, with their labels. -/
inductive Metric where
  | agentRejection (why : String)
  | tunnelOpenTimeout (kind : String)
  | tunnelWriteFailure (kind : String)
  | tunnelRetry (result : String)
  deriving DecidableEq

/-- `rejection_response`. -/
def rejectionResponse (reason : AcquireError) (registered : ℕ) : String × RequestError :=
  match reason with
  | .noAgent => (if registered = 0 then "registry-empty" else "all-candidates-stale", .noEdge)
  | .noModel => ("no-agent-serves-model", .modelNotFound)
  | .atCapacity | .allExcluded => ("all-candidates-at-capacity", .atCapacity)

/-- `MAX_TUNNEL_ATTEMPTS`. -/
def maxTunnelAttempts : ℕ := 2

/-- The arguments of a call, with what it reads of the policy. -/
structure Input where
  tenantId : String
  model : String
  request : Frame
  agentStaleAfter : UInt64
  maxOpenTunnelStreams : UInt32

/-- The stream of an attempt, from the agent's side. -/
inductive Stream where
  /-- never opened -/
  | unopened
  /-- open: the frame is being written, or was written -/
  | live
  /-- the write failed: after the bytes let through, only a reset or a FIN -/
  | ended (letThrough : Bytes)
  deriving DecidableEq

/-- An attempt: the entry, the `SlotGuard`, the stream. -/
structure Attempt where
  entry : Entry
  guard : ℕ
  stream : Stream
  deriving DecidableEq

/-- A failure that is being reported. -/
inductive Failed where
  | open (busy : Bool) (err : String)
  | write (err : String)
  deriving DecidableEq

/-- Where the call stands. -/
inductive Pc where
  /-- at the head of the loop -/
  | acquiring
  /-- in `try_acquire_excluding_for_tenant`, with the candidates left; the table is locked for reading -/
  | trying (candidates : List Entry)
  | rejected (reason : AcquireError)
  /-- awaiting `open_tunnel` -/
  | opening (a : Attempt)
  /-- awaiting `tunnel_write` -/
  | writing (a : Attempt)
  /-- in one of the `report_*` functions -/
  | reporting (a : Attempt) (f : Failed)
  /-- leaving the loop body: dropping the guard, then returning the error or going on -/
  | dropping (a : Attempt) (err : Option RequestError)
  | returned (r : Except RequestError Attempt)
  deriving DecidableEq

/-- The registry and the call. -/
structure State where
  reg : Registry.System.State
  tried : List ℕ
  lastFailure : Option String
  metrics : List Metric
  pc : Pc
  /-- the attempts that are over -/
  finished : List Attempt

/-- The call at its beginning. -/
def start (reg : Registry.System.State) : State := ⟨reg, [], none, [], .acquiring, []⟩

/-- The attempt that holds a slot. -/
def Pc.current : Pc → Option Attempt
  | .opening a | .writing a | .reporting a _ | .dropping a _ | .returned (.ok a) => some a
  | .acquiring | .trying _ | .rejected _ | .returned (.error _) => none

/-- All attempts so far. -/
def State.attempts (s : State) : List Attempt := s.finished ++ s.pc.current.toList

/-- The guards that the call has made. -/
def State.guards (s : State) : List ℕ := s.attempts.map (·.guard)

/-- Whether the call holds the read lock of the table. -/
def Pc.locksTable : Pc → Bool
  | .trying _ => true
  | _ => false

/-! ### Steps -/

/-- What happens next. -/
inductive Label where
  /-- a step of somebody else -/
  | env (l : Registry.System.Label)
  /-- `pick_for_tenant` at time `now` on the entries in some iteration order -/
  | pick (order : List Entry) (now : UInt64)
  /-- the compare-exchange on the next candidate; its guard, if it takes the slot -/
  | tryNext (guard : ℕ)
  /-- `status`, and the answer that there is no agent -/
  | reject
  /-- `open_tunnel` ends; a failure is reported at time `now` -/
  | opened (result : Timed) (now : UInt64)
  /-- `tunnel_write` ends -/
  | wrote (result : Timed) (letThrough : Bytes) (now : UInt64)
  /-- the next step of a report -/
  | report
  /-- the guard is dropped -/
  | drop

/-- No agent: the metric and the answer. -/
def rejectWith (s : State) (reason : AcquireError) : State :=
  let (why, failure) := rejectionResponse reason (values s.reg.agents).length
  let metrics := s.metrics ++ [.agentRejection why]
  match s.lastFailure with
  | some err => { s with
      metrics := metrics ++ [.tunnelRetry "no-alternative"]
      pc := .returned (.error (.badGateway (err ++ "; no other agent available to retry"))) }
  | none => { s with metrics := metrics, pc := .returned (.error failure) }

/-- After a failed attempt: give up, or go round the loop once more. -/
def leave (s : State) (a : Attempt) (give : RequestError) (lastFailure : Option String) : State :=
  if maxTunnelAttempts ≤ s.tried.length then
    { s with metrics := s.metrics ++ [.tunnelRetry "failed"], pc := .dropping a (some give) }
  else { s with lastFailure := lastFailure, pc := .dropping a none }

/-- What follows on a failure, once it is reported. -/
def afterReport (s : State) (a : Attempt) : Failed → State
  | .open busy err =>
    leave { s with metrics := s.metrics ++ [.tunnelOpenTimeout (if busy then "busy" else "dead")] } a
      (if busy then .atCapacity else .badGateway err) (if busy then s.lastFailure else some err)
  | .write err => leave s a (.badGateway err) (some err)

/-- Return the error, or go round the loop. -/
def afterDrop : Option RequestError → Pc
  | some err => .returned (.error err)
  | none => .acquiring

/-- Which `report_*` a failed `open_tunnel` calls. -/
def OpenFailure.toReport (i : Input) : OpenFailure → Failure
  | .timedOut => .openTimeout i.maxOpenTunnelStreams
  | .failed _ => .openFailed

section steps

variable (P : Postcard) (allowLegacy : Bool) (i : Input)

/-- A step of the call on the registry. -/
def onReg (s : State) (l : Registry.System.Label) (k : Registry.System.State → State) : Option State :=
  (Registry.System.step allowLegacy s.reg l).map k

/-- One step. -/
def step (s : State) : Label → Option State
  | .env l =>
    if l.request.any (s.guards.contains ·) || (s.pc.locksTable && l.writesTable) then none
    else onReg allowLegacy s l fun reg => { s with reg := reg }
  | .pick order now =>
    match s.pc with
    | .acquiring =>
      if order.Perm (values s.reg.agents) then
        match pickForTenant order s.reg.mem now i.agentStaleAfter i.tenantId i.model s.tried with
        | .ok candidates => some { s with pc := .trying candidates }
        | .error reason => some { s with pc := .rejected reason }
      else none
    | _ => none
  | .tryNext g =>
    match s.pc with
    | .trying [] => some { s with pc := .rejected .atCapacity }
    | .trying (e :: rest) =>
      if canAcquire s.reg.mem e then
        if s.reg.slots.lookup g = none ∧ g ∉ s.guards then
          some { s with
            reg := (s.reg.setInflight e.inflight (s.reg.mem.inflight e.inflight + 1)).setSlot g ⟨e, .none⟩
            tried := s.tried ++ [e.stableId]
            pc := .opening ⟨e, g, .unopened⟩ }
        else none
      else some { s with pc := .trying rest }
    | _ => none
  | .reject =>
    match s.pc with
    | .rejected reason => some (rejectWith s reason)
    | _ => none
  | .opened result now =>
    match s.pc with
    | .opening a =>
      match openTunnel result with
      | none => some { s with pc := .writing { a with stream := .live } }
      | some failure =>
        let busy := (judge s.reg.mem a.entry now (failure.toReport i)).isNone
        onReg allowLegacy s (.report a.guard (failure.toReport i) now) fun reg =>
          { s with reg := reg, pc := .reporting a (.open busy failure.message) }
    | _ => none
  | .wrote result letThrough now =>
    match s.pc with
    | .writing a =>
      match tunnelWrite P i.request result letThrough with
      | none => some { s with
          metrics := if 1 < s.tried.length then s.metrics ++ [.tunnelRetry "ok"] else s.metrics
          pc := .returned (.ok a) }
      | some (failure, bytes) =>
        let s' := { s with
          metrics := s.metrics ++ [.tunnelWriteFailure failure.kind]
          pc := .reporting { a with stream := .ended bytes } (.write failure.message) }
        if failure.isTunnelBroken then
          onReg allowLegacy s (.report a.guard .writeFailed now) fun reg => { s' with reg := reg }
        else some s'
    | _ => none
  | .report =>
    match s.pc with
    | .reporting a f =>
      match s.reg.slots.lookup a.guard with
      | some ⟨_, .none⟩ => some (afterReport s a f)
      | some ⟨_, .fatal _⟩ => onReg allowLegacy s (.evict a.guard) fun reg => { s with reg := reg }
      | some ⟨_, .removed _ _⟩ => onReg allowLegacy s (.evictClose a.guard) fun reg => { s with reg := reg }
      | none => none
    | _ => none
  | .drop =>
    match s.pc with
    | .dropping a err => onReg allowLegacy s (.release a.guard) fun reg => { s with
        reg := reg
        finished := s.finished ++ [a]
        pc := afterDrop err }
    | _ => none

end steps

/-! ### What a step can do -/

/-- What a step can do. -/
inductive Move (P : Postcard) (allowLegacy : Bool) (i : Input) (s : State) : Label → State → Prop
  | env (l : Registry.System.Label) (reg : Registry.System.State)
      (hq : ∀ g ∈ s.guards, l.request ≠ some g)
      (hlock : s.pc.locksTable = true → l.writesTable = false)
      (hreg : Registry.System.step allowLegacy s.reg l = some reg) :
      Move P allowLegacy i s (.env l) { s with reg := reg }
  | pick (order : List Entry) (now : UInt64) (candidates : List Entry) (hpc : s.pc = .acquiring)
      (hcs : ∀ e ∈ candidates, e.stableId ∉ s.tried ∧ ∃ key, s.reg.agents.lookup key = some e) :
      Move P allowLegacy i s (.pick order now) { s with pc := .trying candidates }
  | noPick (order : List Entry) (now : UInt64) (reason : AcquireError) (hpc : s.pc = .acquiring) :
      Move P allowLegacy i s (.pick order now) { s with pc := .rejected reason }
  | exhausted (g : ℕ) (hpc : s.pc = .trying []) :
      Move P allowLegacy i s (.tryNext g) { s with pc := .rejected .atCapacity }
  | take (g : ℕ) (e : Entry) (rest : List Entry) (hpc : s.pc = .trying (e :: rest))
      (hcan : canAcquire s.reg.mem e = true) (hslot : s.reg.slots.lookup g = none) (hg : g ∉ s.guards) :
      Move P allowLegacy i s (.tryNext g) { s with
        reg := (s.reg.setInflight e.inflight (s.reg.mem.inflight e.inflight + 1)).setSlot g ⟨e, .none⟩
        tried := s.tried ++ [e.stableId]
        pc := .opening ⟨e, g, .unopened⟩ }
  | skip (g : ℕ) (e : Entry) (rest : List Entry) (hpc : s.pc = .trying (e :: rest)) :
      Move P allowLegacy i s (.tryNext g) { s with pc := .trying rest }
  | reject (reason : AcquireError) (metrics : List Metric) (err : RequestError)
      (hpc : s.pc = .rejected reason) :
      Move P allowLegacy i s .reject { s with metrics := metrics, pc := .returned (.error err) }
  | opened (result : Timed) (now : UInt64) (a : Attempt) (hpc : s.pc = .opening a) :
      Move P allowLegacy i s (.opened result now) { s with pc := .writing { a with stream := .live } }
  | openFailed (result : Timed) (now : UInt64) (a : Attempt) (failure : Failure) (f : Failed)
      (reg : Registry.System.State) (hpc : s.pc = .opening a)
      (hreg : Registry.System.step allowLegacy s.reg (.report a.guard failure now) = some reg) :
      Move P allowLegacy i s (.opened result now) { s with reg := reg, pc := .reporting a f }
  | written (result : Timed) (bytes : Bytes) (now : UInt64) (a : Attempt) (metrics : List Metric)
      (w : Bytes) (hpc : s.pc = .writing a) (hw : writeFrame P i.request = .ok w) :
      Move P allowLegacy i s (.wrote result bytes now)
        { s with metrics := metrics, pc := .returned (.ok a) }
  | writeFailed (result : Timed) (bytes : Bytes) (now : UInt64) (a : Attempt) (failure : WriteFailure)
      (b : Bytes) (metrics : List Metric) (reg : Registry.System.State) (hpc : s.pc = .writing a)
      (hw : tunnelWrite P i.request result bytes = some (failure, b))
      (hreg : reg = s.reg ∨
        Registry.System.step allowLegacy s.reg (.report a.guard .writeFailed now) = some reg) :
      Move P allowLegacy i s (.wrote result bytes now) { s with
        reg := reg
        metrics := metrics
        pc := .reporting { a with stream := .ended b } (.write failure.message) }
  | reported (a : Attempt) (f : Failed) (e : Entry) (metrics : List Metric) (last : Option String)
      (err : Option RequestError) (hpc : s.pc = .reporting a f)
      (hslot : s.reg.slots.lookup a.guard = some ⟨e, .none⟩)
      (herr : err = none → s.tried.length < maxTunnelAttempts) :
      Move P allowLegacy i s .report
        { s with metrics := metrics, lastFailure := last, pc := .dropping a err }
  | evicting (a : Attempt) (f : Failed) (l : Registry.System.Label) (reg : Registry.System.State)
      (hpc : s.pc = .reporting a f) (hl : l = .evict a.guard ∨ l = .evictClose a.guard)
      (hreg : Registry.System.step allowLegacy s.reg l = some reg) :
      Move P allowLegacy i s .report { s with reg := reg }
  | drop (a : Attempt) (err : Option RequestError) (reg : Registry.System.State)
      (hpc : s.pc = .dropping a err)
      (hreg : Registry.System.step allowLegacy s.reg (.release a.guard) = some reg) :
      Move P allowLegacy i s .drop
        { s with reg := reg, finished := s.finished ++ [a], pc := afterDrop err }

section inversion

variable {P : Postcard} {allowLegacy : Bool} {i : Input} {s s' : State}

theorem onReg_eq_some {l : Registry.System.Label} {k : Registry.System.State → State} :
    onReg allowLegacy s l k = some s' ↔
      ∃ reg, Registry.System.step allowLegacy s.reg l = some reg ∧ k reg = s' :=
  Option.map_eq_some_iff

theorem rejectWith_spec (s : State) (reason : AcquireError) :
    ∃ m err, rejectWith s reason = { s with metrics := m, pc := .returned (.error err) } := by
  unfold rejectWith
  cases s.lastFailure with
  | none => exact ⟨_, _, rfl⟩
  | some err => exact ⟨_, _, rfl⟩

theorem leave_spec (s : State) (a : Attempt) (give : RequestError) (last : Option String) :
    ∃ m lf err, leave s a give last = { s with metrics := m, lastFailure := lf, pc := .dropping a err } ∧
      (err = none → s.tried.length < maxTunnelAttempts) := by
  unfold leave
  split_ifs with hl
  · exact ⟨_, _, _, rfl, fun hc => by cases hc⟩
  · exact ⟨_, _, _, rfl, fun _ => by omega⟩

/-- A failed attempt ends with its slot dropped; the call goes on only below the limit of attempts. -/
theorem afterReport_spec (s : State) (a : Attempt) (f : Failed) :
    ∃ m lf err, afterReport s a f = { s with metrics := m, lastFailure := lf, pc := .dropping a err } ∧
      (err = none → s.tried.length < maxTunnelAttempts) := by
  cases f with
  | «open» busy err => exact leave_spec _ a _ _
  | write err => exact leave_spec s a _ _

theorem writeFrame_ok_of_tunnelWrite {frame : Frame} {result : Timed} {bytes : Bytes}
    (h : tunnelWrite P frame result bytes = none) : ∃ w, writeFrame P frame = .ok w := by
  unfold tunnelWrite at h
  split at h
  · cases h
  · next w hw => exact ⟨w, hw⟩

/-- **Inversion of a step.** -/
theorem move_of_step {l : Label} (h : step P allowLegacy i s l = some s') :
    Move P allowLegacy i s l s' := by
  cases l with
  | env l =>
    simp only [step] at h
    split_ifs at h with hl
    simp only [Bool.or_eq_true, Bool.and_eq_true, not_or, not_and] at hl
    obtain ⟨reg, hreg, rfl⟩ := onReg_eq_some.mp h
    refine .env l reg (fun g hg hc => hl.1 ?_) (fun hlock => Bool.eq_false_iff.mpr (hl.2 hlock)) hreg
    rw [hc]
    simpa using hg
  | pick order now =>
    simp only [step] at h
    split at h
    · next hpc =>
      split_ifs at h with hperm
      split at h
      · next cs hcs =>
        cases h
        refine .pick order now cs hpc fun e he => ?_
        obtain ⟨hm, hx⟩ := mem_of_pickForTenant hcs he
        exact ⟨hx, (mem_values _ _).mp (hperm.mem_iff.mp hm)⟩
      · cases h; exact .noPick order now _ hpc
    · cases h
  | tryNext g =>
    simp only [step] at h
    split at h
    · next hpc => cases h; exact .exhausted g hpc
    · next e rest hpc =>
      split_ifs at h with hcan hg
      · cases h; exact .take g e rest hpc hcan hg.1 hg.2
      · cases h; exact .skip g e rest hpc
    · cases h
  | reject =>
    simp only [step] at h
    split at h
    · next reason hpc =>
      cases h
      obtain ⟨m, err, he⟩ := rejectWith_spec s reason
      rw [he]
      exact .reject reason m err hpc
    · cases h
  | opened result now =>
    simp only [step] at h
    split at h
    · next a hpc =>
      split at h
      · cases h; exact .opened result now a hpc
      · obtain ⟨reg, hreg, rfl⟩ := onReg_eq_some.mp h
        exact .openFailed result now a _ _ reg hpc hreg
    · cases h
  | wrote result bytes now =>
    simp only [step] at h
    split at h
    · next a hpc =>
      split at h
      · next hw =>
        cases h
        obtain ⟨w, hok⟩ := writeFrame_ok_of_tunnelWrite hw
        exact .written result bytes now a _ w hpc hok
      · next failure b hw =>
        split_ifs at h
        · obtain ⟨reg, hreg, rfl⟩ := onReg_eq_some.mp h
          exact .writeFailed result bytes now a failure b _ reg hpc hw (Or.inr hreg)
        · cases h
          exact .writeFailed result bytes now a failure b _ s.reg hpc hw (Or.inl rfl)
    · cases h
  | report =>
    simp only [step] at h
    split at h
    · next a f hpc =>
      split at h
      · next e hslot =>
        cases h
        obtain ⟨m, lf, err, he, herr⟩ := afterReport_spec s a f
        rw [he]
        exact .reported a f e m lf err hpc hslot herr
      · obtain ⟨reg, hreg, rfl⟩ := onReg_eq_some.mp h
        exact .evicting a f _ reg hpc (Or.inl rfl) hreg
      · obtain ⟨reg, hreg, rfl⟩ := onReg_eq_some.mp h
        exact .evicting a f _ reg hpc (Or.inr rfl) hreg
      · cases h
    · cases h
  | drop =>
    simp only [step] at h
    split at h
    · next a err hpc =>
      obtain ⟨reg, hreg, rfl⟩ := onReg_eq_some.mp h
      exact .drop a err reg hpc hreg
    · cases h

end inversion

end HomeLlmGateway.Proxy.Routing
