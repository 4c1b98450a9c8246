import HomeLlmGateway.Lib.Runs
import HomeLlmGateway.Proto.Io
import HomeLlmGateway.Proxy.Usage

/-! # Relaying a response

`forward_body` (`gateway/src/proxy/forward.rs`): the task that turns the frames of an agent into the
items of a response body. It is a step function. The state is where the task stands (`Pc`), the channel
to the HTTP client, the receiver of the shutdown phase, and what the reader will yield; a label says
which branch of the current `select!` completes, or what the client, the controller or the runtime does.
Any label that is possible may come next, so every order of the branches, every reading pace and every
moment of a shutdown is a run.

The frames come from a `FrameReader`, whose results do not depend on how often a pending `next` is
dropped (`Proto.Io.next_spec`); so they are a list, and a `select!` that another branch wins takes
nothing from it. -/

namespace HomeLlmGateway.Proxy.Forward

open HomeLlmGateway.Lib.ByteCodec HomeLlmGateway.Proto.Frames
open HomeLlmGateway.Proto.Io (IoError)
open HomeLlmGateway.Storage.Usage (UsageDelta)
open HomeLlmGateway.Proxy.Usage

/-! ### Client channel and shutdown phase -/

/-- An item of the response body: a chunk, or an error that aborts the body. -/
abbrev Item := Except String Bytes

/-- The bounded channel between `forward_body` and the HTTP client. -/
structure Channel where
  cap : ℕ
  /-- sent, not yet taken -/
  queue : List Item
  /-- taken by the receiver, in order -/
  taken : List Item
  rxAlive : Bool
  deriving DecidableEq

/-- All items that entered the channel, in order: what a receiver that stays drains from it. -/
def Channel.handed (c : Channel) : List Item := c.taken ++ c.queue

/-- `ShutdownPhase`. -/
inductive ShutdownPhase where
  | running
  | draining
  | terminating
  deriving DecidableEq

def ShutdownPhase.rank : ShutdownPhase → ℕ
  | .running => 0
  | .draining => 1
  | .terminating => 2

/-- `watch::Receiver<ShutdownPhase>`. -/
structure Watch where
  value : ShutdownPhase
  /-- the controller is gone -/
  closed : Bool
  /-- a value that `changed` has not reported yet -/
  unseen : Bool
  deriving DecidableEq

/-- `shutdown_terminating`. -/
def Watch.terminating (w : Watch) : Bool := w.value == .terminating || w.closed

/-- `changed`, if it completes: whether it is `Ok`, and the receiver after it. -/
def Watch.changed (w : Watch) : Option (Bool × Watch) :=
  if w.unseen then some (true, { w with unseen := false })
  else if w.closed then some (false, w)
  else none

/-- `Controller::advance`: forward only, no notification otherwise. -/
def Watch.advance (w : Watch) (next : ShutdownPhase) : Watch :=
  if w.value.rank < next.rank then { w with value := next, unseen := true } else w

/-! ### Outcomes -/

/-- `SendOutcome`. -/
inductive SendOutcome where
  | delivered
  | clientGone
  | stalled
  | shuttingDown
  deriving DecidableEq

/-- `ForwardEnd`. -/
inductive ForwardEnd where
  | upstreamEnd
  | upstreamTruncated
  | upstreamError
  | upstreamClosed
  | tunnelError
  | idleTimeout
  | clientGone
  | clientStalled
  | gatewayShutdown
  | protocolViolation
  deriving DecidableEq

/-- `SHUTDOWN_SSE_EVENT`. -/
def shutdownSseEvent : Bytes :=
  ("event: error\ndata: \x7b\"error\":\x7b\"message\":\"gateway is shutting down; this response is " ++
    "incomplete\",\"type\":\"server_error\"\x7d\x7d\n\n").toUTF8.data.toList

/-- `TRUNCATED_SSE_EVENT`. -/
def truncatedSseEvent : Bytes :=
  ("event: error\ndata: \x7b\"error\":\x7b\"message\":\"upstream ended the response early; this " ++
    "response is incomplete\",\"type\":\"server_error\"\x7d\x7d\n\n").toUTF8.data.toList

/-- `upstream_end_signal`. -/
def upstreamEndSignal (ok isStream : Bool) : Option Item :=
  if ok then none
  else some (if isStream then .ok truncatedSseEvent
    else .error "upstream ended the response early; this response is incomplete")

/-- What the task does to the request half of its stream. -/
inductive TunnelOp where
  /-- a `Cancel` frame was attempted -/
  | cancel
  | finish
  deriving DecidableEq

/-! ### The task -/

/-- What stays fixed during one relay. -/
structure Ctx where
  requestId : UInt64
  promptEst : UInt64
  isStream : Bool
  extractUsage : Bytes → Option ExtractedUsage

/-- Where `forward_body` stands. -/
inductive Pc where
  /-- the top of the loop -/
  | top
  /-- sending `SHUTDOWN_SSE_EVENT` -/
  | announcing
  /-- the `select!` over reader, client and shutdown -/
  | selecting
  /-- sending a chunk -/
  | sendingChunk (chunk : Bytes)
  /-- sending the last item of a relay that ends with `e` -/
  | sendingSignal (item : Item) (e : ForwardEnd)
  /-- in `abandon`, waiting for the `Cancel` frame -/
  | abandoning (e : ForwardEnd)
  | done (e : ForwardEnd)
  /-- the task panicked or was dropped -/
  | aborted
  deriving DecidableEq

/-- The task, its channel, its shutdown receiver and its counters. -/
structure State where
  pc : Pc
  /-- the results of `reader.next()` to come -/
  upstream : List (Except IoError (Option Frame))
  chan : Channel
  shutdown : Watch
  usage : UsageCollector
  /-- `accumulate_usage` calls of this request -/
  ledger : List UsageDelta
  send : List TunnelOp
  clientStalls : ℕ
  bytesOut : ℕ

/-- The relay starts with an empty channel; the shutdown receiver may be in any state. -/
def init (ctx : Ctx) (cap : ℕ) (upstream : List (Except IoError (Option Frame))) (w : Watch) : State where
  pc := .top
  upstream := upstream
  chan := ⟨cap, [], [], true⟩
  shutdown := w
  usage := .new ctx.promptEst ctx.isStream
  ledger := []
  send := []
  clientStalls := 0
  bytesOut := 0

section

variable (ctx : Ctx)

/-- `usage.finish()`, and the relay has ended with `e`. -/
def endWith (s : State) (e : ForwardEnd) : State :=
  { s with pc := .done e, ledger := s.usage.finish ctx.extractUsage s.ledger }

/-- After the attempt to send a last item: what the branch of `e` does whatever the outcome was. -/
def afterSignal (s : State) : ForwardEnd → State
  | .protocolViolation => { s with pc := .abandoning .protocolViolation }
  | .idleTimeout => { s with pc := .abandoning .idleTimeout }
  | .upstreamClosed => endWith ctx s .upstreamClosed
  | .tunnelError => endWith ctx s .tunnelError
  | e => endWith ctx { s with send := s.send ++ [.finish] } e

/-- The chunk is accounted for. -/
def observed (s : State) (chunk : Bytes) : State :=
  { s with usage := s.usage.observe ctx.extractUsage chunk }

/-- After `send_to_client_or_shutdown` of a chunk. -/
def afterChunk (s : State) (chunk : Bytes) : SendOutcome → State
  | .delivered => { observed ctx s chunk with pc := .top, bytesOut := s.bytesOut + chunk.length }
  | .shuttingDown => { observed ctx s chunk with pc := .top }
  | .clientGone => { observed ctx s chunk with pc := .abandoning .clientGone }
  | .stalled => { observed ctx s chunk with
      pc := .abandoning .clientStalled
      clientStalls := s.clientStalls + 1 }

/-- After `send_to_client` of `SHUTDOWN_SSE_EVENT`. -/
def afterAnnounce (s : State) : SendOutcome → State
  | .stalled => { s with pc := .abandoning .gatewayShutdown, clientStalls := s.clientStalls + 1 }
  | _ => { s with pc := .abandoning .gatewayShutdown }

/-- `send_to_client_or_shutdown` of a last item begins. -/
def signal (s : State) (item : Item) (e : ForwardEnd) : State := { s with pc := .sendingSignal item e }

/-- The `match frame` after the `select!`, for a result of the reader. -/
def onFrame (s : State) : Except IoError (Option Frame) → State
  | .ok (some (.proxyResponseBody _ chunk)) =>
    if maxResponseChunk < chunk.length then
      signal s (.error "upstream sent an oversized response chunk") .protocolViolation
    else { s with pc := .sendingChunk chunk }
  | .ok (some (.proxyResponseEnd _ ok)) =>
    match upstreamEndSignal ok ctx.isStream with
    | some item => signal s item .upstreamTruncated
    | none => endWith ctx { s with send := s.send ++ [.finish] } .upstreamEnd
  | .ok (some (.error _ code message)) =>
    signal s (.error ("upstream error " ++ toString code ++ ": " ++ message)) .upstreamError
  | .ok (some _) => { s with pc := .top }
  | .ok none => signal s (.error "upstream closed the stream early") .upstreamClosed
  | .error e => signal s (.error ("tunnel read failed: " ++ e.message)) .tunnelError

/-- How a pending `send_to_client` completes. -/
inductive SendEvent where
  /-- there is room in the channel -/
  | room
  /-- the receiver is gone -/
  | gone
  /-- the stall limit has passed with the channel full -/
  | stall
  deriving DecidableEq

/-- `send_to_client`, when it completes. -/
def Channel.sendToClient (c : Channel) (item : Item) : SendEvent → Option (SendOutcome × Channel)
  | .room =>
    if c.rxAlive && c.queue.length < c.cap then
      some (.delivered, { c with queue := c.queue ++ [item] })
    else none
  | .gone => if c.rxAlive then none else some (.clientGone, c)
  | .stall => if c.rxAlive && c.cap ≤ c.queue.length then some (.stalled, c) else none

/-- `ForwardGuard::drop` of an armed guard: a `try_send`. -/
def Channel.trySendPanicked (c : Channel) : Channel :=
  if c.rxAlive && c.queue.length < c.cap then
    { c with queue := c.queue ++ [.error ("internal error: the gateway's forwarding task panicked; " ++
      "this response is incomplete")] }
  else c

/-- What happens next. -/
inductive Label where
  /-- the check at the top of the loop -/
  | loopTop
  /-- `reader.next()` yields -/
  | read
  /-- `idle_timeout` passes without a frame -/
  | idle
  /-- `tx.closed()` -/
  | txClosed
  /-- `shutdown.changed()` -/
  | shutdownChanged
  /-- the pending send completes -/
  | send (ev : SendEvent)
  /-- the `Cancel` frame is written, or given up -/
  | cancelled
  /-- the client takes an item -/
  | clientTake
  /-- the client drops its receiver -/
  | clientDrop
  /-- `Controller::begin_drain`, `Controller::terminate` -/
  | advance (next : ShutdownPhase)
  /-- the gateway, and with it the controller, is dropped -/
  | controllerDrop
  /-- the task panics or is dropped -/
  | abort
  deriving DecidableEq

/-- The task is over. -/
def Pc.over : Pc → Bool
  | .done _ => true
  | .aborted => true
  | _ => false

/-- One step. -/
def step (s : State) : Label → Option State
  | .loopTop =>
    match s.pc with
    | .top =>
      if s.shutdown.terminating then
        if ctx.isStream then some { s with pc := .announcing }
        else some { s with pc := .abandoning .gatewayShutdown }
      else some { s with pc := .selecting }
    | _ => none
  | .read =>
    match s.pc, s.upstream with
    | .selecting, r :: rest => some (onFrame ctx { s with upstream := rest } r)
    | _, _ => none
  | .idle =>
    match s.pc with
    | .selecting => some (signal s (.error "upstream idle timeout") .idleTimeout)
    | _ => none
  | .txClosed =>
    match s.pc with
    | .selecting =>
      if s.chan.rxAlive then none else some { s with pc := .abandoning .clientGone }
    | _ => none
  | .shutdownChanged =>
    match s.shutdown.changed with
    | none => none
    | some (ok, w) =>
      match s.pc with
      | .selecting => some { s with shutdown := w, pc := .top }
      -- `send_to_client_or_shutdown`: only the last phase gives the item up
      | .sendingChunk chunk =>
        if !ok || w.terminating then some (afterChunk ctx { s with shutdown := w } chunk .shuttingDown)
        else some { s with shutdown := w }
      | .sendingSignal _ e =>
        if !ok || w.terminating then some (afterSignal ctx { s with shutdown := w } e)
        else some { s with shutdown := w }
      | _ => none
  | .send ev =>
    match s.pc with
    | .announcing =>
      (s.chan.sendToClient (.ok shutdownSseEvent) ev).map fun (o, c) =>
        afterAnnounce { s with chan := c } o
    | .sendingChunk chunk =>
      (s.chan.sendToClient (.ok chunk) ev).map fun (o, c) =>
        afterChunk ctx { s with chan := c } chunk o
    | .sendingSignal item e =>
      (s.chan.sendToClient item ev).map fun (_, c) => afterSignal ctx { s with chan := c } e
    | _ => none
  | .cancelled =>
    match s.pc with
    | .abandoning e => some (endWith ctx { s with send := s.send ++ [.cancel, .finish] } e)
    | _ => none
  | .clientTake =>
    match s.chan.queue with
    | item :: rest =>
      if s.chan.rxAlive then
        some { s with chan := { s.chan with queue := rest, taken := s.chan.taken ++ [item] } }
      else none
    | [] => none
  | .clientDrop =>
    if s.chan.rxAlive then some { s with chan := { s.chan with rxAlive := false } } else none
  | .advance next =>
    if s.shutdown.closed then none else some { s with shutdown := s.shutdown.advance next }
  | .controllerDrop =>
    if s.shutdown.closed then none else some { s with shutdown := { s.shutdown with closed := true } }
  | .abort =>
    if s.pc.over then none
    else some { s with
      pc := .aborted
      ledger := s.usage.drop ctx.extractUsage s.ledger
      chan := s.chan.trySendPanicked }

/-! ### What a step can do -/

/-- A result of the reader that makes the relay end with `e`, announced by `item`. -/
inductive Signals : Except IoError (Option Frame) → Item → ForwardEnd → Prop
  | oversized (id : UInt64) (chunk : Bytes) (h : maxResponseChunk < chunk.length) :
      Signals (.ok (some (.proxyResponseBody id chunk)))
        (.error "upstream sent an oversized response chunk") .protocolViolation
  | truncated (id : UInt64) (item : Item) (h : upstreamEndSignal false ctx.isStream = some item) :
      Signals (.ok (some (.proxyResponseEnd id false))) item .upstreamTruncated
  | error (id : Option UInt64) (code : UInt16) (message : String) :
      Signals (.ok (some (.error id code message)))
        (.error ("upstream error " ++ toString code ++ ": " ++ message)) .upstreamError
  | closed : Signals (.ok none) (.error "upstream closed the stream early") .upstreamClosed
  | failed (e : IoError) :
      Signals (.error e) (.error ("tunnel read failed: " ++ e.message)) .tunnelError

/-- A frame that is no part of a response body. -/
def Ignored : Except IoError (Option Frame) → Prop
  | .ok (some (.proxyResponseBody _ _)) => False
  | .ok (some (.proxyResponseEnd _ _)) => False
  | .ok (some (.error _ _ _)) => False
  | .ok (some _) => True
  | _ => False

/-- What a step can do. -/
inductive Move (s : State) : Label → State → Prop
  | select (hpc : s.pc = .top) (ht : s.shutdown.terminating = false) :
      Move s .loopTop { s with pc := .selecting }
  | announce (hpc : s.pc = .top) (ht : s.shutdown.terminating = true) (hs : ctx.isStream = true) :
      Move s .loopTop { s with pc := .announcing }
  | shutdown (hpc : s.pc = .top) (ht : s.shutdown.terminating = true) (hs : ctx.isStream = false) :
      Move s .loopTop { s with pc := .abandoning .gatewayShutdown }
  | chunk (id : UInt64) (c : Bytes) (rest : List (Except IoError (Option Frame)))
      (hpc : s.pc = .selecting) (hu : s.upstream = .ok (some (.proxyResponseBody id c)) :: rest) :
      Move s .read { s with upstream := rest, pc := .sendingChunk c }
  | upstreamEnd (id : UInt64) (rest : List (Except IoError (Option Frame)))
      (hpc : s.pc = .selecting) (hu : s.upstream = .ok (some (.proxyResponseEnd id true)) :: rest) :
      Move s .read
        (endWith ctx { s with upstream := rest, send := s.send ++ [.finish] } .upstreamEnd)
  | signal (r : Except IoError (Option Frame)) (rest : List (Except IoError (Option Frame)))
      (item : Item) (e : ForwardEnd) (hpc : s.pc = .selecting) (hu : s.upstream = r :: rest)
      (hr : Signals ctx r item e) :
      Move s .read (signal { s with upstream := rest } item e)
  | skip (r : Except IoError (Option Frame)) (rest : List (Except IoError (Option Frame)))
      (hpc : s.pc = .selecting) (hu : s.upstream = r :: rest) (hr : Ignored r) :
      Move s .read { s with upstream := rest, pc := .top }
  | idle (hpc : s.pc = .selecting) :
      Move s .idle (signal s (.error "upstream idle timeout") .idleTimeout)
  | clientClosed (hpc : s.pc = .selecting) (hrx : s.chan.rxAlive = false) :
      Move s .txClosed { s with pc := .abandoning .clientGone }
  | wake (w : Watch) (hpc : s.pc = .selecting) (hw : w.terminating = s.shutdown.terminating) :
      Move s .shutdownChanged { s with shutdown := w, pc := .top }
  | retry (w : Watch) (hw : w.terminating = s.shutdown.terminating)
      (ht : s.shutdown.terminating = false) : Move s .shutdownChanged { s with shutdown := w }
  | stopChunk (w : Watch) (c : Bytes) (hpc : s.pc = .sendingChunk c)
      (hw : w.terminating = s.shutdown.terminating) (ht : s.shutdown.terminating = true) :
      Move s .shutdownChanged { observed ctx { s with shutdown := w } c with pc := .top }
  | stopSignal (w : Watch) (item : Item) (e : ForwardEnd) (hpc : s.pc = .sendingSignal item e)
      (hw : w.terminating = s.shutdown.terminating) (ht : s.shutdown.terminating = true) :
      Move s .shutdownChanged (afterSignal ctx { s with shutdown := w } e)
  | announceSent (ev : SendEvent) (o : SendOutcome) (c : Channel) (hpc : s.pc = .announcing)
      (hc : s.chan.sendToClient (.ok shutdownSseEvent) ev = some (o, c)) :
      Move s (.send ev) (afterAnnounce { s with chan := c } o)
  | chunkSent (ev : SendEvent) (o : SendOutcome) (c : Channel) (b : Bytes)
      (hpc : s.pc = .sendingChunk b) (hc : s.chan.sendToClient (.ok b) ev = some (o, c)) :
      Move s (.send ev) (afterChunk ctx { s with chan := c } b o)
  | signalSent (ev : SendEvent) (o : SendOutcome) (c : Channel) (item : Item) (e : ForwardEnd)
      (hpc : s.pc = .sendingSignal item e) (hc : s.chan.sendToClient item ev = some (o, c)) :
      Move s (.send ev) (afterSignal ctx { s with chan := c } e)
  | cancelled (e : ForwardEnd) (hpc : s.pc = .abandoning e) :
      Move s .cancelled (endWith ctx { s with send := s.send ++ [.cancel, .finish] } e)
  | clientTake (item : Item) (rest : List Item) (hq : s.chan.queue = item :: rest) :
      Move s .clientTake
        { s with chan := { s.chan with queue := rest, taken := s.chan.taken ++ [item] } }
  | clientDrop : Move s .clientDrop { s with chan := { s.chan with rxAlive := false } }
  | advance (next : ShutdownPhase) :
      Move s (.advance next) { s with shutdown := s.shutdown.advance next }
  | controllerDrop : Move s .controllerDrop { s with shutdown := { s.shutdown with closed := true } }
  | abort (hpc : s.pc.over = false) :
      Move s .abort { s with
        pc := .aborted
        ledger := s.usage.drop ctx.extractUsage s.ledger
        chan := s.chan.trySendPanicked }

theorem terminating_changed {w w' : Watch} {ok : Bool} (h : w.changed = some (ok, w')) :
    w'.terminating = w.terminating ∧ (ok = false → w.terminating = true) := by
  unfold Watch.changed at h
  split_ifs at h with h1 h2
  · cases h
    exact ⟨rfl, by simp⟩
  · cases h
    exact ⟨rfl, fun _ => by simp [Watch.terminating, h2]⟩

/-- `send_to_client_or_shutdown` gives up exactly when the gateway terminates. -/
theorem gives_up_iff {w w' : Watch} {ok : Bool} (h : w.changed = some (ok, w')) :
    (!ok || w'.terminating) = w.terminating := by
  obtain ⟨h1, h2⟩ := terminating_changed h
  cases ok with
  | true => simpa using h1
  | false => rw [h2 rfl]; rfl

theorem move_read {s : State} {r : Except IoError (Option Frame)}
    {rest : List (Except IoError (Option Frame))} (hpc : s.pc = .selecting)
    (hu : s.upstream = r :: rest) : Move ctx s .read (onFrame ctx { s with upstream := rest } r) := by
  match r with
  | .error e => exact .signal _ rest _ _ hpc hu (.failed e)
  | .ok none => exact .signal _ rest _ _ hpc hu .closed
  | .ok (some (.proxyResponseBody id c)) =>
    simp only [onFrame]
    split_ifs with hlen
    · exact .signal _ rest _ _ hpc hu (.oversized id c hlen)
    · exact .chunk id c rest hpc hu
  | .ok (some (.proxyResponseEnd id true)) => exact .upstreamEnd id rest hpc hu
  | .ok (some (.proxyResponseEnd id false)) =>
    exact .signal _ rest _ _ hpc hu (.truncated id _ rfl)
  | .ok (some (.error id code message)) => exact .signal _ rest _ _ hpc hu (.error id code message)
  | .ok (some (.register ..)) => exact .skip _ rest hpc hu trivial
  | .ok (some (.heartbeat ..)) => exact .skip _ rest hpc hu trivial
  | .ok (some (.proxyRequest ..)) => exact .skip _ rest hpc hu trivial
  | .ok (some (.proxyResponseHead ..)) => exact .skip _ rest hpc hu trivial
  | .ok (some (.cancel ..)) => exact .skip _ rest hpc hu trivial
  | .ok (some (.registerWithTenant ..)) => exact .skip _ rest hpc hu trivial

theorem move_shutdownChanged {s s' : State} (h : step ctx s .shutdownChanged = some s') :
    Move ctx s .shutdownChanged s' := by
  simp only [step] at h
  split at h
  · cases h
  · next ok w hw =>
    have hterm := (terminating_changed hw).1
    have hgive := gives_up_iff hw
    split at h
    · next hpc => cases h; exact .wake w hpc hterm
    · next c hpc =>
      rw [hgive] at h
      split_ifs at h with ht
      · cases h; exact .stopChunk w c hpc hterm ht
      · cases h; exact .retry w hterm (by simpa using ht)
    · next item e hpc =>
      rw [hgive] at h
      split_ifs at h with ht
      · cases h; exact .stopSignal w item e hpc hterm ht
      · cases h; exact .retry w hterm (by simpa using ht)
    · cases h

theorem move_send {s s' : State} {ev : SendEvent} (h : step ctx s (.send ev) = some s') :
    Move ctx s (.send ev) s' := by
  simp only [step] at h
  split at h
  · next hpc =>
    obtain ⟨⟨o, c⟩, hc, rfl⟩ := Option.map_eq_some_iff.mp h
    exact .announceSent ev o c hpc hc
  · next b hpc =>
    obtain ⟨⟨o, c⟩, hc, rfl⟩ := Option.map_eq_some_iff.mp h
    exact .chunkSent ev o c b hpc hc
  · next item e hpc =>
    obtain ⟨⟨o, c⟩, hc, rfl⟩ := Option.map_eq_some_iff.mp h
    exact .signalSent ev o c item e hpc hc
  · cases h

/-- **Inversion of a step.** -/
theorem move_of_step {s s' : State} {l : Label} (h : step ctx s l = some s') : Move ctx s l s' := by
  cases l with
  | loopTop =>
    simp only [step] at h
    split at h
    · next hpc =>
      split_ifs at h with ht hs
      · cases h; exact .announce hpc ht hs
      · cases h; exact .shutdown hpc ht (by simpa using hs)
      · cases h; exact .select hpc (by simpa using ht)
    · cases h
  | read =>
    simp only [step] at h
    split at h
    · next r rest hpc hu => cases h; exact move_read ctx hpc hu
    · cases h
  | idle =>
    simp only [step] at h
    split at h
    · next hpc => cases h; exact .idle hpc
    · cases h
  | txClosed =>
    simp only [step] at h
    split at h
    · next hpc =>
      split_ifs at h with hrx
      cases h
      exact .clientClosed hpc (by simpa using hrx)
    · cases h
  | shutdownChanged => exact move_shutdownChanged ctx h
  | send ev => exact move_send ctx h
  | cancelled =>
    simp only [step] at h
    split at h
    · next e hpc => cases h; exact .cancelled e hpc
    · cases h
  | clientTake =>
    simp only [step] at h
    split at h
    · next item rest hq =>
      split_ifs at h
      cases h
      exact .clientTake item rest hq
    · cases h
  | clientDrop =>
    simp only [step] at h
    split_ifs at h
    cases h
    exact .clientDrop
  | advance next =>
    simp only [step] at h
    split_ifs at h
    cases h
    exact .advance next
  | controllerDrop =>
    simp only [step] at h
    split_ifs at h
    cases h
    exact .controllerDrop
  | abort =>
    simp only [step] at h
    split_ifs at h with hpc
    cases h
    exact .abort (by simpa using hpc)

end

end HomeLlmGateway.Proxy.Forward
