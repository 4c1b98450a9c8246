import HomeLlmGateway.Proxy.Relay

/-! # A truncated response should not look complete

When a relay ends early the client has already seen a status 200, so the body itself has to say that it is
incomplete: its last item is an error, which aborts the body, or for an SSE response an error event. The
relay does attempt this at every end but one, and ignores whether the attempt succeeded. Nothing tells the
client in these cases (`Announced` excludes them):

* a send reaches its stall limit: the task goes on to its end, and a client that reads on finds a body
  that just ends (the comment in the code calls the closed channel an honest failure signal, but a channel
  that is closed without an error item ends the body normally, as `ForwardGuard` says);
* the gateway terminates while the last item waits for room;
* the gateway terminates and the response is not SSE: only SSE responses get a shutdown event.

In every other run the last item is the signal (`truncated_is_announced`). -/

namespace HomeLlmGateway.Proxy.Truncation

open HomeLlmGateway.Lib.Runs HomeLlmGateway.Lib.ByteCodec HomeLlmGateway.Proto.Frames
open HomeLlmGateway.Proto.Io (IoError)
open HomeLlmGateway.Proxy.Forward HomeLlmGateway.Proxy.Relay

/-- The last item says that the response is incomplete. -/
def EndsIncomplete (ctx : Ctx) (items : List Item) : Prop :=
  ∃ front item, items = front ++ [item] ∧ IsSignal ctx item

/-- The step is not one at which the signal is lost. -/
def Announced (ctx : Ctx) (s : State) : Label → Prop
  | .send ev => ev ≠ .stall
  | .shutdownChanged => ∀ item e, s.pc = .sendingSignal item e → s.shutdown.terminating = false
  | .loopTop => s.shutdown.terminating = true → ctx.isStream = true
  | _ => True

/-- Once the relay has an end other than `UpstreamEnd`, a client that is still there has the signal. -/
def SignalOk (ctx : Ctx) (s : State) : Prop :=
  match s.pc with
  | .announcing => ctx.isStream = true
  | .sendingSignal item _ => IsSignal ctx item
  | .abandoning _ => s.chan.rxAlive = true → EndsIncomplete ctx s.chan.handed
  | .done e => e ≠ .upstreamEnd → s.chan.rxAlive = true → EndsIncomplete ctx s.chan.handed
  | _ => True

section steps

variable {ctx : Ctx} {s s' : State}

theorem SignalOk.keep (h : SignalOk ctx s) (hpc : s'.pc = s.pc) (hc : s'.chan.handed = s.chan.handed)
    (hrx : s'.chan.rxAlive = true → s.chan.rxAlive = true) : SignalOk ctx s' := by
  unfold SignalOk at h ⊢
  rw [hpc, hc]
  cases hp : s.pc with
  | abandoning e => rw [hp] at h; exact fun hr => h (hrx hr)
  | done e => rw [hp] at h; exact fun he hr => h he (hrx hr)
  | announcing => rw [hp] at h; exact h
  | sendingSignal item e => rw [hp] at h; exact h
  | _ => trivial

theorem signalOk_afterSignal {e : ForwardEnd}
    (h : s.chan.rxAlive = true → EndsIncomplete ctx s.chan.handed) :
    SignalOk ctx (afterSignal ctx s e) := by
  obtain ⟨hpc, hc, -, -⟩ := afterSignal_spec ctx s e
  unfold SignalOk
  rw [hc]
  rcases hpc with hpc | hpc
  · rw [hpc]; exact h
  · rw [hpc]; exact fun _ => h

/-- A signal that was sent without reaching the stall limit is there, or the client is gone. -/
theorem endsIncomplete_of_sent {c c' : Channel} {item : Item} {ev : SendEvent} {o : SendOutcome}
    (hi : IsSignal ctx item) (hev : ev ≠ .stall) (h : c.sendToClient item ev = some (o, c')) :
    c'.rxAlive = true → EndsIncomplete ctx c'.handed := by
  intro hrx
  rcases sendToClient_cases h with ⟨-, -, hh, -⟩ | ⟨-, -, rfl, hgone⟩ | ⟨hst, -, -⟩
  · exact ⟨c.handed, item, hh, hi⟩
  · rw [hgone] at hrx
    cases hrx
  · exact absurd hst hev

theorem signalOk_chunkSent {ev : SendEvent} {o : SendOutcome} {c : Channel} {b : Bytes}
    (hev : ev ≠ .stall) (hc : s.chan.sendToClient (.ok b) ev = some (o, c)) :
    SignalOk ctx (afterChunk ctx { s with chan := c } b o) := by
  rcases sendToClient_cases hc with ⟨-, rfl, -, -⟩ | ⟨-, rfl, rfl, hgone⟩ | ⟨hst, -, -⟩
  · trivial
  · intro hrx
    change s.chan.rxAlive = true at hrx
    rw [hgone] at hrx
    cases hrx
  · exact absurd hst hev

/-- **An announced step keeps it.** -/
theorem signalOk_step {l : Label} (h : SignalOk ctx s) (hC : Announced ctx s l)
    (hs : step ctx s l = some s') : SignalOk ctx s' := by
  cases move_of_step ctx hs with
  | announce hpc ht hstream => exact hstream
  | shutdown hpc ht hstream => rw [hC ht] at hstream; cases hstream
  | upstreamEnd id rest hpc hu => exact fun he => absurd rfl he
  | signal r rest item e hpc hu hr => exact (signals_spec hr).1
  | idle hpc => exact Or.inl ⟨_, rfl⟩
  | clientClosed hpc hrx =>
    intro hr
    change s.chan.rxAlive = true at hr
    rw [hrx] at hr
    cases hr
  | retry w => exact h.keep rfl rfl fun hr => hr
  | stopSignal w item e hpc hw ht => rw [hC item e hpc] at ht; cases ht
  | announceSent ev o c hpc hc =>
    unfold SignalOk at h
    rw [hpc] at h
    have hi : IsSignal ctx _ := Or.inr ⟨h, Or.inl rfl⟩
    have hend := endsIncomplete_of_sent hi hC hc
    cases o <;> exact hend
  | chunkSent ev o c b hpc hc => exact signalOk_chunkSent hC hc
  | signalSent ev o c item e hpc hc =>
    unfold SignalOk at h
    rw [hpc] at h
    exact signalOk_afterSignal (endsIncomplete_of_sent h hC hc)
  | cancelled e hpc =>
    unfold SignalOk at h
    rw [hpc] at h
    exact fun _ => h
  | clientTake item rest hq => exact h.keep rfl (handed_clientTake hq) fun hr => hr
  | clientDrop => exact h.keep rfl rfl fun hr => by cases hr
  | advance next => exact h.keep rfl rfl fun hr => hr
  | controllerDrop => exact h.keep rfl rfl fun hr => hr
  | select | chunk | skip | wake | stopChunk | abort => trivial

end steps

/-- **A truncated response does not look complete**, in every run in which no send reaches its stall
limit, no shutdown is noticed while the last item waits, and no response that is not SSE meets a
shutdown: a relay that ended otherwise than by `UpstreamEnd`, with the client still there, handed on as
its last item an error or, for SSE, an error event. -/
theorem truncated_is_announced (ctx : Ctx) (cap : ℕ) (up : List (Except IoError (Option Frame)))
    (w : Watch) (ls : List Label) (hC : AllSteps (step ctx) (Announced ctx) (init ctx cap up w) ls)
    (s : State) (h : run (step ctx) (init ctx cap up w) ls = some s) (e : ForwardEnd)
    (hpc : s.pc = .done e) (he : e ≠ .upstreamEnd) (hrx : s.chan.rxAlive = true) :
    EndsIncomplete ctx s.chan.handed := by
  have hok : SignalOk ctx s := run_invariant_of (I := SignalOk ctx) (C := Announced ctx)
    (fun _ _ _ hi hc hs => signalOk_step hi hc hs) ls (init ctx cap up w) s trivial hC h
  unfold SignalOk at hok
  rw [hpc] at hok
  exact hok he hrx

instance (ctx : Ctx) : ∀ (s : State) (l : Label), Decidable (Announced ctx s l)
  | _, .send _ => inferInstanceAs (Decidable (_ ≠ _))
  | s, .shutdownChanged =>
    match hpc : s.pc with
    | .sendingSignal item e =>
      decidable_of_iff (s.shutdown.terminating = false)
        ⟨fun h _ _ _ => h, fun h => h item e hpc⟩
    | .top | .announcing | .selecting | .sendingChunk _ | .abandoning _ | .done _ | .aborted =>
      isTrue fun item e h => by rw [hpc] at h; cases h
  | _, .loopTop => inferInstanceAs (Decidable (_ → _))
  | _, .read | _, .idle | _, .txClosed | _, .cancelled | _, .clientTake | _, .clientDrop
  | _, .advance _ | _, .controllerDrop | _, .abort => isTrue trivial

/-- The agent closes the stream after one chunk: the body ends with an error. -/
theorem truncated_is_announced_closed :
    ∃ s, run (step (plainCtx false)) (init (plainCtx false) 32
        [.ok (some (.proxyResponseBody 1 [97])), .ok none] runningWatch)
        [.loopTop, .read, .send .room, .loopTop, .read, .send .room] = some s ∧
      s.pc = .done .upstreamClosed ∧ EndsIncomplete (plainCtx false) s.chan.handed := by
  refine ⟨_, rfl, rfl, ?_⟩
  exact truncated_is_announced (plainCtx false) 32
    [.ok (some (.proxyResponseBody 1 [97])), .ok none] runningWatch
    [.loopTop, .read, .send .room, .loopTop, .read, .send .room] (by decide) _ rfl _ rfl
    (by simp) rfl

/-- A response that is not SSE, one chunk of it relayed when the gateway terminates: the body ends after
the chunk, as a completed one does. -/
theorem shutdown_truncates_silently :
    ¬ ∀ (ctx : Ctx) (cap : ℕ) (up : List (Except IoError (Option Frame))) (w : Watch)
        (ls : List Label) (s : State), run (step ctx) (init ctx cap up w) ls = some s →
        ∀ e, s.pc = .done e → e ≠ .upstreamEnd → s.chan.rxAlive = true →
          EndsIncomplete ctx s.chan.handed := by
  intro hall
  obtain ⟨s, hrun, hpc, hrx, hh⟩ : ∃ s, run (step (plainCtx false)) (init (plainCtx false) 32
      [.ok (some (.proxyResponseBody 1 [97])), .ok (some (.proxyResponseEnd 1 true))] runningWatch)
      [.loopTop, .read, .send .room, .advance .draining, .advance .terminating, .loopTop,
        .cancelled] = some s ∧
      s.pc = .done .gatewayShutdown ∧ s.chan.rxAlive = true ∧ s.chan.handed = [.ok [97]] :=
    ⟨_, rfl, rfl, rfl, rfl⟩
  obtain ⟨front, item, hitems, hsig⟩ := hall _ _ _ _ _ s hrun _ hpc (by simp) hrx
  have hitem : item = .ok [97] := by
    have hlast := congrArg List.getLast? (hh.symm.trans hitems)
    rw [List.getLast?_concat] at hlast
    exact (Option.some.inj hlast).symm
  subst hitem
  rcases hsig with ⟨message, hm⟩ | ⟨hstream, -⟩
  · cases hm
  · cases hstream

end HomeLlmGateway.Proxy.Truncation
