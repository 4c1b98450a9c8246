import HomeLlmGateway.Proxy.Forward

/-! # Relay fidelity

What a relay hands to the client is a beginning of what the agent sent, in order and without a gap, and
after it at most the signal that the response is incomplete. `Shape` is the invariant: the results read so
far, the chunks handed on, the signal, and the chunk given up, if any; a chunk is given up only because
the client is gone or stalled, the agent broke the protocol, or the gateway terminates. Draining gives
up nothing. The request's usage is settled once, when the relay is over (`Settling`). -/

namespace HomeLlmGateway.Proxy.Relay

open HomeLlmGateway.Lib.Runs HomeLlmGateway.Lib.ByteCodec HomeLlmGateway.Proto.Frames
open HomeLlmGateway.Proto.Io (IoError)
open HomeLlmGateway.Proxy.Usage HomeLlmGateway.Proxy.Forward

/-! ### Frames and items -/

/-- The chunk of a body frame. -/
def bodyChunk : Except IoError (Option Frame) → Option Bytes
  | .ok (some (.proxyResponseBody _ chunk)) => some chunk
  | _ => none

/-- The chunks of the body frames, in order. -/
def bodyChunks (rs : List (Except IoError (Option Frame))) : List Bytes := rs.filterMap bodyChunk

/-- The result is a `ProxyResponseEnd`. -/
def isEnd : Except IoError (Option Frame) → Bool
  | .ok (some (.proxyResponseEnd _ _)) => true
  | _ => false

/-- No `ProxyResponseEnd` among the results. -/
def NoEnd (rs : List (Except IoError (Option Frame))) : Prop := ∀ r ∈ rs, isEnd r = false

/-- An item that tells the client that the response is incomplete. -/
def IsSignal (ctx : Ctx) (item : Item) : Prop :=
  (∃ message, item = .error message) ∨
    ctx.isStream = true ∧ (item = .ok shutdownSseEvent ∨ item = .ok truncatedSseEvent)

theorem bodyChunks_append (as bs : List (Except IoError (Option Frame))) :
    bodyChunks (as ++ bs) = bodyChunks as ++ bodyChunks bs := List.filterMap_append

theorem NoEnd.concat {rs : List (Except IoError (Option Frame))} {r : Except IoError (Option Frame)}
    (h : NoEnd rs) (hr : isEnd r = false) : NoEnd (rs ++ [r]) := by
  intro x hx
  rcases List.mem_append.mp hx with hx | hx
  · exact h x hx
  · rw [List.mem_singleton.mp hx]
    exact hr

theorem ignored_spec {r : Except IoError (Option Frame)} (h : Ignored r) :
    bodyChunks [r] = [] ∧ isEnd r = false := by
  unfold Ignored at h
  split at h <;> first | exact h.elim | skip
  next f h1 h2 h3 =>
    cases f with
    | proxyResponseBody id c => exact absurd rfl (h1 id c)
    | proxyResponseEnd id ok => exact absurd rfl (h2 id ok)
    | _ => exact ⟨rfl, rfl⟩

/-- A result that ends the relay early carries no chunk, unless the chunk is what is wrong with it. -/
theorem signals_spec {ctx : Ctx} {r : Except IoError (Option Frame)} {item : Item} {e : ForwardEnd}
    (h : Signals ctx r item e) : IsSignal ctx item ∧ e ≠ .upstreamEnd ∧ e ≠ .gatewayShutdown ∧
      (bodyChunks [r] = [] ∨ e = .protocolViolation ∧ ∃ c, bodyChunks [r] = [c]) := by
  cases h with
  | oversized id c hlen =>
    exact ⟨Or.inl ⟨_, rfl⟩, by simp, by simp, Or.inr ⟨rfl, c, rfl⟩⟩
  | truncated id item hitem =>
    refine ⟨?_, by simp, by simp, Or.inl rfl⟩
    cases hs : ctx.isStream with
    | true =>
      simp only [upstreamEndSignal, hs] at hitem
      cases hitem
      exact Or.inr ⟨hs, Or.inr rfl⟩
    | false =>
      simp only [upstreamEndSignal, hs] at hitem
      cases hitem
      exact Or.inl ⟨_, rfl⟩
  | error id code message => exact ⟨Or.inl ⟨_, rfl⟩, by simp, by simp, Or.inl rfl⟩
  | closed => exact ⟨Or.inl ⟨_, rfl⟩, by simp, by simp, Or.inl rfl⟩
  | failed e => exact ⟨Or.inl ⟨_, rfl⟩, by simp, by simp, Or.inl rfl⟩

/-! ### Sending -/

theorem sendToClient_cases {c c' : Channel} {item : Item} {ev : SendEvent} {o : SendOutcome}
    (h : c.sendToClient item ev = some (o, c')) :
    (ev = .room ∧ o = .delivered ∧ c'.handed = c.handed ++ [item] ∧ c'.rxAlive = c.rxAlive) ∨
      (ev = .gone ∧ o = .clientGone ∧ c' = c ∧ c.rxAlive = false) ∨
      (ev = .stall ∧ o = .stalled ∧ c' = c) := by
  cases ev with
  | room =>
    simp only [Channel.sendToClient] at h
    split_ifs at h
    cases h
    exact Or.inl ⟨rfl, rfl, by simp [Channel.handed], rfl⟩
  | gone =>
    simp only [Channel.sendToClient] at h
    split_ifs at h with hrx
    cases h
    exact Or.inr (Or.inl ⟨rfl, rfl, rfl, by simpa using hrx⟩)
  | stall =>
    simp only [Channel.sendToClient] at h
    split_ifs at h
    cases h
    exact Or.inr (Or.inr ⟨rfl, rfl, rfl⟩)

theorem handed_clientTake {c : Channel} {item : Item} {rest : List Item} (h : c.queue = item :: rest) :
    Channel.handed { c with queue := rest, taken := c.taken ++ [item] } = c.handed := by
  simp [Channel.handed, h]

theorem handed_trySendPanicked (c : Channel) :
    c.trySendPanicked.handed = c.handed ∨
      ∃ message, c.trySendPanicked.handed = c.handed ++ [.error message] := by
  unfold Channel.trySendPanicked
  split_ifs
  · exact Or.inr ⟨_, (List.append_assoc _ _ _).symm⟩
  · exact Or.inl rfl

theorem afterSignal_spec (ctx : Ctx) (s : State) (e : ForwardEnd) :
    ((afterSignal ctx s e).pc = .abandoning e ∨ (afterSignal ctx s e).pc = .done e) ∧
      (afterSignal ctx s e).chan = s.chan ∧ (afterSignal ctx s e).upstream = s.upstream ∧
      (afterSignal ctx s e).shutdown = s.shutdown := by
  cases e <;> simp [afterSignal, endWith]

/-! ### The invariant -/

/-- The chunk being sent. -/
def inFlight : Pc → List Bytes
  | .sendingChunk c => [c]
  | _ => []

/-- The ends at which the chunk last read is not handed on although the gateway does not terminate. -/
def lossy : ForwardEnd → Bool
  | .clientGone => true
  | .clientStalled => true
  | .protocolViolation => true
  | _ => false

/-- What an end other than `UpstreamEnd` says about shutdown and loss. -/
def EndOk (e : ForwardEnd) (terminating : Bool) (lost : List Bytes) : Prop :=
  terminating = false → e ≠ .gatewayShutdown ∧ (lossy e = false → lost = [])

/-- What holds at each point of the task of the results read, the signal sent and the chunk given up. -/
def PcOk (ctx : Ctx) (pc : Pc) (terminating : Bool) (read : List (Except IoError (Option Frame)))
    (tail : List Item) (lost : List Bytes) : Prop :=
  match pc with
  | .top => tail = [] ∧ NoEnd read ∧ (terminating = false → lost = [])
  | .announcing => tail = [] ∧ terminating = true ∧ ctx.isStream = true
  | .selecting => tail = [] ∧ NoEnd read ∧ lost = []
  | .sendingChunk _ => tail = [] ∧ NoEnd read ∧ lost = []
  | .sendingSignal item e =>
    tail = [] ∧ IsSignal ctx item ∧ e ≠ .upstreamEnd ∧ EndOk e terminating lost
  | .abandoning e => tail.length ≤ 1 ∧ e ≠ .upstreamEnd ∧ EndOk e terminating lost
  | .done e => tail.length ≤ 1 ∧ EndOk e terminating lost ∧ (e = .upstreamEnd →
      tail = [] ∧ lost = [] ∧ ∃ pre id, read = pre ++ [.ok (some (.proxyResponseEnd id true))] ∧ NoEnd pre)
  | .aborted => True

/-- **The invariant of a relay** of the results `up`: what was read, handed on, signalled, given up. -/
structure Shape (ctx : Ctx) (up : List (Except IoError (Option Frame))) (s : State)
    (read : List (Except IoError (Option Frame))) (chunks : List Bytes) (tail : List Item)
    (lost : List Bytes) : Prop where
  split : up = read ++ s.upstream
  handed : s.chan.handed = chunks.map .ok ++ tail
  bodies : bodyChunks read = chunks ++ inFlight s.pc ++ lost
  signals : ∀ i ∈ tail, IsSignal ctx i
  pcOk : PcOk ctx s.pc s.shutdown.terminating read tail lost

theorem EndOk.mono {e : ForwardEnd} {t t' : Bool} {lost : List Bytes} (h : EndOk e t lost)
    (ht : t = true → t' = true) : EndOk e t' lost := by
  intro hf
  cases t with
  | false => exact h rfl
  | true => rw [ht rfl] at hf; cases hf

theorem PcOk.mono {ctx : Ctx} {pc : Pc} {t t' : Bool} {read : List (Except IoError (Option Frame))}
    {tail : List Item} {lost : List Bytes} (h : PcOk ctx pc t read tail lost)
    (ht : t = true → t' = true) : PcOk ctx pc t' read tail lost := by
  cases pc with
  | top =>
    refine ⟨h.1, h.2.1, fun hf => ?_⟩
    cases t with
    | false => exact h.2.2 rfl
    | true => rw [ht rfl] at hf; cases hf
  | announcing => exact ⟨h.1, ht h.2.1, h.2.2⟩
  | selecting => exact h
  | sendingChunk c => exact h
  | sendingSignal item e => exact ⟨h.1, h.2.1, h.2.2.1, h.2.2.2.mono ht⟩
  | abandoning e => exact ⟨h.1, h.2.1, h.2.2.mono ht⟩
  | done e => exact ⟨h.1, h.2.1.mono ht, h.2.2⟩
  | aborted => trivial

theorem terminating_advance {w : Watch} (next : ShutdownPhase) (h : w.terminating = true) :
    (w.advance next).terminating = true := by
  unfold Watch.advance
  split_ifs with hr
  · simp only [Watch.terminating, Bool.or_eq_true, beq_iff_eq] at h ⊢
    rcases h with h | h
    · rw [h] at hr
      cases next <;> simp [ShutdownPhase.rank] at hr
    · exact Or.inr h
  · exact h

/-! ### Every step keeps the invariant -/

section steps

variable {ctx : Ctx} {up : List (Except IoError (Option Frame))} {s s' : State}
  {read : List (Except IoError (Option Frame))} {chunks : List Bytes} {tail : List Item}
  {lost : List Bytes}

theorem Shape.keep (h : Shape ctx up s read chunks tail lost) (hu : s'.upstream = s.upstream)
    (hc : s'.chan.handed = s.chan.handed) (hf : inFlight s'.pc = inFlight s.pc)
    (hpc : PcOk ctx s'.pc s'.shutdown.terminating read tail lost) :
    Shape ctx up s' read chunks tail lost :=
  ⟨by rw [hu]; exact h.split, by rw [hc]; exact h.handed, by rw [hf]; exact h.bodies, h.signals, hpc⟩

theorem Shape.yield {r : Except IoError (Option Frame)}
    {rest : List (Except IoError (Option Frame))} {lost' : List Bytes}
    (h : Shape ctx up s read chunks tail lost) (hr : s.upstream = r :: rest)
    (hu : s'.upstream = rest) (hc : s'.chan = s.chan)
    (hb : bodyChunks (read ++ [r]) = chunks ++ inFlight s'.pc ++ lost')
    (hpc : PcOk ctx s'.pc s'.shutdown.terminating (read ++ [r]) tail lost') :
    Shape ctx up s' (read ++ [r]) chunks tail lost' := by
  refine ⟨?_, by rw [hc]; exact h.handed, hb, h.signals, hpc⟩
  rw [hu, List.append_assoc, List.singleton_append, ← hr]
  exact h.split

theorem Shape.signalled (h : Shape ctx up s read chunks [] lost) {item : Item}
    (hi : IsSignal ctx item) (hu : s'.upstream = s.upstream)
    (hc : s'.chan.handed = s.chan.handed ++ [item]) (hf : inFlight s'.pc = inFlight s.pc)
    (hpc : PcOk ctx s'.pc s'.shutdown.terminating read [item] lost) :
    Shape ctx up s' read chunks [item] lost := by
  refine ⟨by rw [hu]; exact h.split, ?_, by rw [hf]; exact h.bodies, ?_, hpc⟩
  · rw [hc, h.handed, List.append_nil]
  · intro i hmem
    rw [List.mem_singleton.mp hmem]
    exact hi

theorem pcOk_afterSignal (ctx : Ctx) (read : List (Except IoError (Option Frame))) {e : ForwardEnd}
    (he : e ≠ .upstreamEnd) {t : Bool} (hend : EndOk e t lost) (htail : tail.length ≤ 1) :
    PcOk ctx (.abandoning e) t read tail lost ∧ PcOk ctx (.done e) t read tail lost :=
  ⟨⟨htail, he, hend⟩, htail, hend, fun h => absurd h he⟩

/-- The invariant, with what it speaks about left open. -/
def Relayed (ctx : Ctx) (up : List (Except IoError (Option Frame))) (s : State) : Prop :=
  ∃ read chunks tail lost, Shape ctx up s read chunks tail lost

theorem relayed_afterSignal (h : Shape ctx up s read chunks tail lost) {item : Item} {e : ForwardEnd}
    (hpc : s.pc = .sendingSignal item e) {c : Channel} {w : Watch}
    (hw : w.terminating = s.shutdown.terminating)
    (hc : c.handed = s.chan.handed ∨ c.handed = s.chan.handed ++ [item]) :
    Relayed ctx up (afterSignal ctx { s with chan := c, shutdown := w } e) := by
  have hok := h.pcOk
  rw [hpc] at hok
  obtain ⟨rfl, hsig, he, hend⟩ := hok
  obtain ⟨hafter, hchan, hups, hsh⟩ := afterSignal_spec ctx { s with chan := c, shutdown := w } e
  rw [← hw] at hend
  have hflight : inFlight (afterSignal ctx { s with chan := c, shutdown := w } e).pc = inFlight s.pc := by
    rcases hafter with ha | ha <;> rw [ha, hpc] <;> rfl
  have hpcok : ∀ tl : List Item, tl.length ≤ 1 →
      PcOk ctx (afterSignal ctx { s with chan := c, shutdown := w } e).pc
        (afterSignal ctx { s with chan := c, shutdown := w } e).shutdown.terminating read tl lost := by
    intro tl htl
    obtain ⟨h1, h2⟩ := pcOk_afterSignal ctx read he hend htl
    rw [hsh]
    rcases hafter with ha | ha
    · rw [ha]; exact h1
    · rw [ha]; exact h2
  rcases hc with hc | hc
  · exact ⟨read, chunks, [], lost, h.keep hups (by rw [hchan]; exact hc) hflight (hpcok [] (by simp))⟩
  · exact ⟨read, chunks, [item], lost,
      h.signalled hsig hups (by rw [hchan]; exact hc) hflight (hpcok [item] (by simp))⟩

theorem relayed_announceSent (h : Shape ctx up s read chunks tail lost) {ev : SendEvent}
    {o : SendOutcome} {c : Channel} (hpc : s.pc = .announcing)
    (hc : s.chan.sendToClient (.ok shutdownSseEvent) ev = some (o, c)) :
    Relayed ctx up (afterAnnounce { s with chan := c } o) := by
  have hok := h.pcOk
  rw [hpc] at hok
  obtain ⟨rfl, hterm, hstream⟩ := hok
  have hpc' : ∀ o', (afterAnnounce { s with chan := c } o').pc = .abandoning .gatewayShutdown ∧
      (afterAnnounce { s with chan := c } o').chan = c ∧
      (afterAnnounce { s with chan := c } o').upstream = s.upstream ∧
      (afterAnnounce { s with chan := c } o').shutdown = s.shutdown := by
    intro o'
    cases o' <;> exact ⟨rfl, rfl, rfl, rfl⟩
  obtain ⟨hp, hch, hu, hsh⟩ := hpc' o
  have hend : EndOk .gatewayShutdown s.shutdown.terminating lost := by
    intro hf
    rw [hterm] at hf
    cases hf
  have hpcok : ∀ tl : List Item, tl.length ≤ 1 →
      PcOk ctx (afterAnnounce { s with chan := c } o).pc
        (afterAnnounce { s with chan := c } o).shutdown.terminating read tl lost := by
    intro tl htl
    rw [hp, hsh]
    exact ⟨htl, by simp, hend⟩
  have hflight : inFlight (afterAnnounce { s with chan := c } o).pc = inFlight s.pc := by
    rw [hp, hpc]; rfl
  rcases sendToClient_cases hc with ⟨-, -, hh, -⟩ | ⟨-, -, rfl, -⟩ | ⟨-, -, rfl⟩
  · exact ⟨read, chunks, [.ok shutdownSseEvent], lost, h.signalled (Or.inr ⟨hstream, Or.inl rfl⟩) hu
      (by rw [hch]; exact hh) hflight (hpcok _ (by simp))⟩
  · exact ⟨read, chunks, [], lost, h.keep hu (by rw [hch]) hflight (hpcok _ (by simp))⟩
  · exact ⟨read, chunks, [], lost, h.keep hu (by rw [hch]) hflight (hpcok _ (by simp))⟩

theorem relayed_chunkSent (h : Shape ctx up s read chunks tail lost) {ev : SendEvent}
    {o : SendOutcome} {c : Channel} {b : Bytes} (hpc : s.pc = .sendingChunk b)
    (hc : s.chan.sendToClient (.ok b) ev = some (o, c)) :
    Relayed ctx up (afterChunk ctx { s with chan := c } b o) := by
  have hok := h.pcOk
  have hbod := h.bodies
  rw [hpc] at hok hbod
  obtain ⟨rfl, hnoend, rfl⟩ := hok
  simp only [inFlight, List.append_nil] at hbod
  have hlossy : ∀ e, lossy e = true → e ≠ .gatewayShutdown → EndOk e s.shutdown.terminating [b] :=
    fun e he hne _ => ⟨hne, fun hf => by rw [he] at hf; cases hf⟩
  rcases sendToClient_cases hc with ⟨-, rfl, hh, -⟩ | ⟨-, rfl, rfl, -⟩ | ⟨-, rfl, rfl⟩
  · refine ⟨read, chunks ++ [b], [], [], h.split, ?_, ?_, by simp, rfl, hnoend, fun _ => rfl⟩
    · show c.handed = _
      rw [hh, h.handed]
      simp
    · simpa [inFlight, afterChunk] using hbod
  · exact ⟨read, chunks, [], [b], h.split, h.handed, by simpa [inFlight, afterChunk] using hbod,
      by simp, by simp, by simp, hlossy .clientGone rfl (by simp)⟩
  · exact ⟨read, chunks, [], [b], h.split, h.handed, by simpa [inFlight, afterChunk] using hbod,
      by simp, by simp, by simp, hlossy .clientStalled rfl (by simp)⟩

theorem relayed_read (h : Shape ctx up s read chunks tail lost) (hpc : s.pc = .selecting)
    (hm : Move ctx s .read s') : Relayed ctx up s' := by
  have hok := h.pcOk
  have hbod := h.bodies
  rw [hpc] at hok hbod
  obtain ⟨rfl, hnoend, rfl⟩ := hok
  simp only [inFlight, List.append_nil] at hbod
  cases hm with
  | chunk id c rest _ hu =>
    refine ⟨_, chunks, [], [], h.yield hu rfl rfl ?_ ⟨rfl, hnoend.concat rfl, rfl⟩⟩
    rw [bodyChunks_append, hbod]
    simp [inFlight, bodyChunks, bodyChunk]
  | upstreamEnd id rest _ hu =>
    refine ⟨_, chunks, [], [], h.yield hu rfl rfl ?_
      ⟨by simp, fun _ => ⟨by simp, fun _ => rfl⟩, fun _ => ⟨rfl, rfl, read, id, rfl, hnoend⟩⟩⟩
    rw [bodyChunks_append, hbod]
    simp [inFlight, endWith, bodyChunks, bodyChunk]
  | signal r rest item e _ hu hr =>
    obtain ⟨hsig, hne, hne', hbody⟩ := signals_spec hr
    rcases hbody with hbody | ⟨rfl, c, hbody⟩
    · refine ⟨_, chunks, [], [], h.yield hu rfl rfl ?_ ⟨rfl, hsig, hne, fun _ => ⟨hne', fun _ => rfl⟩⟩⟩
      rw [bodyChunks_append, hbod, hbody]
      simp [inFlight, signal]
    · refine ⟨_, chunks, [], [c], h.yield hu rfl rfl ?_
        ⟨rfl, hsig, hne, fun _ => ⟨hne', fun hf => by cases hf⟩⟩⟩
      rw [bodyChunks_append, hbod, hbody]
      simp [inFlight, signal]
  | skip r rest _ hu hr =>
    obtain ⟨hbody, hend⟩ := ignored_spec hr
    refine ⟨_, chunks, [], [], h.yield hu rfl rfl ?_ ⟨rfl, hnoend.concat hend, fun _ => rfl⟩⟩
    rw [bodyChunks_append, hbod, hbody]
    simp [inFlight]

theorem relayed_abort (h : Shape ctx up s read chunks tail lost) (s' : State)
    (hu : s'.upstream = s.upstream) (hc : s'.chan = s.chan.trySendPanicked)
    (hpc : s'.pc = .aborted) : Relayed ctx up s' := by
  have hbod : bodyChunks read = chunks ++ inFlight s'.pc ++ (inFlight s.pc ++ lost) := by
    rw [hpc, h.bodies]
    simp [inFlight]
  have hsplit : up = read ++ s'.upstream := by rw [hu]; exact h.split
  rcases handed_trySendPanicked s.chan with hh | ⟨message, hh⟩
  · refine ⟨read, chunks, tail, inFlight s.pc ++ lost, hsplit, ?_, hbod, h.signals, ?_⟩
    · rw [hc, hh]; exact h.handed
    · rw [hpc]; trivial
  · refine ⟨read, chunks, tail ++ [.error message], inFlight s.pc ++ lost, hsplit, ?_, hbod, ?_, ?_⟩
    · rw [hc, hh, h.handed, List.append_assoc]
    · intro i hi
      rcases List.mem_append.mp hi with hi | hi
      · exact h.signals i hi
      · rw [List.mem_singleton.mp hi]
        exact Or.inl ⟨message, rfl⟩
    · rw [hpc]; trivial

/-- **Every step keeps the invariant.** -/
theorem relayed_step {l : Label} (h : Relayed ctx up s) (hs : step ctx s l = some s') :
    Relayed ctx up s' := by
  obtain ⟨read, chunks, tail, lost, h⟩ := h
  have hok := h.pcOk
  have hm := move_of_step ctx hs
  cases hm with
  | select hpc ht =>
    rw [hpc] at hok
    exact ⟨read, chunks, tail, lost, h.keep rfl rfl (by rw [hpc]; rfl) ⟨hok.1, hok.2.1, hok.2.2 ht⟩⟩
  | announce hpc ht hstream =>
    rw [hpc] at hok
    exact ⟨read, chunks, tail, lost, h.keep rfl rfl (by rw [hpc]; rfl) ⟨hok.1, ht, hstream⟩⟩
  | shutdown hpc ht hstream =>
    rw [hpc] at hok
    refine ⟨read, chunks, tail, lost, h.keep rfl rfl (by rw [hpc]; rfl) ⟨by simp [hok.1], by simp, ?_⟩⟩
    intro hf
    simp only at hf
    rw [ht] at hf
    cases hf
  | chunk id c rest hpc hu => exact relayed_read h hpc (.chunk id c rest hpc hu)
  | upstreamEnd id rest hpc hu => exact relayed_read h hpc (.upstreamEnd id rest hpc hu)
  | signal r rest item e hpc hu hr => exact relayed_read h hpc (.signal r rest item e hpc hu hr)
  | skip r rest hpc hu hr => exact relayed_read h hpc (.skip r rest hpc hu hr)
  | idle hpc =>
    rw [hpc] at hok
    exact ⟨read, chunks, tail, lost, h.keep rfl rfl (by rw [hpc]; rfl)
      ⟨hok.1, Or.inl ⟨_, rfl⟩, by simp, fun _ => ⟨by simp, fun _ => hok.2.2⟩⟩⟩
  | clientClosed hpc hrx =>
    rw [hpc] at hok
    exact ⟨read, chunks, tail, lost, h.keep rfl rfl (by rw [hpc]; rfl)
      ⟨by simp [hok.1], by simp, fun _ => ⟨by simp, fun _ => hok.2.2⟩⟩⟩
  | wake w hpc hw =>
    rw [hpc] at hok
    exact ⟨read, chunks, tail, lost, h.keep rfl rfl (by rw [hpc]; rfl) ⟨hok.1, hok.2.1, fun _ => hok.2.2⟩⟩
  | retry w hw ht =>
    exact ⟨read, chunks, tail, lost, h.keep rfl rfl rfl (hok.mono fun h1 => by rw [hw]; exact h1)⟩
  | stopChunk w c hpc hw ht =>
    have hbod := h.bodies
    rw [hpc] at hok hbod
    obtain ⟨rfl, hnoend, rfl⟩ := hok
    refine ⟨read, chunks, [], [c], h.split, h.handed, ?_, by simp, rfl, hnoend, fun hf => ?_⟩
    · simpa [inFlight] using hbod
    · change w.terminating = false at hf
      rw [hw, ht] at hf
      cases hf
  | stopSignal w item e hpc hw ht => exact relayed_afterSignal h hpc (c := s.chan) hw (Or.inl rfl)
  | announceSent ev o c hpc hc => exact relayed_announceSent h hpc hc
  | chunkSent ev o c b hpc hc => exact relayed_chunkSent h hpc hc
  | signalSent ev o c item e hpc hc =>
    refine relayed_afterSignal h hpc (w := s.shutdown) rfl ?_
    rcases sendToClient_cases hc with ⟨-, -, hh, -⟩ | ⟨-, -, rfl, -⟩ | ⟨-, -, rfl⟩
    · exact Or.inr hh
    · exact Or.inl rfl
    · exact Or.inl rfl
  | cancelled e hpc =>
    rw [hpc] at hok
    exact ⟨read, chunks, tail, lost, h.keep rfl rfl (by rw [hpc]; rfl)
      ⟨hok.1, hok.2.2, fun he => absurd he hok.2.1⟩⟩
  | clientTake item rest hq =>
    exact ⟨read, chunks, tail, lost, h.keep rfl (handed_clientTake hq) rfl hok⟩
  | clientDrop => exact ⟨read, chunks, tail, lost, h.keep rfl rfl rfl hok⟩
  | advance next =>
    exact ⟨read, chunks, tail, lost, h.keep rfl rfl rfl (hok.mono (terminating_advance next))⟩
  | controllerDrop =>
    exact ⟨read, chunks, tail, lost, h.keep rfl rfl rfl
      (hok.mono fun _ => by simp [Watch.terminating])⟩
  | abort hpc => exact relayed_abort h _ rfl rfl rfl

end steps

/-! ### Settling -/

/-- The usage is settled when the relay is over, and not before. -/
def Settling (s : State) : Prop :=
  if s.pc.over then s.ledger.length = 1 else s.ledger = [] ∧ s.usage.settled = false

section settling

variable {ctx : Ctx} {s s' : State}

theorem Settling.open (h : Settling s) (hpc : s.pc.over = false) :
    s.ledger = [] ∧ s.usage.settled = false := by
  simpa [Settling, hpc] using h

theorem Settling.goOn (h : Settling s) (hpc : s.pc.over = false) (hpc' : s'.pc.over = false)
    (hl : s'.ledger = s.ledger) (hu : s'.usage.settled = s.usage.settled) : Settling s' := by
  have h0 := h.open hpc
  simp only [Settling, hpc', hl, hu]
  exact h0

theorem Settling.same (h : Settling s) (hpc : s'.pc = s.pc) (hl : s'.ledger = s.ledger)
    (hu : s'.usage = s.usage) : Settling s' := by
  unfold Settling at h ⊢
  rw [hpc, hl, hu]
  exact h

theorem Settling.endWith (h : Settling s) (hpc : s.pc.over = false) (e : ForwardEnd)
    (hl : s'.ledger = s.ledger) (hu : s'.usage = s.usage) : Settling (endWith ctx s' e) := by
  obtain ⟨h1, h2⟩ := h.open hpc
  simp only [Settling, Forward.endWith, Pc.over, if_true]
  rw [hl, hu, h1, UsageCollector.finish_of_unsettled _ h2]
  rfl

theorem settling_afterSignal (h : Settling s) (hpc : s.pc.over = false) (e : ForwardEnd)
    (hl : s'.ledger = s.ledger) (hu : s'.usage = s.usage) : Settling (afterSignal ctx s' e) := by
  cases e with
  | protocolViolation => exact h.goOn hpc rfl hl (congrArg _ hu)
  | idleTimeout => exact h.goOn hpc rfl hl (congrArg _ hu)
  | _ => exact h.endWith hpc _ hl hu

/-- **Every step keeps it.** -/
theorem settling_step {l : Label} (h : Settling s) (hs : step ctx s l = some s') : Settling s' := by
  cases move_of_step ctx hs with
  | select hpc => exact h.goOn (by rw [hpc]; rfl) rfl rfl rfl
  | announce hpc => exact h.goOn (by rw [hpc]; rfl) rfl rfl rfl
  | shutdown hpc => exact h.goOn (by rw [hpc]; rfl) rfl rfl rfl
  | chunk id c rest hpc => exact h.goOn (by rw [hpc]; rfl) rfl rfl rfl
  | upstreamEnd id rest hpc => exact h.endWith (by rw [hpc]; rfl) _ rfl rfl
  | signal r rest item e hpc => exact h.goOn (by rw [hpc]; rfl) rfl rfl rfl
  | skip r rest hpc => exact h.goOn (by rw [hpc]; rfl) rfl rfl rfl
  | idle hpc => exact h.goOn (by rw [hpc]; rfl) rfl rfl rfl
  | clientClosed hpc => exact h.goOn (by rw [hpc]; rfl) rfl rfl rfl
  | wake w hpc => exact h.goOn (by rw [hpc]; rfl) rfl rfl rfl
  | retry w => exact h.same rfl rfl rfl
  | stopChunk w c hpc =>
    exact h.goOn (by rw [hpc]; rfl) rfl rfl (UsageCollector.observe_settled _ _ _)
  | stopSignal w item e hpc => exact settling_afterSignal h (by rw [hpc]; rfl) e rfl rfl
  | announceSent ev o c hpc =>
    cases o <;> exact h.goOn (by rw [hpc]; rfl) rfl rfl rfl
  | chunkSent ev o c b hpc =>
    cases o <;> exact h.goOn (by rw [hpc]; rfl) rfl rfl (UsageCollector.observe_settled _ _ _)
  | signalSent ev o c item e hpc => exact settling_afterSignal h (by rw [hpc]; rfl) e rfl rfl
  | cancelled e hpc => exact h.endWith (by rw [hpc]; rfl) _ rfl rfl
  | clientTake => exact h.same rfl rfl rfl
  | clientDrop => exact h.same rfl rfl rfl
  | advance => exact h.same rfl rfl rfl
  | controllerDrop => exact h.same rfl rfl rfl
  | abort hpc =>
    obtain ⟨h1, h2⟩ := h.open hpc
    simp only [Settling, Pc.over, if_true]
    rw [h1, UsageCollector.drop_of_unsettled _ h2]
    rfl

end settling

/-! ### Whole runs -/

variable {ctx : Ctx} {cap : ℕ} {up : List (Except IoError (Option Frame))} {w : Watch} {s : State}

theorem relayed_init : Relayed ctx up (init ctx cap up w) :=
  ⟨[], [], [], [], rfl, rfl, rfl, by simp, rfl, by simp [NoEnd], fun _ => rfl⟩

theorem relayed_run {ls : List Label} (h : run (step ctx) (init ctx cap up w) ls = some s) :
    Relayed ctx up s :=
  run_invariant (fun _ _ _ hr hs => relayed_step hr hs) relayed_init ⟨ls, h⟩

theorem settling_run {ls : List Label} (h : run (step ctx) (init ctx cap up w) ls = some s) :
    Settling s := by
  have hinit : Settling (init ctx cap up w) := by
    simp [Settling, init, Pc.over, UsageCollector.new]
  exact run_invariant (fun _ _ _ hr hs => settling_step hr hs) hinit ⟨ls, h⟩

/-- The relay was given up by the client, by a broken protocol or by the runtime. -/
def GivenUp : Pc → Prop
  | .sendingSignal _ e => lossy e = true
  | .abandoning e => lossy e = true
  | .done e => lossy e = true
  | .aborted => True
  | _ => False

/-- The relay ends, or is ending, because of a shutdown. -/
def ShuttingDown (pc : Pc) : Prop :=
  pc = .announcing ∨ pc = .abandoning .gatewayShutdown ∨ pc = .done .gatewayShutdown

/-- Before the gateway terminates the relay neither ends nor loses a chunk for a shutdown. -/
theorem Shape.not_terminating {read : List (Except IoError (Option Frame))} {chunks : List Bytes}
    {tail : List Item} {lost : List Bytes} (h : Shape ctx up s read chunks tail lost)
    (ht : s.shutdown.terminating = false) :
    ¬ ShuttingDown s.pc ∧ (¬ GivenUp s.pc → bodyChunks read = chunks ++ inFlight s.pc) := by
  have hok := h.pcOk
  have hbod := h.bodies
  rw [ht] at hok
  cases hpc : s.pc with
  | top =>
    rw [hpc] at hok hbod
    refine ⟨by simp [ShuttingDown], fun _ => ?_⟩
    rw [hbod, hok.2.2 rfl, List.append_nil]
  | announcing => rw [hpc] at hok; cases hok.2.1
  | selecting =>
    rw [hpc] at hok hbod
    refine ⟨by simp [ShuttingDown], fun _ => ?_⟩
    rw [hbod, hok.2.2, List.append_nil]
  | sendingChunk c =>
    rw [hpc] at hok hbod
    refine ⟨by simp [ShuttingDown], fun _ => ?_⟩
    rw [hbod, hok.2.2, List.append_nil]
  | sendingSignal item e =>
    rw [hpc] at hok hbod
    refine ⟨by simp [ShuttingDown], fun hg => ?_⟩
    rw [hbod, (hok.2.2.2 rfl).2 (by simpa [GivenUp] using hg), List.append_nil]
  | abandoning e =>
    rw [hpc] at hok hbod
    refine ⟨by simpa [ShuttingDown] using (hok.2.2 rfl).1, fun hg => ?_⟩
    rw [hbod, (hok.2.2 rfl).2 (by simpa [GivenUp] using hg), List.append_nil]
  | done e =>
    rw [hpc] at hok hbod
    refine ⟨by simpa [ShuttingDown] using (hok.2.1 rfl).1, fun hg => ?_⟩
    rw [hbod, (hok.2.1 rfl).2 (by simpa [GivenUp] using hg), List.append_nil]
  | aborted => exact ⟨by simp [ShuttingDown], fun hg => absurd trivial hg⟩

/-- A change of phase that the task notices before the gateway terminates takes nothing from the relay. -/
theorem noticed_of_not_terminating {s' : State} (ht : s.shutdown.terminating = false)
    (hs : step ctx s .shutdownChanged = some s') :
    s'.chan = s.chan ∧ s'.upstream = s.upstream ∧
      (s'.pc = s.pc ∨ s.pc = .selecting ∧ s'.pc = .top) := by
  cases move_of_step ctx hs with
  | wake w hpc => exact ⟨rfl, rfl, Or.inr ⟨hpc, rfl⟩⟩
  | retry w => exact ⟨rfl, rfl, Or.inl rfl⟩
  | stopChunk w c hpc hw ht' => rw [ht] at ht'; cases ht'
  | stopSignal w item e hpc hw ht' => rw [ht] at ht'; cases ht'

theorem tail_length_le {read : List (Except IoError (Option Frame))} {chunks : List Bytes}
    {tail : List Item} {lost : List Bytes} (h : Shape ctx up s read chunks tail lost)
    (hpc : s.pc ≠ .aborted) : tail.length ≤ 1 := by
  have hok := h.pcOk
  cases hp : s.pc with
  | aborted => exact absurd hp hpc
  | abandoning e => rw [hp] at hok; exact hok.1
  | done e => rw [hp] at hok; exact hok.1
  | top => rw [hp] at hok; simp [hok.1]
  | announcing => rw [hp] at hok; simp [hok.1]
  | selecting => rw [hp] at hok; simp [hok.1]
  | sendingChunk c => rw [hp] at hok; simp [hok.1]
  | sendingSignal item e => rw [hp] at hok; simp [hok.1]

/-- **Relay fidelity.** For every sequence of results of the reader, every run and every state `s` it
reaches:

* the client was handed chunks, a beginning of those the agent sent, and after them at most one signal
  that the response is incomplete (a panic may add its own); until the gateway terminates, and unless
  the relay was given up, every chunk read is handed on or being sent, and no shutdown ends the relay;
* a relay that ends with `UpstreamEnd` handed on exactly the chunks before the `ProxyResponseEnd`;
* noticing a change of phase before the gateway terminates changes neither channel nor reader and does
  not end the relay;
* the usage is settled once when the relay is over, and not before. -/
theorem relay_fidelity (ctx : Ctx) (cap : ℕ) (up : List (Except IoError (Option Frame))) (w : Watch)
    (ls : List Label) (s : State) (h : run (step ctx) (init ctx cap up w) ls = some s) :
    (∃ read chunks tail, up = read ++ s.upstream ∧ s.chan.handed = chunks.map .ok ++ tail ∧
      chunks <+: bodyChunks up ∧ (∀ i ∈ tail, IsSignal ctx i) ∧
      (s.pc ≠ .aborted → tail.length ≤ 1) ∧
      (s.shutdown.terminating = false →
        ¬ ShuttingDown s.pc ∧ (¬ GivenUp s.pc → bodyChunks read = chunks ++ inFlight s.pc))) ∧
    (s.pc = .done .upstreamEnd → ∃ pre id rest,
      up = pre ++ .ok (some (.proxyResponseEnd id true)) :: rest ∧ NoEnd pre ∧
        s.chan.handed = (bodyChunks pre).map .ok) ∧
    (∀ s', s.shutdown.terminating = false → step ctx s .shutdownChanged = some s' →
      s'.chan = s.chan ∧ s'.upstream = s.upstream ∧
        (s'.pc = s.pc ∨ s.pc = .selecting ∧ s'.pc = .top)) ∧
    (if s.pc.over then s.ledger.length = 1 else s.ledger = []) := by
  obtain ⟨read, chunks, tail, lost, hshape⟩ := relayed_run h
  refine ⟨⟨read, chunks, tail, hshape.split, hshape.handed, ?_, hshape.signals,
    tail_length_le hshape, hshape.not_terminating⟩, fun hpc => ?_,
    fun s' ht hs => noticed_of_not_terminating ht hs, ?_⟩
  · rw [hshape.split, bodyChunks_append, hshape.bodies, List.append_assoc, List.append_assoc]
    exact List.prefix_append _ _
  · have hok := hshape.pcOk
    have hbod := hshape.bodies
    rw [hpc] at hok hbod
    obtain ⟨rfl, rfl, pre, id, rfl, hpre⟩ := hok.2.2 rfl
    refine ⟨pre, id, s.upstream, ?_, hpre, ?_⟩
    · rw [hshape.split, List.append_assoc]
      rfl
    · have hend : bodyChunks [.ok (some (.proxyResponseEnd id true))] = [] := rfl
      have hpre' : bodyChunks pre = chunks := by
        simpa [bodyChunks_append, hend, inFlight] using hbod
      rw [hshape.handed, hpre', List.append_nil]
  · have hset := settling_run h
    unfold Settling at hset
    split_ifs at hset ⊢
    · exact hset
    · exact hset.1

/-- A relay without usage reports. -/
def plainCtx (isStream : Bool) : Ctx := ⟨1, 7, isStream, fun _ => none⟩

/-- A gateway that runs. -/
def runningWatch : Watch := ⟨.running, false, false⟩

/-- Two chunks and the end of the response. -/
def twoChunks : List (Except IoError (Option Frame)) :=
  [.ok (some (.proxyResponseBody 1 [97])), .ok (some (.proxyResponseBody 1 [98])),
    .ok (some (.proxyResponseEnd 1 true))]

/-- The second chunk finds the channel full, and the gateway begins to drain. -/
def beginsToDrain : List Label := [.loopTop, .read, .send .room, .loopTop, .read, .advance .draining]

/-- The relay takes notice of it while it waits for room, and goes on when the client has taken the first chunk. -/
theorem relay_fidelity_two_chunks :
    ∃ s s' s'', run (step (plainCtx false)) (init (plainCtx false) 1 twoChunks runningWatch) beginsToDrain = some s ∧
      step (plainCtx false) s (.send .room) = none ∧ step (plainCtx false) s .shutdownChanged = some s' ∧
      s'.chan = s.chan ∧ s'.upstream = s.upstream ∧ s'.pc = .sendingChunk [98] ∧
      run (step (plainCtx false)) (init (plainCtx false) 1 twoChunks runningWatch)
        (beginsToDrain ++ [.shutdownChanged, .clientTake, .send .room, .loopTop, .read]) = some s'' ∧
      s''.pc = .done .upstreamEnd ∧ s''.chan.handed = [.ok [97], .ok [98]] ∧ s''.ledger.length = 1 := by
  have hnoticed := (relay_fidelity (plainCtx false) 1 twoChunks runningWatch beginsToDrain _ rfl).2.2.1 _ rfl rfl
  have hsettled := (relay_fidelity (plainCtx false) 1 twoChunks runningWatch
    (beginsToDrain ++ [.shutdownChanged, .clientTake, .send .room, .loopTop, .read]) _ rfl).2.2.2
  exact ⟨_, _, _, rfl, rfl, rfl, hnoticed.1, hnoticed.2.1, rfl, rfl, rfl, rfl, hsettled⟩

/-- `UpstreamEnd` does not mean that every body frame of the agent was relayed: what an agent sends
after its `ProxyResponseEnd` is not read. -/
theorem body_after_end_not_relayed :
    ¬ ∀ (ctx : Ctx) (cap : ℕ) (up : List (Except IoError (Option Frame))) (w : Watch)
        (ls : List Label) (s : State), run (step ctx) (init ctx cap up w) ls = some s →
        s.pc = .done .upstreamEnd → s.chan.handed = (bodyChunks up).map .ok := by
  intro hall
  have h := hall (plainCtx false) 32 [.ok (some (.proxyResponseBody 1 [97])),
    .ok (some (.proxyResponseEnd 1 true)), .ok (some (.proxyResponseBody 1 [98]))] runningWatch
    [.loopTop, .read, .send .room, .loopTop, .read] _ rfl rfl
  have hlen := congrArg List.length h
  revert hlen
  decide

end HomeLlmGateway.Proxy.Relay
