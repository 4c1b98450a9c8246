import HomeLlmGateway.Agent.Protocol
import HomeLlmGateway.Agent.Relay
import HomeLlmGateway.Proxy.Head
import HomeLlmGateway.Proxy.Relay

/-! # Agent and gateway together

What the upstream answers is what the client gets: the agent cuts the body into pieces and writes them as
frames, the tunnel delivers their bytes in any segmentation, the gateway reads the head, builds a response
from it and relays the pieces to a client that reads at any pace. Where nothing is cancelled, times out or
shuts down (`Quiet`), the relay moves towards its end with every step (`Flow`, `remaining`) and hands on
every piece. -/

namespace HomeLlmGateway.Proxy.Transparency

open HomeLlmGateway.Lib.Runs HomeLlmGateway.Lib.ByteCodec HomeLlmGateway.Proto.Frames
open HomeLlmGateway.Proto.Io HomeLlmGateway.Proto.Http HomeLlmGateway.Agent.Relay
open HomeLlmGateway.Agent.Stream (Env UpstreamHead outHeaders)
open HomeLlmGateway.Agent.Protocol (localEnv)
open HomeLlmGateway.Proxy.Head HomeLlmGateway.Proxy.Forward HomeLlmGateway.Proxy.Relay

/-! ### Chunks within the limit -/

/-- The relay ends, or is ending, because of a broken protocol. -/
def Violated : Pc → Prop
  | .sendingSignal _ e => e = .protocolViolation
  | .abandoning e => e = .protocolViolation
  | .done e => e = .protocolViolation
  | _ => False

/-- No body frame that the reader yields is too large. -/
def Bounded (up : List (Except IoError (Option Frame))) : Prop :=
  ∀ id c, .ok (some (.proxyResponseBody id c)) ∈ up → c.length ≤ maxResponseChunk

theorem Bounded.tail {r : Except IoError (Option Frame)} {up : List (Except IoError (Option Frame))}
    (h : Bounded (r :: up)) : Bounded up := fun id c hc => h id c (List.mem_cons_of_mem _ hc)

theorem bounded_of_sized {fs : List Frame} (h : Sized fs) {up : List (Except IoError (Option Frame))}
    (hup : ∀ f, .ok (some f) ∈ up → f ∈ fs) : Bounded up :=
  fun id c hc => (h id c (hup _ hc)).2

theorem violated_afterSignal {ctx : Ctx} {s : State} {e : ForwardEnd} (h : Violated (afterSignal ctx s e).pc) :
    e = .protocolViolation := by
  rcases (afterSignal_spec ctx s e).1 with hpc | hpc
  · rw [hpc] at h
    exact h
  · rw [hpc] at h
    exact h

/-- **Every step keeps it**: what is left to read is within the limit, and the limit ends no relay. -/
theorem unviolated_step {ctx : Ctx} {s s' : State} {l : Label}
    (h : Bounded s.upstream ∧ ¬ Violated s.pc) (hs : step ctx s l = some s') :
    Bounded s'.upstream ∧ ¬ Violated s'.pc := by
  obtain ⟨hb, hv⟩ := h
  cases move_of_step ctx hs with
  | chunk id c rest hpc hu =>
    rw [hu] at hb
    exact ⟨hb.tail, fun h => h⟩
  | upstreamEnd id rest hpc hu =>
    rw [hu] at hb
    exact ⟨hb.tail, fun h => (by cases h)⟩
  | signal r rest item e hpc hu hr =>
    rw [hu] at hb
    refine ⟨hb.tail, fun h => ?_⟩
    cases hr with
    | oversized id c hlen =>
      have := hb id c List.mem_cons_self
      omega
    | truncated | error | closed | failed => cases h
  | skip r rest hpc hu hr =>
    rw [hu] at hb
    exact ⟨hb.tail, fun h => h⟩
  | stopSignal w item e hpc hw ht =>
    rw [hpc] at hv
    refine ⟨?_, fun h => hv (violated_afterSignal h)⟩
    rw [(afterSignal_spec ctx _ e).2.2.1]
    exact hb
  | signalSent ev o c item e hpc hc =>
    rw [hpc] at hv
    refine ⟨?_, fun h => hv (violated_afterSignal h)⟩
    rw [(afterSignal_spec ctx _ e).2.2.1]
    exact hb
  | announceSent ev o c hpc hc =>
    cases o <;> exact ⟨hb, fun h => (by cases h)⟩
  | chunkSent ev o c b hpc hc =>
    cases o <;> exact ⟨hb, fun h => (by cases h)⟩
  | cancelled e hpc =>
    rw [hpc] at hv
    exact ⟨hb, hv⟩
  | retry | clientTake | clientDrop | advance | controllerDrop => exact ⟨hb, hv⟩
  | select | announce | shutdown | idle | clientClosed | wake | stopChunk | abort =>
    exact ⟨hb, fun h => (by cases h)⟩

/-- **A relay of bounded chunks never ends as a violation.** -/
theorem unviolated_run {ctx : Ctx} {cap : ℕ} {up : List (Except IoError (Option Frame))} {w : Watch}
    {ls : List Label} {s : State} (hup : Bounded up)
    (h : run (step ctx) (init ctx cap up w) ls = some s) : ¬ Violated s.pc := by
  have hinit : Bounded (init ctx cap up w).upstream ∧ ¬ Violated (init ctx cap up w).pc :=
    ⟨hup, fun h => h⟩
  exact (run_invariant (I := fun s => Bounded s.upstream ∧ ¬ Violated s.pc)
    (fun _ _ _ hI hs => unviolated_step hI hs) hinit ⟨ls, h⟩).2

/-! ### Quiet relays -/

/-- No timeout, no client that leaves, no shutdown and no panic. -/
def Quiet : Label → Prop
  | .idle => False
  | .send .stall => False
  | .clientDrop => False
  | .advance _ => False
  | .controllerDrop => False
  | .abort => False
  | _ => True

/-- What the reader yields while the pieces `ps` are to come. -/
def toCome (id : UInt64) (ps : List Bytes) : List (Except IoError (Option Frame)) :=
  ps.map (fun p => .ok (some (.proxyResponseBody id p))) ++
    [.ok (some (.proxyResponseEnd id true)), .ok none]

/-- Where the relay of the pieces `ps` stands. -/
def FlowAt (id : UInt64) (ps : List Bytes) (s : State) : Prop :=
  match s.pc with
  | .top => ∃ sent rest, ps = sent ++ rest ∧ s.chan.handed = sent.map .ok ∧ s.upstream = toCome id rest
  | .selecting =>
    ∃ sent rest, ps = sent ++ rest ∧ s.chan.handed = sent.map .ok ∧ s.upstream = toCome id rest
  | .sendingChunk b =>
    ∃ sent rest, ps = sent ++ b :: rest ∧ s.chan.handed = sent.map .ok ∧ s.upstream = toCome id rest
  | .done .upstreamEnd => s.chan.handed = ps.map .ok
  | _ => False

/-- **The invariant** of a quiet relay. -/
structure Flow (id : UInt64) (ps : List Bytes) (s : State) : Prop where
  watch : s.shutdown = runningWatch
  alive : s.chan.rxAlive = true
  cap : s.chan.cap = 32
  stands : FlowAt id ps s

/-- How much work a point of the relay stands for. -/
def weight : Pc → ℕ
  | .top => 2
  | .selecting => 1
  | .sendingChunk _ => 4
  | _ => 0

/-- What is left to do: a bound for the steps to come. -/
def remaining (s : State) : ℕ := 4 * s.upstream.length + weight s.pc + s.chan.queue.length

section steps

variable {ctx : Ctx} {id : UInt64} {ps : List Bytes} {s s' : State} {l : Label}

theorem toCome_cons (b : Bytes) (rest : List Bytes) :
    toCome id (b :: rest) = .ok (some (.proxyResponseBody id b)) :: toCome id rest := rfl

theorem toCome_nil : toCome id [] = [.ok (some (.proxyResponseEnd id true)), .ok none] := rfl

/-- The first result to come, by what is left. -/
theorem toCome_cases {r : Except IoError (Option Frame)} {rest : List (Except IoError (Option Frame))}
    {qs : List Bytes} (h : toCome id qs = r :: rest) :
    (qs = [] ∧ r = .ok (some (.proxyResponseEnd id true))) ∨
      ∃ b qs', qs = b :: qs' ∧ r = .ok (some (.proxyResponseBody id b)) ∧ rest = toCome id qs' := by
  cases qs with
  | nil =>
    rw [toCome_nil] at h
    cases h
    exact Or.inl ⟨rfl, rfl⟩
  | cons b qs' =>
    rw [toCome_cons] at h
    cases h
    exact Or.inr ⟨b, qs', rfl, rfl, rfl⟩

theorem sendToClient_quiet {c c' : Channel} {item : Item} {ev : SendEvent} {o : SendOutcome}
    (hc : c.sendToClient item ev = some (o, c')) (halive : c.rxAlive = true) (hq : ev ≠ .stall) :
    o = .delivered ∧ c' = { c with queue := c.queue ++ [item] } := by
  cases ev with
  | room =>
    simp only [Channel.sendToClient] at hc
    split_ifs at hc
    cases hc
    exact ⟨rfl, rfl⟩
  | gone => simp [Channel.sendToClient, halive] at hc
  | stall => exact absurd rfl hq

/-- **A quiet step** keeps the flow and leaves less to do. -/
theorem flow_step (hb : ∀ p ∈ ps, p.length ≤ maxResponseChunk) (h : Flow id ps s) (hq : Quiet l)
    (hs : step ctx s l = some s') : Flow id ps s' ∧ remaining s' < remaining s := by
  obtain ⟨hw, halive, hcap, hat⟩ := h
  have hterm : s.shutdown.terminating = false := by rw [hw]; rfl
  cases move_of_step ctx hs with
  | select hpc =>
    simp only [FlowAt, hpc] at hat
    refine ⟨⟨hw, halive, hcap, hat⟩, ?_⟩
    simp only [remaining, hpc, weight]
    omega
  | announce hpc ht => rw [hterm] at ht; cases ht
  | shutdown hpc ht => rw [hterm] at ht; cases ht
  | chunk i c rest hpc hu =>
    simp only [FlowAt, hpc] at hat
    obtain ⟨sent, qs, hps, hh, hup⟩ := hat
    rcases toCome_cases (hup.symm.trans hu) with ⟨-, hr⟩ | ⟨b, qs', rfl, hr, hrest⟩
    · cases hr
    · cases hr
      refine ⟨⟨hw, halive, hcap, sent, qs', hps, hh, hrest⟩, ?_⟩
      simp only [remaining, hpc, weight, hu, List.length_cons]
      omega
  | upstreamEnd i rest hpc hu =>
    simp only [FlowAt, hpc] at hat
    obtain ⟨sent, qs, hps, hh, hup⟩ := hat
    rcases toCome_cases (hup.symm.trans hu) with ⟨rfl, hr⟩ | ⟨b, qs', rfl, hr, hrest⟩
    · rw [List.append_nil] at hps
      subst hps
      refine ⟨⟨hw, halive, hcap, hh⟩, ?_⟩
      simp only [remaining, hpc, weight, hu, List.length_cons, endWith]
      omega
    · cases hr
  | signal r rest item e hpc hu hr =>
    simp only [FlowAt, hpc] at hat
    obtain ⟨sent, qs, hps, hh, hup⟩ := hat
    rcases toCome_cases (hup.symm.trans hu) with ⟨-, hr'⟩ | ⟨b, qs', rfl, hr', hrest⟩
    · subst hr'
      cases hr
    · subst hr'
      cases hr with
      | oversized _ _ hlen =>
        have := hb b (by rw [hps]; simp)
        omega
  | skip r rest hpc hu hr =>
    simp only [FlowAt, hpc] at hat
    obtain ⟨sent, qs, hps, hh, hup⟩ := hat
    rcases toCome_cases (hup.symm.trans hu) with ⟨-, hr'⟩ | ⟨b, qs', rfl, hr', hrest⟩
    · subst hr'
      exact hr.elim
    · subst hr'
      exact hr.elim
  | idle => exact hq.elim
  | clientClosed hpc hrx => rw [halive] at hrx; cases hrx
  | wake w hpc hw' => simp [step, hw, Watch.changed, runningWatch] at hs
  | retry w => simp [step, hw, Watch.changed, runningWatch] at hs
  | stopChunk w c hpc hw' ht => rw [hterm] at ht; cases ht
  | stopSignal w item e hpc hw' ht => rw [hterm] at ht; cases ht
  | announceSent ev o c hpc => simp only [FlowAt, hpc] at hat
  | chunkSent ev o c b hpc hc =>
    have hev : ev ≠ .stall := by rintro rfl; exact hq
    obtain ⟨rfl, rfl⟩ := sendToClient_quiet hc halive hev
    simp only [FlowAt, hpc] at hat
    obtain ⟨sent, qs, hps, hh, hup⟩ := hat
    refine ⟨⟨hw, halive, hcap, sent ++ [b], qs, by simpa using hps, ?_, hup⟩, ?_⟩
    · simp only [afterChunk, observed, Channel.handed] at hh ⊢
      rw [← List.append_assoc, hh, List.map_append]
      rfl
    · simp only [remaining, hpc, weight, afterChunk, observed, List.length_append, List.length_singleton]
      omega
  | signalSent ev o c item e hpc => simp only [FlowAt, hpc] at hat
  | cancelled e hpc => simp only [FlowAt, hpc] at hat
  | clientTake item rest hqueue =>
    refine ⟨⟨hw, halive, hcap, ?_⟩, ?_⟩
    · have hh := handed_clientTake hqueue
      unfold FlowAt at hat ⊢
      simp only [hh]
      exact hat
    · simp only [remaining, hqueue, List.length_cons]
      omega
  | clientDrop => exact hq.elim
  | advance => exact hq.elim
  | controllerDrop => exact hq.elim
  | abort => exact hq.elim

/-- **A quiet relay does not get stuck**: if no quiet step is left, it has ended and the client has taken
every piece. -/
theorem flow_progress (h : Flow id ps s) (hstuck : ∀ l, Quiet l → step ctx s l = none) :
    s.pc = .done .upstreamEnd ∧ s.chan.taken = ps.map .ok := by
  obtain ⟨hw, halive, hcap, hat⟩ := h
  have hqueue : s.chan.queue = [] := by
    by_contra hne
    obtain ⟨item, rest, hcons⟩ := List.exists_cons_of_ne_nil hne
    have := hstuck .clientTake trivial
    simp [step, hcons, halive] at this
  unfold FlowAt at hat
  split at hat
  · next hpc =>
    have := hstuck .loopTop trivial
    simp [step, hpc, hw, runningWatch, Watch.terminating] at this
  · next hpc =>
    obtain ⟨sent, rest, -, -, hup⟩ := hat
    have := hstuck .read trivial
    cases rest <;> simp [step, hpc, hup, toCome] at this
  · next b hpc =>
    have := hstuck (.send .room) trivial
    simp [step, hpc, Channel.sendToClient, halive, hqueue, hcap] at this
  · next hpc =>
    refine ⟨hpc, ?_⟩
    unfold Channel.handed at hat
    rw [hqueue, List.append_nil] at hat
    exact hat
  · exact hat.elim

end steps

theorem flow_init (ctx : Ctx) (id : UInt64) (ps : List Bytes) :
    Flow id ps (init ctx 32 (toCome id ps) runningWatch) :=
  ⟨rfl, rfl, rfl, [], ps, rfl, rfl, rfl⟩

/-- **A quiet run** of a relay: it ends after boundedly many steps, with every piece handed on in order and
nothing else. -/
theorem flow_run {ctx : Ctx} {id : UInt64} {ps : List Bytes} (hb : ∀ p ∈ ps, p.length ≤ maxResponseChunk) :
    ∀ (ls : List Label) (s0 s : State), Flow id ps s0 → (∀ l ∈ ls, Quiet l) →
      run (step ctx) s0 ls = some s → Flow id ps s ∧ ls.length + remaining s ≤ remaining s0
  | [], s0, s, h, _, hrun => by
    simp only [run_nil, Option.some.injEq] at hrun
    subst hrun
    exact ⟨h, by simp⟩
  | l :: ls, s0, s, h, hq, hrun => by
    obtain ⟨s1, h1, h2⟩ := run_cons_eq_some.mp hrun
    obtain ⟨hf, hlt⟩ := flow_step hb h (hq l List.mem_cons_self) h1
    obtain ⟨hf', hle⟩ := flow_run hb ls s1 s hf (fun l' hl' => hq l' (List.mem_cons_of_mem _ hl')) h2
    refine ⟨hf', ?_⟩
    rw [List.length_cons]
    omega

theorem Flow.handed_prefix {id : UInt64} {ps : List Bytes} {s : State} (h : Flow id ps s) :
    s.chan.handed <+: ps.map .ok := by
  have hat := h.stands
  have hpart : ∀ sent rest : List Bytes, s.chan.handed = sent.map .ok →
      s.chan.handed <+: (sent ++ rest).map .ok := by
    intro sent rest hh
    rw [hh, List.map_append]
    exact List.prefix_append _ _
  unfold FlowAt at hat
  split at hat
  · obtain ⟨sent, rest, rfl, hh, -⟩ := hat
    exact hpart sent rest hh
  · obtain ⟨sent, rest, rfl, hh, -⟩ := hat
    exact hpart sent rest hh
  · obtain ⟨sent, rest, rfl, hh, -⟩ := hat
    exact hpart sent _ hh
  · rw [hat]
  · exact hat.elim

/-! ### The two together -/

theorem proxyResponse_responseFrames {id : UInt64} {h : UpstreamHead}
    {status : StatusCode} (hstatus : h.status = status.code) (chunks : List Bytes) :
    proxyResponse ((responseFrames id h chunks).map (fun f => .ok (some f)) ++ [.ok none]) =
      some (.opened ⟨⟨status, ofList (relayedHeaders (retained (outHeaders h.headers)))⟩,
        isStream (retained (outHeaders h.headers)), toCome id (bodyPieces chunks)⟩) := by
  have hrest : (bodyPieces chunks).map (fun p => .ok (some (.proxyResponseBody id p))) ++
      [.ok (some (.proxyResponseEnd id true)), .ok none] = toCome id (bodyPieces chunks) := rfl
  unfold proxyResponse responseFrames openFrames
  rw [← hrest]
  simp [readHead, hstatus, StatusCode.fromU16_code, Function.comp_def]

/-- **Transparency.** For every run of the agent:

* no body frame that it writes is empty or above the limit, and no relay of its frames, whatever else
  happens, ends as a protocol violation;
* if the upstream's response ended, on a stream neither cancelled nor broken, and its head fits in a frame:
  in whatever segmentation the tunnel delivers the bytes, the gateway builds a response with the upstream's
  status and exactly its headers, without those dropped and the values that are not UTF-8, each name's
  values in order; and at whatever pace the client reads, a quiet relay of the rest hands on nothing but a
  beginning of the upstream's body, and where it can go no further, which it must after boundedly many
  steps, the client has taken all of it. -/
theorem response_transparency (P : Postcard) (hP : Roomy P) (env : Env)
    (requests : List (Except IoError (Option Frame))) (als : List Agent.Stream.Label)
    (a : Agent.Stream.State)
    (hrun : run (Agent.Stream.step env) (Agent.Stream.init requests) als = some a) :
    Sized a.written ∧
    (∀ (ctx : Ctx) (cap : ℕ) (up : List (Except IoError (Option Frame))) (w : Watch) (ls : List Label)
      (s : State), (∀ f, .ok (some f) ∈ up → f ∈ a.written) →
      run (step ctx) (init ctx cap up w) ls = some s → ¬ Violated s.pc) ∧
    ∀ (h : UpstreamHead) (status : StatusCode) (chunks : List Bytes), h.status = status.code →
      Heard als h (chunks.map .chunk ++ [.eof]) → (∀ l ∈ als, Undisturbed l) → a.pc = .returned →
      (∀ id, .proxyResponseHead id h.status (outHeaders h.headers) ∈ a.written →
        ∃ w, writeFrame P (.proxyResponseHead id h.status (outHeaders h.headers)) = .ok w) →
      ∃ ws, Wire P a.written ws ∧ ∀ (evs : List ReadEvent), NoFail evs → incoming evs = ws →
        ∀ n, evs.length + a.written.length < n →
        ∃ o, proxyResponse (drain P n .new evs) = some (.opened o) ∧ o.response.status = status ∧
          (∀ name, getAll o.response.headers name =
            if Dropped h.headers name then []
            else (getAll h.headers name).filter fun v => v.asUtf8.isSome) ∧
          ∃ ps : List Bytes, ps.flatten = chunks.flatten ∧
            ∀ (ctx : Ctx) (ls : List Label) (s : State), (∀ l ∈ ls, Quiet l) →
              run (step ctx) (init ctx 32 o.rest runningWatch) ls = some s →
              ls.length ≤ 4 * ps.length + 10 ∧ s.chan.handed <+: ps.map .ok ∧
              ((∀ l, Quiet l → step ctx s l = none) →
                s.pc = .done .upstreamEnd ∧ s.chan.taken = ps.map .ok) := by
  have hsized := sized_run hrun
  refine ⟨hsized, fun ctx cap up w ls s hup hs => unviolated_run (bounded_of_sized hsized hup) hs, ?_⟩
  intro h status chunks hstatus hheard hund hret hfit
  obtain ⟨id, hw⟩ := written_of_undisturbed hrun hund hret hheard
  rw [hw] at hfit ⊢
  obtain ⟨ws, hws⟩ := wire_responseFrames hP (hfit id (by simp [responseFrames, openFrames])) chunks
  refine ⟨ws, hws, fun evs hno hin n hn => ?_⟩
  have hdrain := (frame_stream_round_trip P _ ws hws evs hno n hn).1 hin
  rw [hdrain]
  refine ⟨_, proxyResponse_responseFrames hstatus chunks, rfl, getAll_relayedHeaders h.headers,
    bodyPieces chunks, bodyPieces_flatten chunks, fun ctx ls s hq hs => ?_⟩
  have hb : ∀ p ∈ bodyPieces chunks, p.length ≤ maxResponseChunk := fun p hp => (bodyPieces_size hp).2
  obtain ⟨hflow, hlen⟩ := flow_run hb ls _ s (flow_init ctx id (bodyPieces chunks)) hq hs
  have hstart : remaining (init ctx 32 (toCome id (bodyPieces chunks)) runningWatch) =
      4 * (bodyPieces chunks).length + 10 := by
    simp [remaining, init, weight, toCome]
    omega
  exact ⟨by omega, hflow.handed_prefix, flow_progress hflow⟩

def etagName : HeaderName := ⟨"etag", by decide⟩

def etagValue : HeaderValue := ⟨[97], List.all_eq_true.mp (by decide)⟩

def traceName : HeaderName := ⟨"x-trace", by decide⟩

/-- One header that passes, and one that the third names. -/
def modelsHeaders : HeaderMap :=
  ofList [(etagName, etagValue), (traceName, ⟨[49], List.all_eq_true.mp (by decide)⟩),
    (connectionName, ⟨[120, 45, 116, 114, 97, 99, 101], List.all_eq_true.mp (by decide)⟩)]

/-- A list of models in two chunks with an empty one between them. -/
def modelsRun : List Agent.Stream.Label :=
  [.first, .contact, .head (some ⟨200, modelsHeaders⟩), .write true, .body (.chunk [1]), .write true,
    .body (.chunk []), .body (.chunk [2]), .write true, .body .eof, .write true]

/-- However it is delivered, it has its headers and its body. -/
theorem response_transparency_models : ∃ a ws,
    run (Agent.Stream.step localEnv)
      (Agent.Stream.init [.ok (some (.proxyRequest 7 "GET" "/v1/models" [] []))]) modelsRun = some a ∧
    Wire postcard a.written ws ∧ ∀ evs, NoFail evs → incoming evs = ws →
      ∃ o, proxyResponse (drain postcard (evs.length + 5) .new evs) = some (.opened o) ∧
        o.response.status.code = 200 ∧ getAll o.response.headers etagName = [etagValue] ∧
        getAll o.response.headers traceName = [] ∧
        ∃ ps : List Bytes, ps.flatten = [1, 2] ∧
          ∀ (ctx : Ctx) (ls : List Label) (s : State), (∀ l ∈ ls, Quiet l) →
            run (step ctx) (init ctx 32 o.rest runningWatch) ls = some s → s.chan.handed <+: ps.map .ok := by
  have hrun : ∃ a, run (Agent.Stream.step localEnv)
      (Agent.Stream.init [.ok (some (.proxyRequest 7 "GET" "/v1/models" [] []))]) modelsRun = some a ∧
      a.pc = .returned ∧ a.written = [.proxyResponseHead 7 200 [("etag", "a")], .proxyResponseBody 7 [1],
        .proxyResponseBody 7 [2], .proxyResponseEnd 7 true] := ⟨_, rfl, rfl, rfl⟩
  obtain ⟨a, hrun, hret, hw⟩ := hrun
  obtain ⟨ws, hws, h⟩ := (response_transparency postcard roomy_postcard localEnv _ _ a hrun).2.2
    ⟨200, modelsHeaders⟩ ⟨200, by decide⟩ [[1], [], [2]] rfl ⟨rfl, rfl⟩ (by simp [modelsRun, Undisturbed]) hret
    (fun id hid => by
      rw [hw] at hid
      obtain ⟨rfl, -⟩ : id = 7 ∧ outHeaders modelsHeaders = [("etag", "a")] := by simpa using hid
      exact ⟨[0, 0, 0, 12, 3, 7, 200, 1, 1, 4, 101, 116, 97, 103, 1, 97], rfl⟩)
  refine ⟨a, ws, hrun, hws, fun evs hno hin => ?_⟩
  obtain ⟨o, ho, hstatus, hheaders, ps, hps, hrelay⟩ := h evs hno hin (evs.length + 5) (by rw [hw]; simp)
  refine ⟨o, ho, by rw [hstatus], ?_, ?_, ps, hps, fun ctx ls s hq hs => (hrelay ctx ls s hq hs).2.1⟩
  · rw [hheaders]
    decide
  · rw [hheaders]
    decide

end HomeLlmGateway.Proxy.Transparency
