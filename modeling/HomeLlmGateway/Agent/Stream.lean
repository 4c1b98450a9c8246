import HomeLlmGateway.Lib.Runs
import HomeLlmGateway.Proto.Http
import HomeLlmGateway.Proto.Io

/-! # A request stream on the agent

`handle_stream` and `forward` (`agent/src/stream.rs`): the task that reads one request off a tunnel stream,
sends it to the local upstream and writes the response back as frames, and beside it the listener that
turns whatever else arrives on the stream into a cancellation. It is a step function: a label says what the
reader, the upstream or the runtime does next, and how a pending write ends. What only logs need
(`response_started`, `request_log`) is left out. -/

namespace HomeLlmGateway.Agent.Stream

open HomeLlmGateway.Lib.ByteCodec HomeLlmGateway.Proto.Frames
open HomeLlmGateway.Proto.Io (IoError)
open HomeLlmGateway.Proto.Http

/-! ### The request -/

/-- `split_target`: the path, and the query with its `?`. -/
def splitTarget (target : String) : String × String :=
  let cs := target.toList
  (String.ofList (cs.takeWhile (· != '?')), String.ofList (cs.dropWhile (· != '?')))

/-- `upstream_url`. -/
def upstreamUrl (upstream target : String) : Option String :=
  (safeUpstreamPath (splitTarget target).1).map fun path => upstream ++ path ++ (splitTarget target).2

/-- The headers that `forward` sets on the request to the upstream. -/
def requestHeaders (headers : Headers) : List (String × HeaderValue) :=
  headers.filterMap fun (k, v) =>
    if isForwardable k (connectionTokens headers) then (HeaderValue.fromStr v).map fun v => (k, v) else none

/-- The request to the upstream. -/
structure UpstreamRequest where
  method : String
  url : String
  headers : List (String × HeaderValue)
  body : Bytes
  deriving DecidableEq

/-- What stays fixed: the upstream, and which methods `reqwest::Method::from_bytes` accepts. -/
structure Env where
  upstream : String
  validMethod : String → Bool

/-! ### The response -/

/-- The response head of the upstream. -/
structure UpstreamHead where
  status : UInt16
  headers : HeaderMap

/-- The `Connection` tokens of a response: `to_str` skips what is not visible ASCII. -/
def responseTokens (m : HeaderMap) : List String :=
  connectionTokens ((iter m).filterMap fun (n, v) => v.toStr.map fun s => (n.text, s))

/-- The headers of the response head frame. -/
def outHeaders (m : HeaderMap) : Headers :=
  (iter m).filterMap fun (n, v) =>
    if isHopByHop n.text || isConnectionNamed n.text (responseTokens m) then none
    else v.asUtf8.map fun s => (n.text, s)

/-- `take_chunk_piece`: the piece and what is left. -/
def takeChunkPiece (chunk : Bytes) : Option (Bytes × Bytes) :=
  if chunk.isEmpty then none
  else if maxResponseChunk < chunk.length then
    some (chunk.take maxResponseChunk, chunk.drop maxResponseChunk)
  else some (chunk, [])

/-- What `bytes_stream` yields. -/
inductive BodyEvent where
  | chunk (b : Bytes)
  | error
  | eof
  deriving DecidableEq

/-! ### The task -/

/-- Where the task stands. -/
inductive Pc where
  /-- waiting for the first frame -/
  | reading
  /-- writing an error frame, after which the task returns whether that worked or not -/
  | refusing (frame : Frame)
  /-- the `select!` over the upstream's response head and a cancellation; whether the request was sent -/
  | requesting (requestId : UInt64) (request : UpstreamRequest) (sent : Bool)
  | writingHead (requestId : UInt64) (head : UpstreamHead)
  /-- the `select!` over the next chunk and a cancellation -/
  | relaying (requestId : UInt64)
  /-- writing the pieces of a chunk -/
  | writingPieces (requestId : UInt64) (rest : Bytes)
  | writingEnd (requestId : UInt64) (ok : Bool)
  | returned

/-- The task, its listener and its stream. -/
structure State where
  pc : Pc
  /-- the results of `reader.next()` to come -/
  incoming : List (Except IoError (Option Frame))
  /-- the listener runs -/
  listening : Bool
  /-- `signals.cancel` -/
  cancelled : Bool
  /-- the requests sent to the upstream -/
  contacts : List UpstreamRequest
  /-- the frames written whole -/
  written : List Frame
  /-- a write failed -/
  cut : Bool

def init (incoming : List (Except IoError (Option Frame))) : State where
  pc := .reading
  incoming := incoming
  listening := false
  cancelled := false
  contacts := []
  written := []
  cut := false

/-- What happens next. -/
inductive Label where
  /-- the first `reader.next()` yields -/
  | first
  /-- `reader.next()` of the listener yields -/
  | listen
  /-- `rb.send()` is polled for the first time -/
  | contact
  /-- `rb.send()` yields a response, or an error -/
  | head (r : Option UpstreamHead)
  /-- the `select!` sees the cancellation -/
  | cancelSeen
  /-- the response body yields -/
  | body (ev : BodyEvent)
  /-- the pending `write_frame` ends -/
  | write (ok : Bool)

/-- The error frames of the task. -/
def invalidPath (requestId : UInt64) : Frame := .error (some requestId) 400 "invalid request path"

@[inherit_doc invalidPath]
def invalidMethod (requestId : UInt64) : Frame := .error (some requestId) 400 "invalid request method"

@[inherit_doc invalidPath]
def upstreamFailed (requestId : UInt64) : Frame :=
  .error (some requestId) 502 "local upstream request failed"

@[inherit_doc invalidPath]
def cancelledByClient (requestId : UInt64) : Frame := .error (some requestId) 499 "cancelled by client"

/-- `handle_stream` after the first result of the reader. -/
def start (env : Env) (s : State) : Except IoError (Option Frame) → State
  | .ok (some (.proxyRequest requestId method path headers body)) =>
    match upstreamUrl env.upstream path with
    | none => { s with pc := .refusing (invalidPath requestId) }
    | some url =>
      if env.validMethod method then
        { s with pc := .requesting requestId ⟨method, url, requestHeaders headers, body⟩ false
                 listening := true }
      else { s with pc := .refusing (invalidMethod requestId) }
  | _ => { s with pc := .returned }

/-- The listener after a result of the reader. -/
def hear (s : State) : Except IoError (Option Frame) → State
  | .ok (some (.cancel _)) | .ok none | .error _ => { s with cancelled := true, listening := false }
  | .ok (some _) => s

/-- After a chunk, or a piece of one, with `rest` to write. -/
def goOn (s : State) (requestId : UInt64) (rest : Bytes) : State :=
  { s with pc := if rest.isEmpty then .relaying requestId else .writingPieces requestId rest }

/-- The frame that a pending write is about. -/
def writing : Pc → Option Frame
  | .refusing f => some f
  | .writingHead requestId head =>
    some (.proxyResponseHead requestId head.status (outHeaders head.headers))
  | .writingPieces requestId rest => (takeChunkPiece rest).map fun p => .proxyResponseBody requestId p.1
  | .writingEnd requestId ok => some (.proxyResponseEnd requestId ok)
  | _ => none

/-- After a `write_frame` that worked. -/
def afterWrite (s : State) (f : Frame) : State :=
  let s' := { s with written := s.written ++ [f] }
  match s.pc with
  | .writingHead requestId _ => { s' with pc := .relaying requestId }
  | .writingPieces requestId rest => goOn s' requestId ((takeChunkPiece rest).map (·.2) |>.getD [])
  | _ => { s' with pc := .returned }

/-- One step. -/
def step (env : Env) (s : State) : Label → Option State
  | .first =>
    match s.pc, s.incoming with
    | .reading, r :: rest => some (start env { s with incoming := rest } r)
    | _, _ => none
  | .listen =>
    match s.incoming with
    | r :: rest => if s.listening then some (hear { s with incoming := rest } r) else none
    | [] => none
  | .contact =>
    match s.pc with
    | .requesting requestId request false =>
      some { s with pc := .requesting requestId request true, contacts := s.contacts ++ [request] }
    | _ => none
  | .head (some h) =>
    match s.pc with
    | .requesting requestId _ true => some { s with pc := .writingHead requestId h }
    | _ => none
  | .head none =>
    match s.pc with
    | .requesting requestId _ _ => some { s with pc := .refusing (upstreamFailed requestId) }
    | _ => none
  | .cancelSeen =>
    if s.cancelled then
      match s.pc with
      | .requesting requestId _ _ | .relaying requestId =>
        some { s with pc := .refusing (cancelledByClient requestId) }
      | _ => none
    else none
  | .body ev =>
    match s.pc with
    | .relaying requestId =>
      match ev with
      | .chunk b => some (goOn s requestId b)
      | .error => some { s with pc := .writingEnd requestId false }
      | .eof => some { s with pc := .writingEnd requestId true }
    | _ => none
  | .write ok =>
    (writing s.pc).map fun f => if ok then afterWrite s f else { s with pc := .returned, cut := true }

/-! ### What a step can do -/

/-- What a step can do. -/
inductive Move (env : Env) (s : State) : Label → State → Prop
  | start (r : Except IoError (Option Frame)) (rest : List (Except IoError (Option Frame)))
      (hpc : s.pc = .reading) (hi : s.incoming = r :: rest) :
      Move env s .first (start env { s with incoming := rest } r)
  | hear (r : Except IoError (Option Frame)) (rest : List (Except IoError (Option Frame)))
      (hl : s.listening = true) (hi : s.incoming = r :: rest) :
      Move env s .listen (hear { s with incoming := rest } r)
  | contact (id : UInt64) (request : UpstreamRequest) (hpc : s.pc = .requesting id request false) :
      Move env s .contact
        { s with pc := .requesting id request true, contacts := s.contacts ++ [request] }
  | head (id : UInt64) (request : UpstreamRequest) (h : UpstreamHead)
      (hpc : s.pc = .requesting id request true) :
      Move env s (.head (some h)) { s with pc := .writingHead id h }
  | failed (id : UInt64) (request : UpstreamRequest) (sent : Bool)
      (hpc : s.pc = .requesting id request sent) :
      Move env s (.head none) { s with pc := .refusing (upstreamFailed id) }
  | cancelEarly (id : UInt64) (request : UpstreamRequest) (sent : Bool)
      (hpc : s.pc = .requesting id request sent) :
      Move env s .cancelSeen { s with pc := .refusing (cancelledByClient id) }
  | cancelLate (id : UInt64) (hpc : s.pc = .relaying id) :
      Move env s .cancelSeen { s with pc := .refusing (cancelledByClient id) }
  | chunk (id : UInt64) (b : Bytes) (hpc : s.pc = .relaying id) :
      Move env s (.body (.chunk b)) (goOn s id b)
  | bodyError (id : UInt64) (hpc : s.pc = .relaying id) :
      Move env s (.body .error) { s with pc := .writingEnd id false }
  | eof (id : UInt64) (hpc : s.pc = .relaying id) :
      Move env s (.body .eof) { s with pc := .writingEnd id true }
  | refused (f : Frame) (hpc : s.pc = .refusing f) :
      Move env s (.write true) { s with written := s.written ++ [f], pc := .returned }
  | headWritten (id : UInt64) (h : UpstreamHead) (hpc : s.pc = .writingHead id h) :
      Move env s (.write true) { s with
        written := s.written ++ [.proxyResponseHead id h.status (outHeaders h.headers)]
        pc := .relaying id }
  | pieceWritten (id : UInt64) (rest piece rest' : Bytes) (hpc : s.pc = .writingPieces id rest)
      (hp : takeChunkPiece rest = some (piece, rest')) :
      Move env s (.write true)
        (goOn { s with written := s.written ++ [.proxyResponseBody id piece] } id rest')
  | endWritten (id : UInt64) (ok : Bool) (hpc : s.pc = .writingEnd id ok) :
      Move env s (.write true)
        { s with written := s.written ++ [.proxyResponseEnd id ok], pc := .returned }
  | writeFailed (f : Frame) (hf : writing s.pc = some f) :
      Move env s (.write false) { s with pc := .returned, cut := true }

/-- **Inversion of a step.** -/
theorem move_of_step {env : Env} {s s' : State} {l : Label} (h : step env s l = some s') :
    Move env s l s' := by
  cases l with
  | first =>
    simp only [step] at h
    split at h
    · next r rest hpc hi => cases h; exact .start r rest hpc hi
    · cases h
  | listen =>
    simp only [step] at h
    split at h
    · next r rest hi =>
      split_ifs at h with hl
      cases h
      exact .hear r rest hl hi
    · cases h
  | contact =>
    simp only [step] at h
    split at h
    · next id request hpc => cases h; exact .contact id request hpc
    · cases h
  | head r =>
    cases r with
    | none =>
      simp only [step] at h
      split at h
      · next id request sent hpc => cases h; exact .failed id request sent hpc
      · cases h
    | some r =>
      simp only [step] at h
      split at h
      · next id request hpc => cases h; exact .head id request r hpc
      · cases h
  | cancelSeen =>
    simp only [step] at h
    split_ifs at h
    split at h
    · next id request sent hpc => cases h; exact .cancelEarly id request sent hpc
    · next id hpc => cases h; exact .cancelLate id hpc
    · cases h
  | body ev =>
    simp only [step] at h
    split at h
    · next id hpc =>
      cases ev with
      | chunk b => cases h; exact .chunk id b hpc
      | error => cases h; exact .bodyError id hpc
      | eof => cases h; exact .eof id hpc
    · cases h
  | write ok =>
    obtain ⟨f, hf, h⟩ := Option.map_eq_some_iff.mp h
    cases ok with
    | false => cases h; exact .writeFailed f hf
    | true =>
      subst h
      simp only [if_true]
      unfold afterWrite
      cases hpc : s.pc with
      | refusing f' => rw [hpc] at hf; cases hf; exact .refused f hpc
      | writingHead id hd => rw [hpc] at hf; cases hf; exact .headWritten id hd hpc
      | writingPieces id rest =>
        rw [hpc] at hf
        obtain ⟨⟨piece, rest'⟩, hp, rfl⟩ := Option.map_eq_some_iff.mp hf
        have hm : Move env s (.write true) _ := .pieceWritten id rest piece rest' hpc hp
        simpa only [hpc, hp, Option.map_some, Option.getD_some] using hm
      | writingEnd id ok => rw [hpc] at hf; cases hf; exact .endWritten id ok hpc
      | reading | requesting | relaying | returned => rw [hpc] at hf; cases hf

end HomeLlmGateway.Agent.Stream
