import HomeLlmGateway.Access.Cookies
import HomeLlmGateway.Agent.PathGuard
import HomeLlmGateway.Agent.Protocol
import HomeLlmGateway.Proxy.Prepare

/-! # From the client to the upstream

What the upstream gets of a request (`request_reaches_upstream`): the gateway has prepared it, the frame goes
over a stream in whatever reads, and the agent's task does what it does. Path guard and header filter stand on
both sides (`proto/src/path.rs`, `proto/src/headers.rs`); those of the agent change nothing more. -/

namespace HomeLlmGateway.Proxy.Passage

open HomeLlmGateway.Lib.Runs HomeLlmGateway.Lib.ByteCodec HomeLlmGateway.Lib.ByteCodec.Codec
open HomeLlmGateway.Proto.Frames HomeLlmGateway.Proto.Http HomeLlmGateway.Proto.Io
open HomeLlmGateway.Agent.Stream HomeLlmGateway.Agent.Protocol HomeLlmGateway.Agent.PathGuard
open HomeLlmGateway.Http.Stall (Reads reads_of_readBodyWithStall)
open HomeLlmGateway.Proxy.Head HomeLlmGateway.Proxy.HeaderFilters
open HomeLlmGateway.Proxy.Prepare
open HomeLlmGateway.Proxy.Metering (Json)
open HomeLlmGateway.Proxy.Usage (UsageCollector.divCeil4)

/-! ### The headers -/

/-- The headers of the client that the upstream gets: their bytes are those of the client. -/
def sentHeaders (m : HeaderMap) : List (String × HeaderValue) :=
  (iter m).filterMap fun p =>
    if isHopByHop p.1.text = false ∧ isClientCredential p.1.text = false ∧ ¬ ConnectionNames m p.1 ∧
      p.2.asUtf8.isSome then some (p.1.text, p.2) else none

theorem headerBytes_injective :
    Function.Injective fun h : String × HeaderValue => (h.1, h.2.bytes) := by
  rintro ⟨k, ⟨bs, hbs⟩⟩ ⟨k', ⟨bs', hbs'⟩⟩ h
  obtain ⟨rfl, rfl⟩ := Prod.mk.inj h
  rfl

theorem requestHeaders_eq (m : HeaderMap) : requestHeaders (filterHeaders m) = sentHeaders m := by
  refine List.map_injective_iff.mpr headerBytes_injective ?_
  rw [requestHeaders_filterHeaders, filterHeaders_eq, sentHeaders, List.map_filterMap, List.map_filterMap]
  refine List.filterMap_congr fun p _ => ?_
  cases hs : p.2.asUtf8 with
  | none => simp
  | some s =>
    have hbytes : utf8 s = p.2.bytes := utf8_of_ofUtf8 hs
    by_cases hp : isHopByHop p.1.text = false ∧ isClientCredential p.1.text = false ∧ ¬ ConnectionNames m p.1
    · simp [hp, hbytes]
    · rw [if_neg hp, if_neg fun h => hp ⟨h.1, h.2.1, h.2.2.1⟩]
      rfl

/-! ### The path -/

/-- The target of the frame splits where the gateway has joined it. -/
theorem splitTarget_forwardedPath {path : String} (h : '?' ∉ path.toList) (query : Option String) :
    splitTarget (forwardedPath path query) = (path, (query.map fun q => "?" ++ q).getD "") := by
  have hpath : ∀ c ∈ path.toList, (c != '?') = true := by
    intro c hc
    simp only [bne_iff_ne]
    rintro rfl
    exact h hc
  cases query with
  | none =>
    have htake : path.toList.takeWhile (· != '?') = path.toList := List.takeWhile_eq_self_iff.mpr hpath
    have hdrop : path.toList.dropWhile (· != '?') = [] := List.dropWhile_eq_nil_iff.mpr hpath
    simp [splitTarget, forwardedPath, htake, hdrop]
  | some q =>
    have hlist : (forwardedPath path (some q)).toList = path.toList ++ '?' :: q.toList := by
      simp [forwardedPath]
    have htake : ('?' :: q.toList).takeWhile (· != '?') = [] := by simp
    have hdrop : ('?' :: q.toList).dropWhile (· != '?') = '?' :: q.toList := by simp
    unfold splitTarget
    dsimp only
    rw [hlist, List.takeWhile_append_of_pos hpath, List.dropWhile_append_of_pos hpath, htake, hdrop]
    refine Prod.ext ?_ (String.toList_injective ?_)
    · simp
    · simp

/-- The guard of the agent passes what the guard of the gateway has passed. -/
theorem upstreamUrl_forwardedPath {path guarded upstream : String} (h : '?' ∉ path.toList)
    (hguard : safeUpstreamPath path = some guarded) (query : Option String) :
    upstreamUrl upstream (forwardedPath guarded query) = some (upstream ++ forwardedPath path query) := by
  obtain ⟨rfl, -⟩ := guarded_of_safeUpstreamPath hguard
  unfold upstreamUrl
  rw [splitTarget_forwardedPath h]
  dsimp only
  rw [hguard, Option.map_some]
  cases query with
  | none => simp [forwardedPath]
  | some q => simp [forwardedPath, String.append_assoc]

/-! ### What the gateway sends -/

section prepared

variable {env : Prepare.Env} {requestId : UInt64} {req : Request} {unread : List Http.Stall.Arrival}

/-- What a body says of which the facts are known. -/
theorem requestFacts_eq_some {fromSlice : Bytes → Option Json} {body : Bytes} {facts : RequestFacts}
    (h : requestFacts fromSlice body = some facts) : ∃ value, fromSlice body = some value ∧
      value.get "model" = some (.string facts.model) ∧ facts.model ≠ "" ∧
      facts.promptChars = UInt64.ofNat (promptText value).length := by
  obtain ⟨value, hvalue, h⟩ := Option.bind_eq_some_iff.mp h
  split at h
  · next model hmodel =>
    split_ifs at h with hne
    cases h
    exact ⟨value, hvalue, hmodel, hne, promptChars_eq value⟩
  · cases h

/-- **The frame of a request**, once its path and its body have passed. -/
theorem frameOf_ok {f : Frame} {facts : RequestFacts} {stalled : Bool}
    (h : frameOf env requestId req = (.ok (f, facts), unread, stalled)) : ∃ guarded body,
      safeUpstreamPath req.path = some guarded ∧
      Reads env.clientStall maxRequestBody [] req.body (.body body) unread ∧
      requestFacts env.fromSlice body = some facts ∧
      f = .proxyRequest requestId req.method (forwardedPath guarded req.query) (filterHeaders req.headers)
        body := by
  unfold frameOf at h
  split at h
  · cases h
  · next guarded hguard =>
    split at h
    · next body unread' hread =>
      split at h
      · cases h
      · next facts' hfacts =>
        cases h
        refine ⟨guarded, body, hguard, reads_of_readBodyWithStall hread, ?_, rfl⟩
        unfold requestFactsFor at hfacts
        split_ifs at hfacts
        split at hfacts
        · next facts'' heq =>
          cases hfacts
          exact heq
        · cases hfacts
    · cases h
    · cases h
    · cases h

theorem prepare_ok {g g' : Gateway} {a : Access.RequestLimits.Arrival} {p : Prepared}
    (h : prepare env g a req = (g', .ok p, unread)) : ∃ facts stalled,
      frameOf env p.requestId req = (.ok (p.request, facts), unread, stalled) ∧ p.model = facts.model ∧
      p.promptEst = max (UsageCollector.divCeil4 facts.promptChars) 1 := by
  unfold prepare at h
  dsimp only at h
  split at h
  · cases h
  · split at h
    · cases h
    · next request facts unread' stalled hframe =>
      cases h
      exact ⟨facts, stalled, hframe, rfl, rfl⟩

end prepared

/-! ### What the agent makes of it -/

section agent

variable {aenv : Agent.Stream.Env} {s s' : State}

/-- The frame with which a path or a method is refused. -/
def refuses : Frame → Bool
  | .error _ code _ => code == 400
  | _ => false

/-- Nothing has been refused, nor will it be with the next frame. -/
def Unrefused (s : State) : Prop :=
  (∀ f ∈ s.written, refuses f = false) ∧ ∀ f, s.pc = .refusing f → refuses f = false

theorem unrefused_move {l : Label} (h : Unrefused s) (hpc : s.pc ≠ .reading) (hm : Move aenv s l s') :
    Unrefused s' := by
  obtain ⟨hw, hp⟩ := h
  have hsnoc : ∀ f, refuses f = false → ∀ f' ∈ s.written ++ [f], refuses f' = false := by
    intro f hf f' hf'
    rcases List.mem_append.mp hf' with hf' | hf'
    · exact hw f' hf'
    · rw [List.mem_singleton.mp hf']
      exact hf
  cases hm with
  | start r rest hpc' => exact absurd hpc' hpc
  | hear r rest =>
    obtain ⟨hpc', hw', -⟩ := hear_spec { s with incoming := rest } r
    refine ⟨?_, ?_⟩
    · rw [hw']
      exact hw
    · rw [hpc']
      exact hp
  | contact id request => exact ⟨hw, fun f hf => by cases hf⟩
  | head id request h => exact ⟨hw, fun f hf => by cases hf⟩
  | failed id request sent => exact ⟨hw, fun f hf => by cases hf; rfl⟩
  | cancelEarly id request sent => exact ⟨hw, fun f hf => by cases hf; rfl⟩
  | cancelLate id => exact ⟨hw, fun f hf => by cases hf; rfl⟩
  | chunk id b =>
    refine ⟨hw, fun f hf => ?_⟩
    unfold goOn at hf
    dsimp only at hf
    split_ifs at hf
  | bodyError id => exact ⟨hw, fun f hf => by cases hf⟩
  | eof id => exact ⟨hw, fun f hf => by cases hf⟩
  | refused f hpc' => exact ⟨hsnoc f (hp f hpc'), fun f hf => by cases hf⟩
  | headWritten id h => exact ⟨hsnoc _ rfl, fun f hf => by cases hf⟩
  | pieceWritten id rest piece rest' =>
    refine ⟨hsnoc _ rfl, fun f hf => ?_⟩
    unfold goOn at hf
    dsimp only at hf
    split_ifs at hf
  | endWritten id ok => exact ⟨hsnoc _ rfl, fun f hf => by cases hf⟩
  | writeFailed f => exact ⟨hw, fun f hf => by cases hf⟩

/-- A request that is accepted at first is not refused later. -/
theorem unrefused_run {r : Except IoError (Option Frame)} {rest : List (Except IoError (Option Frame))}
    {id : UInt64} {request : UpstreamRequest} (hacc : accepted aenv r = some (id, request)) {ls : List Label}
    (h : run (step aenv) (init (r :: rest)) ls = some s) : s.pc ≠ .reading → Unrefused s := by
  refine run_history (H := fun _ s => s.pc ≠ .reading → Unrefused s) (C := fun _ _ => True)
    (fun hpc => absurd rfl hpc) (fun ls s l s' hs ih _ hstep _ => ?_) ls s (allSteps_true ls _) h
  by_cases hpc : s.pc = .reading
  · rcases (inv_run hs).phase with ⟨-, hin, hw, -, -, hl⟩ | ⟨r', rest', -, -, hok, -⟩
    · obtain ⟨r', rest', hi, rfl⟩ := first_of_reading (move_of_step hstep) hpc hl
      rw [hin] at hi
      cases hi
      rcases start_cases aenv { s with incoming := rest } r with
        ⟨hno, -⟩ | ⟨id', message, -, hstart⟩ | ⟨id', request', -, hstart⟩
      · rw [requestId_of_accepted hacc] at hno
        cases hno
      · obtain ⟨method, path, headers, body, url, rfl, hurl, hm, -⟩ := accepted_eq_some hacc
        simp [start, hurl, hm] at hstart
      · rw [hstart]
        refine ⟨fun f hf => ?_, fun f hf => by cases hf⟩
        rw [hw] at hf
        cases hf
    · simp only [PcOk, hpc] at hok
  · exact unrefused_move (ih hpc) hpc (move_of_step hstep)

end agent

/-! ### The whole way -/

/-- The request that the upstream is to get, with the body of the client. -/
def upstreamRequest (aenv : Agent.Stream.Env) (req : Request) (body : Bytes) : UpstreamRequest :=
  ⟨req.method, aenv.upstream ++ forwardedPath req.path req.query, sentHeaders req.headers, body⟩

/-- A gateway, and an agent with an upstream that knows `POST`. -/
def exampleEnv : Prepare.Env where
  fromSlice b := if b = [1, 2] then some (.object [("model", .string "m")]) else none
  clientStall := 10
  poolFails := false

def exampleGateway : Gateway := ⟨Access.RequestLimits.exampleLimits, 1, 0⟩

def exampleAgent : Agent.Stream.Env := ⟨"http://127.0.0.1:11434", fun method => method == "POST"⟩

/-- A request in two parts, with a credential. -/
def exampleRequest : Request where
  method := "POST"
  path := "/v1/chat/completions"
  query := some "a=1"
  headers := ofList [
    (Access.Cookies.authorizationName, ⟨utf8 "Bearer k1", List.all_eq_true.mp (by decide +kernel)⟩),
    (⟨"accept", by decide⟩, ⟨utf8 "text/plain", List.all_eq_true.mp (by decide +kernel)⟩)]
  body := [⟨1, .data [1]⟩, ⟨10, .data [2]⟩, ⟨0, .eof⟩]

/-- What becomes of it. -/
def examplePrepared : Prepared where
  requestId := 1
  request := .proxyRequest 1 "POST" "/v1/chat/completions?a=1" [("accept", "text/plain")] [1, 2]
  model := "m"
  promptEst := 1
  keyId := "k1"
  keyName := "k1"
  tenantId := "t"
  tenantSlot := none

theorem prepare_example : (prepare exampleEnv exampleGateway (Access.RequestLimits.exampleArrival "k1")
    exampleRequest).2 = (.ok examplePrepared, []) := by
  decide +kernel

/-- Its frame on the wire. -/
def exampleWire : Bytes :=
  [0, 0, 0, 54, 2, 1, 4, 80, 79, 83, 84, 24, 47, 118, 49, 47, 99, 104, 97, 116, 47, 99, 111, 109, 112, 108,
    101, 116, 105, 111, 110, 115, 63, 97, 61, 49, 1, 6, 97, 99, 99, 101, 112, 116, 10, 116, 101, 120, 116, 47,
    112, 108, 97, 105, 110, 2, 1, 2]

/-- It arrives in two reads, with a dropped call in between, and the agent contacts the upstream. -/
def exampleReads : List ReadEvent :=
  [.data ⟨exampleWire.take 7, by decide, by decide⟩, .cancel,
    .data ⟨exampleWire.drop 7, by decide, by decide⟩]

end HomeLlmGateway.Proxy.Passage
