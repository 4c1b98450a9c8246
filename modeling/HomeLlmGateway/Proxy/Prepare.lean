import HomeLlmGateway.Http.Stall
import HomeLlmGateway.Http.RequestId
import HomeLlmGateway.Access.RequestLimits
import HomeLlmGateway.Proxy.HeaderFilters
import HomeLlmGateway.Proxy.Metering

/-! # The request on its way to the agent

`prepare` (`gateway/src/proxy/prepare.rs`), from the limits of the request (`Access.RequestLimits`) to its
frame: the path guard, the reading of the body (`Http.Stall`), what the body says (`request_facts` in
`gateway/src/usage_meter.rs`) and the headers (`Proxy.HeaderFilters`). What comes of the frame on the agent is
`Agent.Stream`; `request_reaches_upstream` follows a request from the client to the upstream. -/

namespace HomeLlmGateway.Proxy.Prepare

open HomeLlmGateway.Lib.ByteCodec HomeLlmGateway.Lib.ByteCodec.Codec
open HomeLlmGateway.Proto.Frames HomeLlmGateway.Proto.Http
open HomeLlmGateway.Access.RequestLimits (ErrorResponse Limits)
open HomeLlmGateway.Gateway.TenantLimits (TenantLimiter)
open HomeLlmGateway.Http.Stall (readBodyWithStall)
open HomeLlmGateway.Http.RequestId (tunnelIdFromHeaders)
open HomeLlmGateway.Proxy.HeaderFilters (filterHeaders)
open HomeLlmGateway.Proxy.Metering (Json)
open HomeLlmGateway.Proxy.Usage (UsageCollector.divCeil4)

/-! ### What the body says -/

/-- `RequestFacts`. -/
structure RequestFacts where
  model : String
  promptChars : UInt64
  deriving DecidableEq

/-- `Value::as_str`. -/
def asStr : Json → Option String
  | .string s => some s
  | _ => none

/-- The `text` of a part. -/
def partText (part : Json) : Option String := (part.get "text").bind asStr

/-- `s.chars().count()` is added. -/
def addChars (chars : UInt64) (s : String) : UInt64 := chars + UInt64.ofNat s.length

/-- The `content` of a message. -/
def addContent (chars : UInt64) : Json → UInt64
  | .string s => addChars chars s
  | .array parts => parts.foldl (fun chars part => (partText part).elim chars (addChars chars)) chars
  | _ => chars

/-- The loop over the messages. -/
def promptChars (value : Json) : UInt64 :=
  match value.get "messages" with
  | some (.array messages) =>
    messages.foldl (fun chars m => (m.get "content").elim chars (addContent chars)) 0
  | _ => 0

/-- `FactsError`. -/
inductive FactsError where
  | invalid
  | internal
  deriving DecidableEq

/-- `PARSE_OFFLOAD_MIN_BYTES`. -/
def parseOffloadMinBytes : ℕ := 256 * 1024

/-- `MAX_REQUEST_BODY`. -/
def maxRequestBody : ℕ := 16 * 1024 * 1024

section facts

-- `serde_json::from_slice`
variable (fromSlice : Bytes → Option Json)

/-- `request_facts`. -/
def requestFacts (body : Bytes) : Option RequestFacts :=
  (fromSlice body).bind fun value =>
    match value.get "model" with
    | some (.string model) => if model = "" then none else some ⟨model, promptChars value⟩
    | _ => none

/-- `request_facts_for`; `poolFails` says that the task in the blocking pool does not end. -/
def requestFactsFor (poolFails : Bool) (body : Bytes) : Except FactsError RequestFacts :=
  if body.length < parseOffloadMinBytes ∨ poolFails = false then
    match requestFacts fromSlice body with
    | some facts => .ok facts
    | none => .error .invalid
  else .error .internal

end facts

/-! ### Prepare -/

/-- A request with its headers, whose body is still to come. -/
structure Request where
  method : String
  path : String
  query : Option String
  headers : HeaderMap
  body : List Http.Stall.Arrival

/-- What `prepare` reads and changes of the gateway. -/
structure Gateway where
  limits : Limits
  /-- `NEXT_REQUEST_ID` -/
  nextRequestId : UInt64
  /-- the metric of `record_client_stall("request-body")` -/
  bodyStalls : UInt64

/-- `Prepared`. -/
structure Prepared where
  requestId : UInt64
  request : Frame
  model : String
  promptEst : UInt64
  keyId : String
  keyName : String
  tenantId : String
  tenantSlot : Option ℕ
  deriving DecidableEq

/-- The slot is dropped with the rejection. -/
def release (m : TenantLimiter) : Option ℕ → TenantLimiter
  | none => m
  | some c => { m with counters := Function.update m.counters c (m.counters c - 1) }

/-- The path of the frame: with the query as it came. -/
def forwardedPath (guarded : String) : Option String → String
  | some q => guarded ++ "?" ++ q
  | none => guarded

/-- The rejection for a body that says too little. -/
def FactsError.rejection : FactsError → ErrorResponse
  | .invalid => ⟨400, "model is required in request body", none⟩
  | .internal => ⟨500, "internal error while parsing the request body", none⟩

/-- The parameters of `prepare`: `serde_json`, `client_stall`, and how the blocking pool fares. -/
structure Env where
  fromSlice : Bytes → Option Json
  clientStall : ℕ
  poolFails : Bool

/-- `prepare` once it has the slot of the tenant: the frame and the facts, what is not read of the body, and
whether it has stalled. -/
def frameOf (env : Env) (requestId : UInt64) (req : Request) :
    Except ErrorResponse (Frame × RequestFacts) × List Http.Stall.Arrival × Bool :=
  match safeUpstreamPath req.path with
  | none => (.error ⟨400, "invalid request path", none⟩, req.body, false)
  | some guarded =>
    match readBodyWithStall req.body env.clientStall maxRequestBody with
    | (.body body, unread) =>
      match requestFactsFor env.fromSlice env.poolFails body with
      | .error e => (.error e.rejection, unread, false)
      | .ok facts =>
        (.ok (.proxyRequest requestId req.method (forwardedPath guarded req.query)
          (filterHeaders req.headers) body, facts), unread, false)
    | (.stalled, unread) =>
      (.error ⟨408, "client stalled while sending the request body", none⟩, unread, true)
    | (.tooLarge, unread) => (.error ⟨413, "request body too large", none⟩, unread, false)
    | (.failed e, unread) => (.error ⟨400, "request body read failed: " ++ e, none⟩, unread, false)

/-- `prepare`: the gateway after it, the result, and what is not read of the body. -/
def prepare (env : Env) (g : Gateway) (a : Access.RequestLimits.Arrival) (req : Request) :
    Gateway × Except ErrorResponse Prepared × List Http.Stall.Arrival :=
  let (nextRequestId, requestId) := tunnelIdFromHeaders g.nextRequestId req.headers
  match Access.RequestLimits.prepare g.limits a with
  | (limits, .error e) => ({ g with limits := limits, nextRequestId := nextRequestId }, .error e, req.body)
  | (limits, .ok (key, slot)) =>
    match frameOf env requestId req with
    | (.error e, unread, stalled) =>
      (⟨{ limits with tenantLimiter := release limits.tenantLimiter slot }, nextRequestId,
        if stalled then g.bodyStalls + 1 else g.bodyStalls⟩, .error e, unread)
    | (.ok (request, facts), unread, _) =>
      ({ g with limits := limits, nextRequestId := nextRequestId },
        .ok ⟨requestId, request, facts.model, max (UsageCollector.divCeil4 facts.promptChars) 1,
          key.keyId, key.keyName, key.tenantId, slot⟩, unread)

/-! ### What the prompt is estimated from -/

/-- The text of a `content`. -/
def contentText : Json → List Char
  | .string s => s.toList
  | .array parts => parts.flatMap fun part => (partText part).elim [] String.toList
  | _ => []

/-- All that the messages say, put together. -/
def promptText (value : Json) : List Char :=
  match value.get "messages" with
  | some (.array messages) => messages.flatMap fun m => (m.get "content").elim [] contentText
  | _ => []

theorem foldl_chars {α : Type*} {f : UInt64 → α → UInt64} {text : α → List Char}
    (h : ∀ chars a, f chars a = chars + UInt64.ofNat (text a).length) :
    ∀ (l : List α) (chars : UInt64), l.foldl f chars = chars + UInt64.ofNat (l.flatMap text).length
  | [], chars => by simp
  | a :: l, chars => by
    rw [List.foldl_cons, foldl_chars h l, h, List.flatMap_cons, List.length_append, UInt64.ofNat_add,
      UInt64.add_assoc]

theorem addContent_eq (chars : UInt64) (c : Json) :
    addContent chars c = chars + UInt64.ofNat (contentText c).length := by
  cases c with
  | string s => rfl
  | array parts =>
    refine foldl_chars (fun chars part => ?_) parts chars
    cases partText part with
    | none => simp
    | some s => rfl
  | null => simp [addContent, contentText]
  | bool b => simp [addContent, contentText]
  | number n => simp [addContent, contentText]
  | object fields => simp [addContent, contentText]

theorem promptChars_eq (value : Json) : promptChars value = UInt64.ofNat (promptText value).length := by
  unfold promptChars promptText
  split
  · next messages _ =>
    have hmessage : ∀ (chars : UInt64) (m : Json), (m.get "content").elim chars (addContent chars) =
        chars + UInt64.ofNat ((m.get "content").elim [] contentText).length := by
      intro chars m
      cases m.get "content" with
      | none => simp
      | some c => exact addContent_eq chars c
    rw [foldl_chars hmessage messages 0, UInt64.zero_add]
  · rfl

end HomeLlmGateway.Proxy.Prepare
