import HomeLlmGateway.Agent.Stream
import HomeLlmGateway.Proxy.Forward

/-! # The response that the gateway builds

The end of `proxy` (`gateway/src/proxy/mod.rs`): wait for the response head (`read_head`, `proxy/head.rs`)
and build the response to the client from it; the results of the reader after the head go to the relay
(`Proxy.Forward`). The agent has filtered the headers already, and the gateway filters them again: together
they drop what one of them would (`getAll_relayedHeaders`). -/

namespace HomeLlmGateway.Proxy.Head

open HomeLlmGateway.Proto.Frames HomeLlmGateway.Proto.Http
open HomeLlmGateway.Proto.Io (IoError)
open HomeLlmGateway.Agent.Stream (outHeaders responseTokens)

/-! ### The head -/

/-- `StatusCode`. -/
structure StatusCode where
  code : UInt16
  valid : 100 ≤ code.toNat ∧ code.toNat < 1000
  deriving DecidableEq

/-- `StatusCode::from_u16`. -/
def StatusCode.fromU16 (code : UInt16) : Option StatusCode :=
  if h : 100 ≤ code.toNat ∧ code.toNat < 1000 then some ⟨code, h⟩ else none

/-- `StatusCode::BAD_GATEWAY`. -/
def StatusCode.badGateway : StatusCode := ⟨502, by decide⟩

theorem StatusCode.fromU16_code (status : StatusCode) : StatusCode.fromU16 status.code = some status :=
  dif_pos status.valid

/-- `HeadOutcome`. -/
inductive HeadOutcome where
  | head (status : StatusCode) (headers : Headers)
  | error (status : StatusCode) (message : String)

/-- `read_head`: its outcome and the results left to the relay, once there is one. -/
def readHead : List (Except IoError (Option Frame)) →
    Option (Except IoError HeadOutcome × List (Except IoError (Option Frame)))
  | [] => none
  | .ok (some (.proxyResponseHead _ status headers)) :: rest =>
    some (.ok (.head ((StatusCode.fromU16 status).getD .badGateway) headers), rest)
  | .ok (some (.error _ code message)) :: rest =>
    some (.ok (.error ((StatusCode.fromU16 code).getD .badGateway) message), rest)
  | .ok (some (.proxyResponseEnd _ _)) :: rest =>
    some (.ok (.error .badGateway "empty upstream response"), rest)
  -- any other frame before the head is skipped, a body frame too
  | .ok (some _) :: rest => readHead rest
  | .ok none :: rest => some (.ok (.error .badGateway "upstream closed before responding"), rest)
  | .error e :: rest => some (.error e, rest)

/-! ### The response -/

/-- `out_headers.retain`. -/
def retained (headers : Headers) : Headers := headers.filter fun h => !isHopByHop h.1

/-- `is_stream`, of the headers kept. -/
def isStream (headers : Headers) : Bool :=
  headers.any fun h => eqIgnoreAsciiCase h.1 "content-type" &&
    contains h.2.toList "text/event-stream".toList

/-- `forwardable_response_header`. -/
def forwardableResponseHeader (name : String) (connection : List String) : Bool :=
  !isHopByHop name && !isConnectionNamed name connection

/-- `relayable_response_header`. -/
def relayableResponseHeader (name value : String) : Option (HeaderName × HeaderValue) :=
  (HeaderName.fromBytes name).bind fun n => (HeaderValue.fromStr value).map fun v => (n, v)

/-- The headers that the loop over `out_headers` sets, in order. -/
def relayedHeaders (headers : Headers) : List (HeaderName × HeaderValue) :=
  headers.filterMap fun h =>
    if forwardableResponseHeader h.1 (connectionTokens headers) then relayableResponseHeader h.1 h.2
    else none

/-- The response to the client, without its body. -/
structure Response where
  status : StatusCode
  headers : HeaderMap

/-- What comes of a head: the response, whether the relay treats it as a stream of events, and the
results left to the relay. -/
structure Opened where
  response : Response
  isStream : Bool
  rest : List (Except IoError (Option Frame))

/-- How waiting for the head ends. -/
inductive Outcome where
  | opened (o : Opened)
  /-- `error_response` with this status and message -/
  | failure (status : StatusCode) (message : String)

/-- `proxy` from the response head on, once there is one. -/
def proxyResponse (results : List (Except IoError (Option Frame))) : Option Outcome :=
  (readHead results).map fun
    | (.ok (.head status headers), rest) =>
      .opened ⟨⟨status, ofList (relayedHeaders (retained headers))⟩, isStream (retained headers), rest⟩
    | (.ok (.error status message), _) => .failure status message
    | (.error e, _) => .failure .badGateway ("tunnel read failed: " ++ e.message)

/-! ### What reaches the client of the headers -/

/-- `connection`. -/
def connectionName : HeaderName := ⟨"connection", by decide⟩

/-- A `Connection` header in visible ASCII names the header `n`. -/
def ConnectionNames (m : HeaderMap) (n : HeaderName) : Prop :=
  ∃ v ∈ getAll m connectionName, ∃ text, v.toStr = some text ∧ n.text ∈ valueTokens text

/-- The headers that do not pass. -/
def Dropped (m : HeaderMap) (n : HeaderName) : Prop := isHopByHop n.text = true ∨ ConnectionNames m n

theorem toLower_toLower (c : Char) : c.toLower.toLower = c.toLower := by
  by_cases hc : c.val ≥ 'A'.val ∧ c.val ≤ 'Z'.val
  · have hall : ∀ n < 91, 65 ≤ n → (Char.ofNat n).toLower.toLower = (Char.ofNat n).toLower := by decide
    have hA : 65 ≤ c.toNat := UInt32.le_iff_toNat_le.mp hc.1
    have hZ : c.toNat ≤ 90 := UInt32.le_iff_toNat_le.mp hc.2
    have h := hall c.toNat (by omega) hA
    rwa [Char.ofNat_toNat] at h
  · have h : c.toLower = c := by
      unfold Char.toLower
      rw [dif_neg hc]
    rw [h, h]

theorem map_toLower_valueTokens {text token : String} (h : token ∈ valueTokens text) :
    token.toList.map Char.toLower = token.toList := by
  obtain ⟨t, -, rfl⟩ := List.mem_map.mp h
  unfold toAsciiLowercase
  rw [String.toList_ofList, String.toList_ofList, List.map_map]
  exact List.map_congr_left fun c _ => toLower_toLower c

theorem eqIgnoreAsciiCase_token {text token : String} (h : token ∈ valueTokens text) (n : HeaderName) :
    eqIgnoreAsciiCase token n.text = true ↔ token = n.text := by
  unfold eqIgnoreAsciiCase
  rw [map_toLower_valueTokens h, map_toLower_of_isName n.valid, beq_iff_eq]
  exact String.toList_inj

theorem eqIgnoreAsciiCase_connection (n : HeaderName) :
    eqIgnoreAsciiCase n.text "connection" = true ↔ n = connectionName := by
  have hc : "connection".toList.map Char.toLower = connectionName.text.toList := by decide
  unfold eqIgnoreAsciiCase
  rw [map_toLower_of_isName n.valid, hc, beq_iff_eq, String.toList_inj]
  obtain ⟨text, hv⟩ := n
  exact ⟨fun h => (by cases h; rfl), fun h => congrArg HeaderName.text h⟩

theorem mem_iter {m : HeaderMap} {n : HeaderName} {v : HeaderValue} :
    (n, v) ∈ iter m ↔ v ∈ getAll m n := by
  rw [← valuesOf_iter]
  simp [valuesOf]

/-- **The tokens of a response** are those of its visible `Connection` headers. -/
theorem isConnectionNamed_responseTokens (m : HeaderMap) (n : HeaderName) :
    isConnectionNamed n.text (responseTokens m) = true ↔ ConnectionNames m n := by
  have hmem : ∀ token, token ∈ responseTokens m ↔
      ∃ v ∈ getAll m connectionName, ∃ text, v.toStr = some text ∧ token ∈ valueTokens text := by
    intro token
    unfold responseTokens connectionTokens
    simp only [List.mem_flatMap, List.mem_filter, List.mem_filterMap, Option.map_eq_some_iff]
    constructor
    · rintro ⟨h, ⟨⟨⟨n', v⟩, hiter, text, htext, rfl⟩, hc⟩, ht⟩
      rw [(eqIgnoreAsciiCase_connection n').mp hc] at hiter
      exact ⟨v, mem_iter.mp hiter, text, htext, ht⟩
    · rintro ⟨v, hv, text, htext, ht⟩
      exact ⟨(connectionName.text, text), ⟨⟨(connectionName, v), mem_iter.mpr hv, text, htext, rfl⟩,
        (eqIgnoreAsciiCase_connection connectionName).mpr rfl⟩, ht⟩
  unfold isConnectionNamed
  rw [List.any_eq_true]
  constructor
  · rintro ⟨token, htoken, heq⟩
    obtain ⟨v, hv, text, htext, ht⟩ := (hmem token).mp htoken
    rw [(eqIgnoreAsciiCase_token ht n).mp heq] at ht
    exact ⟨v, hv, text, htext, ht⟩
  · rintro ⟨v, hv, text, htext, ht⟩
    exact ⟨n.text, (hmem n.text).mpr ⟨v, hv, text, htext, ht⟩, (eqIgnoreAsciiCase_token ht n).mpr rfl⟩

instance (m : HeaderMap) (n : HeaderName) : Decidable (ConnectionNames m n) :=
  decidable_of_iff _ (isConnectionNamed_responseTokens m n)

instance (m : HeaderMap) (n : HeaderName) : Decidable (Dropped m n) := by unfold Dropped; infer_instance

theorem dropped_iff (m : HeaderMap) (n : HeaderName) :
    (isHopByHop n.text || isConnectionNamed n.text (responseTokens m)) = true ↔ Dropped m n := by
  rw [Bool.or_eq_true, isConnectionNamed_responseTokens]
  rfl

/-- The headers of the agent's frame, as the gateway keeps them: it finds none of one hop left. -/
theorem retained_outHeaders (m : HeaderMap) : retained (outHeaders m) = outHeaders m := by
  unfold retained
  rw [List.filter_eq_self]
  intro h hm
  obtain ⟨⟨n, v⟩, -, hp⟩ := List.mem_filterMap.mp hm
  simp only at hp
  split_ifs at hp with hd
  obtain ⟨s, -, rfl⟩ := Option.map_eq_some_iff.mp hp
  simp only [Bool.or_eq_true, not_or] at hd
  simpa using hd.1

/-- **Both filters together**: a header passes unless its name is dropped or its value is not UTF-8. -/
theorem relayedHeaders_outHeaders (m : HeaderMap) :
    relayedHeaders (outHeaders m) =
      (iter m).filter fun p => !decide (Dropped m p.1) && p.2.asUtf8.isSome := by
  have htokens : connectionTokens (outHeaders m) = [] := by
    have h := connectionTokens_retain (outHeaders m)
    have hr := retained_outHeaders m
    unfold retained at hr
    rw [hr] at h
    exact h
  unfold relayedHeaders
  rw [htokens]
  unfold outHeaders
  rw [List.filterMap_filterMap, ← List.filterMap_eq_filter]
  refine List.filterMap_congr fun p _ => ?_
  obtain ⟨n, v⟩ := p
  by_cases hd : Dropped m n
  · have hb := (dropped_iff m n).mpr hd
    simp [hb, hd, Option.guard]
  · have hb : (isHopByHop n.text || isConnectionNamed n.text (responseTokens m)) = false := by
      simpa using mt (dropped_iff m n).mp hd
    cases hu : v.asUtf8 with
    | none => simp [hb, hd, hu, Option.guard]
    | some s =>
      obtain ⟨hhop, hconn⟩ := Bool.or_eq_false_iff.mp hb
      simp [hconn, hd, hu, Option.guard, forwardableResponseHeader, hhop, isConnectionNamed_nil,
        relayableResponseHeader, HeaderName.fromBytes_text, HeaderValue.fromStr_of_asUtf8 hu]

/-- **What reaches the client of the upstream's headers**: the values of each name in their order, those
that are UTF-8, unless the name is dropped. -/
theorem getAll_relayedHeaders (m : HeaderMap) (n : HeaderName) :
    getAll (ofList (relayedHeaders (retained (outHeaders m)))) n =
      if Dropped m n then [] else (getAll m n).filter fun v => v.asUtf8.isSome := by
  rw [retained_outHeaders, relayedHeaders_outHeaders, getAll_ofList, ← valuesOf_iter]
  unfold valuesOf
  rw [List.filter_filter]
  by_cases hd : Dropped m n
  · rw [if_pos hd, List.map_eq_nil_iff, List.filter_eq_nil_iff]
    intro p _ hp
    simp only [Bool.and_eq_true, decide_eq_true_eq, Bool.not_eq_true', decide_eq_false_iff_not] at hp
    rw [hp.1] at hp
    exact hp.2.1 hd
  · rw [if_neg hd, List.filter_map, List.filter_filter]
    congr 1
    refine List.filter_congr fun p _ => ?_
    by_cases hp : p.1 = n
    · simp [hp, hd]
    · simp [hp]

end HomeLlmGateway.Proxy.Head
