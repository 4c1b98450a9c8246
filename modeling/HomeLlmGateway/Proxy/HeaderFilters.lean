import HomeLlmGateway.Lib.Split
import HomeLlmGateway.Proxy.Head

/-! # Which headers the gateway passes on

Two filters. A response goes through `out_headers.retain` first, which drops the headers of one hop and
with them every `Connection` header, and only then looks for the names that these list
(`gateway/src/proxy/mod.rs`): it finds none, so what a `Connection` header names is passed on to the client
(`response_headers_filtered`). A request goes through `filter_headers` (`gateway/src/proxy/prepare.rs`),
which reads the values of `Connection` headers with `to_str` and so skips those that are not visible ASCII
(`request_headers_filtered`). -/

namespace HomeLlmGateway.Proxy.HeaderFilters

open HomeLlmGateway.Lib.ByteCodec HomeLlmGateway.Lib.ByteCodec.Codec HomeLlmGateway.Lib.Split
open HomeLlmGateway.Proto.Frames
open HomeLlmGateway.Proto.Http
open HomeLlmGateway.Proto.Io (IoError)
open HomeLlmGateway.Agent.Stream (requestHeaders responseTokens)
open HomeLlmGateway.Proxy.Head

/-! ### Names in any case -/

theorem map_toLower_toAsciiLowercase (s : String) :
    (toAsciiLowercase s).toList.map Char.toLower = s.toList.map Char.toLower := by
  unfold toAsciiLowercase
  rw [String.toList_ofList, List.map_map]
  exact List.map_congr_left fun c _ => toLower_toLower c

theorem isHopByHop_of_fromBytes {s : String} {n : HeaderName} (h : HeaderName.fromBytes s = some n) :
    isHopByHop n.text = isHopByHop s := by
  unfold HeaderName.fromBytes at h
  split_ifs at h
  cases h
  unfold isHopByHop eqIgnoreAsciiCase
  rw [map_toLower_toAsciiLowercase]

theorem isConnectionNamed_of_fromBytes {s : String} {n : HeaderName} (h : HeaderName.fromBytes s = some n)
    (tokens : List String) : isConnectionNamed n.text tokens = isConnectionNamed s tokens := by
  unfold HeaderName.fromBytes at h
  split_ifs at h
  cases h
  unfold isConnectionNamed eqIgnoreAsciiCase
  rw [map_toLower_toAsciiLowercase]

/-! ### The response -/

section response

-- whether `HeaderMap::try_append` takes one more value of a name: a map has a maximal size
variable (room : HeaderMap → HeaderName → Bool)

/-- `Builder::header` for one header after the other, as long as the map takes them. -/
def buildHeaders (l : List (HeaderName × HeaderValue)) : Option HeaderMap :=
  l.foldlM (fun m p => if room m p.1 then some (append m p.1 p.2) else none) ∅

/-- `StatusCode::INTERNAL_SERVER_ERROR`. -/
def internalServerError : StatusCode := ⟨500, by decide⟩

/-- `proxy` from the response head on, with a map of headers that may be full. -/
def proxyResponseWithin (results : List (Except IoError (Option Frame))) : Option Outcome :=
  (readHead results).map fun
    | (.ok (.head status headers), rest) =>
      match buildHeaders room (relayedHeaders (retained headers)) with
      | some m => .opened ⟨⟨status, m⟩, isStream (retained headers), rest⟩
      | none => .failure internalServerError "internal error while building the response"
    | (.ok (.error status message), _) => .failure status message
    | (.error e, _) => .failure .badGateway ("tunnel read failed: " ++ e.message)

theorem buildHeaders_all (l : List (HeaderName × HeaderValue)) :
    buildHeaders (fun _ _ => true) l = some (ofList l) := by
  unfold buildHeaders ofList
  simp only [if_true]
  exact List.foldlM_pure

theorem proxyResponseWithin_all (results : List (Except IoError (Option Frame))) :
    proxyResponseWithin (fun _ _ => true) results = proxyResponse results := by
  unfold proxyResponseWithin proxyResponse
  cases readHead results with
  | none => rfl
  | some p =>
    obtain ⟨head, rest⟩ := p
    rcases head with e | ⟨status, headers⟩ | ⟨status, message⟩
    · rfl
    · simp only [Option.map_some, buildHeaders_all]
    · rfl

variable {room} in
theorem getAll_buildHeaders {l : List (HeaderName × HeaderValue)} {m : HeaderMap}
    (h : buildHeaders room l = some m) (n : HeaderName) : getAll m n = valuesOf n l := by
  -- what is in the map already stays in front
  have hfold : ∀ (l : List (HeaderName × HeaderValue)) (m0 m : HeaderMap),
      l.foldlM (fun m p => if room m p.1 then some (append m p.1 p.2) else none) m0 = some m →
      getAll m n = getAll m0 n ++ valuesOf n l := by
    intro l
    induction l with
    | nil =>
      intro m0 m h
      cases h
      simp [valuesOf]
    | cons p l ih =>
      intro m0 m h
      rw [List.foldlM_cons] at h
      obtain ⟨m1, h1, h⟩ := Option.bind_eq_some_iff.mp h
      split_ifs at h1
      cases h1
      rw [ih _ _ h, getAll_append, List.append_assoc, ← valuesOf_append]
      rfl
  exact hfold l ∅ m h

/-- The headers of a frame that are not of one hop and valid: the first pass drops all `Connection` headers,
and no header is named by one that is left. -/
theorem relayedHeaders_retained (headers : Headers) : relayedHeaders (retained headers) =
    headers.filterMap fun h => if isHopByHop h.1 then none else relayableResponseHeader h.1 h.2 := by
  have htokens : connectionTokens (retained headers) = [] := connectionTokens_retain headers
  unfold relayedHeaders
  rw [htokens]
  unfold retained
  rw [List.filterMap_filter]
  refine List.filterMap_congr fun h _ => ?_
  cases hh : isHopByHop h.1 with
  | true => simp
  | false => simp [forwardableResponseHeader, hh, isConnectionNamed_nil]

/-- A response without the headers that stay on one hop, those that a `Connection` header of the frame
names among them, and with all others that are valid, in the order of the frame. -/
structure Filtered (headers : Headers) (m : HeaderMap) : Prop where
  noHop : ∀ n, isHopByHop n.text = true → getAll m n = []
  noNamed : ∀ n, isConnectionNamed n.text (connectionTokens headers) = true → getAll m n = []
  others : ∀ n, isHopByHop n.text = false →
    isConnectionNamed n.text (connectionTokens headers) = false →
    getAll m n = valuesOf n (headers.filterMap fun h => relayableResponseHeader h.1 h.2)

/-- The map takes all headers that are not of one hop. -/
def Fits (headers : Headers) : Prop :=
  (buildHeaders room (headers.filterMap fun h =>
    if isHopByHop h.1 then none else relayableResponseHeader h.1 h.2)).isSome = true

variable {room}

theorem valuesOf_filterMap {α : Type*} (n : HeaderName) (f : α → Option (HeaderName × HeaderValue))
    (l : List α) : valuesOf n (l.filterMap f) =
      l.filterMap fun a => (f a).bind fun p => if p.1 = n then some p.2 else none := by
  unfold valuesOf
  rw [List.filter_filterMap, List.map_filterMap]
  refine List.filterMap_congr fun a _ => ?_
  cases hf : f a with
  | none => rfl
  | some p =>
    obtain ⟨n', v⟩ := p
    by_cases hp : n' = n
    · simp [hp]
    · simp [hp]

theorem fromBytes_of_relayable {name value : String} {n : HeaderName} {v : HeaderValue}
    (h : relayableResponseHeader name value = some (n, v)) : HeaderName.fromBytes name = some n := by
  obtain ⟨n', hn, h⟩ := Option.bind_eq_some_iff.mp h
  obtain ⟨v', -, h⟩ := Option.map_eq_some_iff.mp h
  cases h
  exact hn

theorem valuesOf_retained (headers : Headers) (n : HeaderName) :
    valuesOf n (headers.filterMap fun h =>
        if isHopByHop h.1 then none else relayableResponseHeader h.1 h.2) =
      if isHopByHop n.text then []
      else valuesOf n (headers.filterMap fun h => relayableResponseHeader h.1 h.2) := by
  rw [valuesOf_filterMap, valuesOf_filterMap]
  split_ifs with hn
  · rw [List.filterMap_eq_nil_iff]
    intro h _
    cases hh : isHopByHop h.1 with
    | true => rfl
    | false =>
      cases hr : relayableResponseHeader h.1 h.2 with
      | none => rfl
      | some p =>
        have hne : p.1 ≠ n := by
          rintro rfl
          rw [isHopByHop_of_fromBytes (fromBytes_of_relayable hr), hh] at hn
          cases hn
        simp [hne]
  · refine List.filterMap_congr fun h _ => ?_
    cases hh : isHopByHop h.1 with
    | false => rfl
    | true =>
      cases hr : relayableResponseHeader h.1 h.2 with
      | none => rfl
      | some p =>
        have hne : p.1 ≠ n := by
          rintro rfl
          rw [isHopByHop_of_fromBytes (fromBytes_of_relayable hr), hh] at hn
          exact hn rfl
        simp [hne]

theorem mem_valuesOf {headers : Headers} {name value : String} {n : HeaderName} {v : HeaderValue}
    (hm : (name, value) ∈ headers) (hr : relayableResponseHeader name value = some (n, v)) :
    v ∈ valuesOf n (headers.filterMap fun h => relayableResponseHeader h.1 h.2) := by
  rw [valuesOf_filterMap, List.mem_filterMap]
  exact ⟨(name, value), hm, by simp [hr]⟩

/-- **The map of the response is filtered** if nothing valid is named by a `Connection` header, and only
then. -/
theorem filtered_iff {headers : Headers} {m : HeaderMap}
    (hm : ∀ n, getAll m n = if isHopByHop n.text then []
      else valuesOf n (headers.filterMap fun h => relayableResponseHeader h.1 h.2)) :
    Filtered headers m ↔ ∀ h ∈ headers, (relayableResponseHeader h.1 h.2).isSome →
      isHopByHop h.1 = false → isConnectionNamed h.1 (connectionTokens headers) = false := by
  constructor
  · rintro hf ⟨name, value⟩ hmem hsome hhop
    obtain ⟨⟨n, v⟩, hr⟩ := Option.isSome_iff_exists.mp hsome
    have hb := fromBytes_of_relayable hr
    by_contra hnamed
    rw [Bool.not_eq_false, ← isConnectionNamed_of_fromBytes hb] at hnamed
    have hnil := hf.noNamed n hnamed
    rw [hm, isHopByHop_of_fromBytes hb, if_neg (by rw [hhop]; simp)] at hnil
    have hv := mem_valuesOf hmem hr
    rw [hnil] at hv
    cases hv
  · intro h
    refine ⟨fun n hn => ?_, fun n hn => ?_, fun n hn hnot => ?_⟩
    · rw [hm, if_pos hn]
    · rw [hm]
      split_ifs with hhop
      · rfl
      · rw [valuesOf_filterMap, List.filterMap_eq_nil_iff]
        rintro ⟨name, value⟩ hmem
        cases hr : relayableResponseHeader name value with
        | none => rfl
        | some p =>
          have hne : p.1 ≠ n := by
            rintro rfl
            have hb := fromBytes_of_relayable hr
            rw [isHopByHop_of_fromBytes hb, Bool.not_eq_true] at hhop
            rw [isConnectionNamed_of_fromBytes hb, h _ hmem (by simp [hr]) hhop] at hn
            cases hn
          simp [hne]
    · rw [hm, if_neg (by rw [hn]; simp)]

/-- **Response header filtering.** The response that `proxy` builds from a head has no header of one hop,
none that a `Connection` header of the frame names, and all others that are valid, exactly if the map takes
the headers and none of the valid ones that are not of one hop is named by a `Connection` header. -/
theorem response_headers_filtered (room : HeaderMap → HeaderName → Bool)
    {results rest : List (Except IoError (Option Frame))} {status : StatusCode} {headers : Headers}
    (h : readHead results = some (.ok (.head status headers), rest)) :
    (∃ o, proxyResponseWithin room results = some (.opened o) ∧ Filtered headers o.response.headers) ↔
      Fits room headers ∧ ∀ h ∈ headers, (relayableResponseHeader h.1 h.2).isSome →
        isHopByHop h.1 = false → isConnectionNamed h.1 (connectionTokens headers) = false := by
  unfold proxyResponseWithin Fits
  rw [h, Option.map_some]
  dsimp only
  rw [relayedHeaders_retained]
  cases hb : buildHeaders room (headers.filterMap fun h =>
      if isHopByHop h.1 then none else relayableResponseHeader h.1 h.2) with
  | none => simp
  | some m =>
    have hm : ∀ n, getAll m n = if isHopByHop n.text then []
        else valuesOf n (headers.filterMap fun h => relayableResponseHeader h.1 h.2) := by
      intro n
      rw [getAll_buildHeaders hb, valuesOf_retained]
    rw [← filtered_iff hm]
    constructor
    · rintro ⟨o, ho, hf⟩
      cases ho
      exact ⟨rfl, hf⟩
    · rintro ⟨-, hf⟩
      exact ⟨_, rfl, hf⟩

/-- A frame whose `Connection` header names the other header. -/
def named : Headers := [("Connection", "X-Internal"), ("x-internal", "secret")]

/-- It is passed on to the client. -/
theorem named_is_passed_on : ∃ o, proxyResponseWithin (fun _ _ => true)
      [.ok (some (.proxyResponseHead 0 200 named))] = some (.opened o) ∧
    isConnectionNamed "x-internal" (connectionTokens named) = true ∧
    getAll o.response.headers ⟨"x-internal", by decide⟩ = [⟨utf8 "secret", by decide +kernel⟩] ∧
    ¬ Filtered named o.response.headers := by
  have hget : getAll (ofList (relayedHeaders (retained named))) ⟨"x-internal", by decide⟩ =
      [⟨utf8 "secret", by decide +kernel⟩] := by decide +kernel
  have hnamed : isConnectionNamed "x-internal" (connectionTokens named) = true := by decide +kernel
  refine ⟨_, proxyResponseWithin_all _, hnamed, hget, fun hf => ?_⟩
  have hnil := hf.noNamed ⟨"x-internal", by decide⟩ hnamed
  exact absurd (hget.symm.trans hnil) (by simp)

/-- A frame of which only the `Connection` header stays behind. -/
theorem response_headers_filtered_plain : ∃ o, proxyResponseWithin (fun _ _ => true)
      [.ok (some (.proxyResponseHead 0 200 [("Connection", "close"), ("Content-Type", "text/plain")]))] =
        some (.opened o) ∧
    Filtered [("Connection", "close"), ("Content-Type", "text/plain")] o.response.headers := by
  refine (response_headers_filtered (fun _ _ => true) rfl).mpr ⟨?_, by decide +kernel⟩
  unfold Fits
  rw [buildHeaders_all]
  rfl

end response

/-! ### The request -/

/-- `filter_headers`. -/
def filterHeaders (headers : HeaderMap) : Headers :=
  let connection := connectionTokens ((iter headers).filterMap fun (n, v) =>
    v.toStr.map fun s => (n.text, s))
  (iter headers).filterMap fun (n, v) =>
    if isForwardable n.text connection then v.asUtf8.map fun s => (n.text, s) else none

/-- The character that a byte is in a header value, one for each byte. -/
def byteChar (b : UInt8) : Char := Char.ofNat b.toNat

/-- The white space around the elements of a list in a header value. -/
def ows (c : Char) : Bool := c == ' ' || c == '\t'

/-- Without the white space at both ends. -/
def trimOws (s : List Char) : List Char := ((s.dropWhile ows).reverse.dropWhile ows).reverse

/-- The elements of the list in a header value of any bytes, in lower case. -/
def elements (v : HeaderValue) : List (List Char) :=
  ((v.bytes.map byteChar).splitOn ',').map fun piece => (trimOws piece).map Char.toLower

/-- A `Connection` header of any bytes lists the header `n`. -/
def Listed (m : HeaderMap) (n : HeaderName) : Prop :=
  ∃ v ∈ getAll m connectionName, n.text.toList ∈ elements v

instance (m : HeaderMap) (n : HeaderName) : Decidable (Listed m n) := by unfold Listed; infer_instance

/-- The header may leave the gateway: it is neither of one hop nor a credential of the client, and no
`Connection` header lists it. -/
def Passes (m : HeaderMap) (n : HeaderName) : Prop :=
  isHopByHop n.text = false ∧ isClientCredential n.text = false ∧ ¬ Listed m n

instance (m : HeaderMap) (n : HeaderName) : Decidable (Passes m n) := by unfold Passes; infer_instance

/-- What is to be passed on of the headers of a request: those that may leave, if their value is UTF-8, as
they are and in order. -/
def passing (m : HeaderMap) : Headers :=
  (iter m).filterMap fun (n, v) => if Passes m n then v.asUtf8.map fun s => (n.text, s) else none

section request

variable {m : HeaderMap} {n : HeaderName} {v : HeaderValue} {text : String}

/-! #### Visible values -/

theorem toNat_byteChar (b : UInt8) : (byteChar b).toNat = b.toNat := by
  have hb := b.toNat_lt
  have hv : b.toNat.isValidChar := Or.inl (by omega)
  unfold byteChar Char.ofNat
  rw [dif_pos hv]
  rfl

/-- An ASCII character is one byte. -/
theorem utf8EncodeChar_byteChar {b : UInt8} (hb : b.toNat < 128) :
    String.utf8EncodeChar (byteChar b) = [b] := by
  have hval : (byteChar b).val.toNat = b.toNat := toNat_byteChar b
  have hsize : (byteChar b).utf8Size = 1 := by
    rw [Char.utf8Size_eq_one_iff, UInt32.le_iff_toNat_le, hval]
    have : (127 : UInt32).toNat = 127 := rfl
    omega
  rw [String.utf8EncodeChar_eq_singleton hsize]
  congr 1
  rw [← UInt8.toNat_inj, UInt32.toNat_toUInt8, hval]
  omega

theorem utf8_ascii {bs : Bytes} (h : ∀ b ∈ bs, b.toNat < 128) :
    utf8 (String.ofList (bs.map byteChar)) = bs := by
  rw [utf8_ofList]
  induction bs with
  | nil => rfl
  | cons b bs ih =>
    rw [List.map_cons, List.flatMap_cons, utf8EncodeChar_byteChar (h b List.mem_cons_self),
      ih fun b' hb' => h b' (List.mem_cons_of_mem _ hb')]
    rfl

theorem visibleByte_iff (b : UInt8) : visibleByte b = true ↔ 32 ≤ b.toNat ∧ b.toNat < 127 ∨ b.toNat = 9 := by
  have h9 : b = 9 ↔ b.toNat = 9 := by
    rw [← UInt8.toNat_inj]
    rfl
  unfold visibleByte
  simp only [Bool.or_eq_true, Bool.and_eq_true, decide_eq_true_eq, beq_iff_eq, h9,
    UInt8.le_iff_toNat_le, UInt8.lt_iff_toNat_lt]
  rfl

theorem toList_of_toStr (h : v.toStr = some text) :
    text.toList = v.bytes.map byteChar ∧ ∀ b ∈ v.bytes, visibleByte b = true := by
  unfold HeaderValue.toStr at h
  split_ifs at h with hall
  rw [List.all_eq_true] at hall
  have hascii : ∀ b ∈ v.bytes, b.toNat < 128 := by
    intro b hb
    have := (visibleByte_iff b).mp (hall b hb)
    omega
  have hof := ofUtf8_utf8 (String.ofList (v.bytes.map byteChar))
  rw [utf8_ascii hascii, h] at hof
  rw [Option.some.inj hof, String.toList_ofList]
  exact ⟨rfl, hall⟩

theorem isWhitespace_byteChar {b : UInt8} (h : visibleByte b = true) :
    isWhitespace (byteChar b) = ows (byteChar b) := by
  have hall : ∀ n < 127, 32 ≤ n ∨ n = 9 → isWhitespace (Char.ofNat n) = ows (Char.ofNat n) := by decide
  have hb := (visibleByte_iff b).mp h
  exact hall b.toNat (by omega) (by omega)

/-- Among visible characters, white space is the white space of a list. -/
theorem trim_eq_trimOws {s : List Char} (h : ∀ c ∈ s, isWhitespace c = ows c) : trim s = trimOws s := by
  unfold trim trimOws
  rw [dropWhile_congr h, dropWhile_congr]
  intro c hc
  exact h c ((List.dropWhile_sublist _).subset (List.mem_reverse.mp hc))

/-- **The names in a visible value** are the elements of its list. -/
theorem mem_valueTokens_iff (h : v.toStr = some text) (n : HeaderName) :
    n.text ∈ valueTokens text ↔ n.text.toList ∈ elements v := by
  obtain ⟨hlist, hvis⟩ := toList_of_toStr h
  have htrim : ∀ piece ∈ (v.bytes.map byteChar).splitOn ',', trim piece = trimOws piece := by
    intro piece hp
    refine trim_eq_trimOws fun c hc => ?_
    obtain ⟨b, hb, rfl⟩ := List.mem_map.mp (mem_of_mem_splitOn hp hc)
    exact isWhitespace_byteChar (hvis b hb)
  unfold valueTokens elements
  rw [hlist, List.mem_map, List.mem_map]
  constructor
  · rintro ⟨token, htoken, hn⟩
    obtain ⟨piece, hp, rfl⟩ := List.mem_map.mp (List.mem_of_mem_filter htoken)
    refine ⟨piece, hp, ?_⟩
    rw [← hn, ← htrim piece hp, toAsciiLowercase, String.toList_ofList, String.toList_ofList]
  · rintro ⟨piece, hp, hn⟩
    refine ⟨trim piece, List.mem_filter.mpr ⟨List.mem_map_of_mem hp, ?_⟩, ?_⟩
    · -- a header name is not empty
      have hpos := n.valid.1
      rw [← hn, List.length_map, ← htrim piece hp] at hpos
      simpa using List.ne_nil_of_length_pos hpos
    · rw [toAsciiLowercase, String.toList_ofList, htrim piece hp, hn, String.ofList_toList]

theorem listed_of_connectionNames (h : ConnectionNames m n) : Listed m n := by
  obtain ⟨v, hv, text, htext, hn⟩ := h
  exact ⟨v, hv, (mem_valueTokens_iff htext n).mp hn⟩

/-! #### Both filters -/

/-- `filter_headers` passes a header unless it is of one hop, a credential, or listed by a visible
`Connection` header. -/
theorem filterHeaders_eq (m : HeaderMap) : filterHeaders m = (iter m).filterMap fun p =>
    if isHopByHop p.1.text = false ∧ isClientCredential p.1.text = false ∧ ¬ ConnectionNames m p.1 then
      p.2.asUtf8.map fun s => (p.1.text, s)
    else none := by
  unfold filterHeaders
  refine List.filterMap_congr fun p _ => ?_
  have hnames := isConnectionNamed_responseTokens m p.1
  unfold responseTokens at hnames
  refine if_congr ?_ rfl rfl
  rw [← hnames, isForwardable]
  simp only [Bool.and_eq_true, Bool.not_eq_true']
  constructor
  · rintro ⟨⟨hhop, hnamed⟩, hcred⟩
    exact ⟨hhop, hcred, by rw [hnamed]; simp⟩
  · rintro ⟨hhop, hcred, hnot⟩
    exact ⟨⟨hhop, Bool.eq_false_of_not_eq_true hnot⟩, hcred⟩

/-- The agent finds nothing more to remove. -/
theorem requestHeaders_filterHeaders (m : HeaderMap) :
    (requestHeaders (filterHeaders m)).map (fun h => (h.1, h.2.bytes)) =
      (filterHeaders m).map fun h => (h.1, utf8 h.2) := by
  have hmem : ∀ h ∈ filterHeaders m, isHopByHop h.1 = false ∧ isClientCredential h.1 = false ∧
      ∃ v, HeaderValue.fromStr h.2 = some v ∧ v.bytes = utf8 h.2 := by
    intro h hm
    rw [filterHeaders_eq] at hm
    obtain ⟨⟨n, v⟩, -, hp⟩ := List.mem_filterMap.mp hm
    split_ifs at hp with hpass
    obtain ⟨s, hs, rfl⟩ := Option.map_eq_some_iff.mp hp
    exact ⟨hpass.1, hpass.2.1, v, HeaderValue.fromStr_of_asUtf8 hs, (utf8_of_ofUtf8 hs).symm⟩
  have htokens : connectionTokens (filterHeaders m) = [] := by
    have h := connectionTokens_retain (filterHeaders m)
    rwa [List.filter_eq_self.mpr fun h hm => by simp [(hmem h hm).1]] at h
  unfold requestHeaders
  rw [htokens, List.map_filterMap, ← List.filterMap_eq_map]
  refine List.filterMap_congr fun h hm => ?_
  obtain ⟨hhop, hcred, v, hv, hbytes⟩ := hmem h hm
  simp [isForwardable, hhop, hcred, isConnectionNamed_nil, hv, hbytes]

/-- **Request header filtering.** What `filter_headers` puts in the frame is what may leave the gateway, and
the agent removes nothing more, exactly if every header that is else passed on and that a `Connection`
header lists is listed by one in visible ASCII. -/
theorem request_headers_filtered (m : HeaderMap) :
    (filterHeaders m = passing m ∧
      (requestHeaders (filterHeaders m)).map (fun h => (h.1, h.2.bytes)) =
        (filterHeaders m).map fun h => (h.1, utf8 h.2)) ↔
    ∀ n, ∀ v ∈ getAll m n, v.asUtf8.isSome → isHopByHop n.text = false →
      isClientCredential n.text = false → Listed m n → ConnectionNames m n := by
  constructor
  · rintro ⟨heq, -⟩ n v hv hsome hhop hcred hlisted
    by_contra hnot
    obtain ⟨s, hs⟩ := Option.isSome_iff_exists.mp hsome
    have hmem : (n.text, s) ∈ filterHeaders m := by
      rw [filterHeaders_eq, List.mem_filterMap]
      exact ⟨(n, v), mem_iter.mpr hv, by simp [hhop, hcred, hnot, hs]⟩
    rw [heq] at hmem
    obtain ⟨⟨n', v'⟩, -, hp⟩ := List.mem_filterMap.mp hmem
    dsimp only at hp
    split_ifs at hp with hpass
    obtain ⟨s', -, hname⟩ := Option.map_eq_some_iff.mp hp
    have hn : n' = n := by
      obtain ⟨text, hvalid⟩ := n
      obtain ⟨text', hvalid'⟩ := n'
      cases hname
      rfl
    exact hpass.2.2 (hn ▸ hlisted)
  · intro h
    refine ⟨?_, requestHeaders_filterHeaders m⟩
    rw [filterHeaders_eq]
    refine List.filterMap_congr fun p hp => ?_
    obtain ⟨n, v⟩ := p
    dsimp only
    cases hu : v.asUtf8 with
    | none => simp
    | some s =>
      refine if_congr ?_ rfl rfl
      constructor
      · rintro ⟨hhop, hcred, hnot⟩
        exact ⟨hhop, hcred, fun hl => hnot (h n v (mem_iter.mp hp) (by simp [hu]) hhop hcred hl)⟩
      · rintro ⟨hhop, hcred, hnot⟩
        exact ⟨hhop, hcred, fun hc => hnot (listed_of_connectionNames hc)⟩

/-- A request whose `Connection` header lists another header beside a word that is not ASCII. -/
def hidden : HeaderMap :=
  ofList [(connectionName, ⟨utf8 "x-internal, é", by decide +kernel⟩),
    (⟨"x-internal", by decide⟩, ⟨utf8 "secret", by decide +kernel⟩)]

/-- The listed header goes to the agent. -/
theorem hidden_is_passed_on : Listed hidden ⟨"x-internal", by decide⟩ ∧
    filterHeaders hidden = [("x-internal", "secret")] ∧ passing hidden = [] := by
  decide +kernel

end request

end HomeLlmGateway.Proxy.HeaderFilters
