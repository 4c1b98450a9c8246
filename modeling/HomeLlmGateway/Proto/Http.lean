import HomeLlmGateway.Lib.Assoc
import HomeLlmGateway.Proto.Frames

/-! # Headers and paths

What gateway and agent agree on about HTTP: which headers stay on one hop (`proto/src/headers.rs`) and
which paths may be forwarded (`proto/src/path.rs`); and of the `http` crate what they use: names, values
and the multimap of headers. Texts are compared character by character, as the code does. -/

namespace HomeLlmGateway.Proto.Http

open HomeLlmGateway.Lib.ByteCodec HomeLlmGateway.Lib.ByteCodec.Codec HomeLlmGateway.Lib.Assoc
open HomeLlmGateway.Proto.Frames

/-! ### Names and values -/

/-- `to_ascii_lowercase`. -/
def toAsciiLowercase (s : String) : String := String.ofList (s.toList.map Char.toLower)

/-- `eq_ignore_ascii_case`. -/
def eqIgnoreAsciiCase (a b : String) : Bool := a.toList.map Char.toLower == b.toList.map Char.toLower

/-- The characters of a header name, which is in lower case. -/
def nameChar (c : Char) : Bool := c.isLower || c.isDigit || "!#$%&'*+-.^_`|~".toList.contains c

/-- What a header name looks like. -/
def IsName (s : String) : Prop :=
  0 < s.toList.length ∧ s.toList.length < 65536 ∧ ∀ c ∈ s.toList, nameChar c = true

instance (s : String) : Decidable (IsName s) :=
  have := List.decidableBAll (fun c => nameChar c = true) s.toList
  inferInstanceAs (Decidable (_ ∧ _ ∧ _))

/-- `HeaderName`. -/
structure HeaderName where
  text : String
  valid : IsName text
  deriving DecidableEq

/-- `HeaderName::from_bytes`. -/
def HeaderName.fromBytes (s : String) : Option HeaderName :=
  if h : IsName (toAsciiLowercase s) then some ⟨toAsciiLowercase s, h⟩ else none

/-- A byte that a header value may contain. -/
def valueByte (b : UInt8) : Bool := 32 ≤ b && b != 127 || b == 9

/-- A byte that `to_str` accepts. -/
def visibleByte (b : UInt8) : Bool := 32 ≤ b && b < 127 || b == 9

/-- `HeaderValue`. -/
structure HeaderValue where
  bytes : Bytes
  valid : ∀ b ∈ bytes, valueByte b = true
  deriving DecidableEq

/-- `HeaderValue::from_str`. -/
def HeaderValue.fromStr (s : String) : Option HeaderValue :=
  if h : (utf8 s).all valueByte = true then some ⟨utf8 s, List.all_eq_true.mp h⟩ else none

/-- `HeaderValue::to_str`: visible ASCII only. -/
def HeaderValue.toStr (v : HeaderValue) : Option String :=
  if v.bytes.all visibleByte then ofUtf8 v.bytes else none

/-- `str::from_utf8` of the bytes of a value. -/
def HeaderValue.asUtf8 (v : HeaderValue) : Option String := ofUtf8 v.bytes

theorem toLower_of_nameChar {c : Char} (h : nameChar c = true) : c.toLower = c := by
  unfold Char.toLower
  split_ifs with hc
  · exfalso
    have hA : 65 ≤ c.toNat := by simpa [UInt32.le_iff_toNat_le] using hc.1
    have hZ : c.toNat ≤ 90 := by simpa [UInt32.le_iff_toNat_le] using hc.2
    have hall : ∀ n < 91, 65 ≤ n → nameChar (Char.ofNat n) = false := by decide
    have hof : Char.ofNat c.toNat = c := Char.ofNat_toNat c
    have hf := hall c.toNat (by omega) hA
    rw [hof, h] at hf
    cases hf
  · rfl

theorem map_toLower_of_isName {s : String} (h : IsName s) : s.toList.map Char.toLower = s.toList := by
  refine (List.map_congr_left fun c hc => ?_).trans (List.map_id _)
  exact toLower_of_nameChar (h.2.2 c hc)

theorem toAsciiLowercase_of_isName {s : String} (h : IsName s) : toAsciiLowercase s = s := by
  unfold toAsciiLowercase
  rw [map_toLower_of_isName h, String.ofList_toList]

theorem HeaderName.fromBytes_text (n : HeaderName) : HeaderName.fromBytes n.text = some n := by
  have hl := toAsciiLowercase_of_isName n.valid
  unfold HeaderName.fromBytes
  rw [dif_pos (by rw [hl]; exact n.valid)]
  simp only [hl]

theorem utf8_of_ofUtf8 {bs : Bytes} {s : String} (h : ofUtf8 bs = some s) : utf8 s = bs := by
  unfold ofUtf8 at h
  unfold String.fromUTF8? at h
  split_ifs at h
  cases h
  rfl

theorem HeaderValue.fromStr_of_asUtf8 {v : HeaderValue} {s : String} (h : v.asUtf8 = some s) :
    HeaderValue.fromStr s = some v := by
  have hb : utf8 s = v.bytes := utf8_of_ofUtf8 h
  unfold HeaderValue.fromStr
  rw [dif_pos (by rw [hb]; exact List.all_eq_true.mpr v.valid)]
  simp only [hb]

/-! ### The multimap of headers -/

/-- `HeaderMap`. Its iteration order over names is not specified; the values of a name keep theirs. -/
abbrev HeaderMap := HashMap HeaderName (List HeaderValue)

/-- `HeaderMap::get_all`. -/
def getAll (m : HeaderMap) (n : HeaderName) : List HeaderValue := (m.lookup n).getD []

/-- `HeaderMap::append`. -/
def append (m : HeaderMap) (n : HeaderName) (v : HeaderValue) : HeaderMap := m.insert n (getAll m n ++ [v])

/-- The map of a header list. -/
def ofList (l : List (HeaderName × HeaderValue)) : HeaderMap := l.foldl (fun m p => append m p.1 p.2) ∅

/-- `HeaderMap::iter`. -/
def iter (m : HeaderMap) : List (HeaderName × HeaderValue) :=
  m.entries.flatMap fun e => e.2.map fun v => (e.1, v)

/-- The values of a name in a header list, in order. -/
def valuesOf (n : HeaderName) (l : List (HeaderName × HeaderValue)) : List HeaderValue :=
  (l.filter fun p => p.1 = n).map Prod.snd

theorem valuesOf_append (n : HeaderName) (l l' : List (HeaderName × HeaderValue)) :
    valuesOf n (l ++ l') = valuesOf n l ++ valuesOf n l' := by
  unfold valuesOf
  rw [List.filter_append, List.map_append]

theorem getAll_append (m : HeaderMap) (n n' : HeaderName) (v : HeaderValue) :
    getAll (append m n v) n' = getAll m n' ++ valuesOf n' [(n, v)] := by
  unfold append
  rw [getAll, lookup_insert]
  by_cases h : n' = n
  · subst h
    simp [valuesOf]
  · simp [h, Ne.symm h, valuesOf, getAll]

theorem getAll_foldl_append (n : HeaderName) : ∀ (l : List (HeaderName × HeaderValue)) (m : HeaderMap),
    getAll (l.foldl (fun m p => append m p.1 p.2) m) n = getAll m n ++ valuesOf n l
  | [], m => by simp [valuesOf]
  | p :: l, m => by
    rw [List.foldl_cons, getAll_foldl_append n l, getAll_append, List.append_assoc,
      ← valuesOf_append]
    rfl

/-- **The map keeps the values of every name in order.** -/
theorem getAll_ofList (n : HeaderName) (l : List (HeaderName × HeaderValue)) :
    getAll (ofList l) n = valuesOf n l := by
  unfold ofList
  rw [getAll_foldl_append]
  rfl

theorem valuesOf_flatMap (n : HeaderName) : ∀ l : List ((_ : HeaderName) × List HeaderValue),
    l.NodupKeys → valuesOf n (l.flatMap fun e => e.2.map fun v => (e.1, v)) = (l.dlookup n).getD []
  | [], _ => rfl
  | e :: l, h => by
    obtain ⟨hn, hl⟩ := List.nodupKeys_cons.mp h
    have ih := valuesOf_flatMap n l hl
    rw [List.flatMap_cons, valuesOf_append, ih]
    by_cases he : e.1 = n
    · subst he
      have hno : l.dlookup e.1 = none := List.dlookup_eq_none.mpr hn
      rw [hno, List.dlookup_cons_eq]
      simp [valuesOf, List.filter_map, Function.comp_def]
    · rw [List.dlookup_cons_ne _ _ (Ne.symm he)]
      simp [valuesOf, he]

theorem valuesOf_iter (m : HeaderMap) (n : HeaderName) : valuesOf n (iter m) = getAll m n :=
  valuesOf_flatMap n m.entries m.nodupKeys

/-! ### Headers of one hop -/

/-- `HOP_BY_HOP`. -/
def hopByHop : List String :=
  ["connection", "keep-alive", "proxy-authenticate", "proxy-authorization", "proxy-connection", "te",
    "trailer", "transfer-encoding", "upgrade", "host", "content-length"]

/-- `CLIENT_CREDENTIAL_HEADERS`. -/
def clientCredentialHeaders : List String := ["authorization", "cookie", "x-api-key"]

/-- `char::is_whitespace`. -/
def isWhitespace (c : Char) : Bool :=
  let n := c.toNat
  9 ≤ n && n ≤ 13 || n == 32 || n == 0x85 || n == 0xa0 || n == 0x1680 || 0x2000 ≤ n && n ≤ 0x200a ||
    n == 0x2028 || n == 0x2029 || n == 0x202f || n == 0x205f || n == 0x3000

/-- `str::trim`. -/
def trim (s : List Char) : List Char := ((s.dropWhile isWhitespace).reverse.dropWhile isWhitespace).reverse

/-- The names in the value of a `Connection` header, in lower case. -/
def valueTokens (value : String) : List String :=
  (((value.toList.splitOn ',').map trim).filter (!·.isEmpty)).map
    fun token => toAsciiLowercase (String.ofList token)

/-- `connection_tokens`. -/
def connectionTokens (headers : Headers) : List String :=
  (headers.filter fun h => eqIgnoreAsciiCase h.1 "connection").flatMap fun h => valueTokens h.2

/-- `is_connection_named`. -/
def isConnectionNamed (name : String) (tokens : List String) : Bool :=
  tokens.any fun token => eqIgnoreAsciiCase token name

/-- `is_hop_by_hop`. -/
def isHopByHop (name : String) : Bool := hopByHop.any fun h => eqIgnoreAsciiCase name h

/-- `is_client_credential`. -/
def isClientCredential (name : String) : Bool :=
  clientCredentialHeaders.any fun h => eqIgnoreAsciiCase name h

/-- `is_forwardable`. -/
def isForwardable (name : String) (tokens : List String) : Bool :=
  !isHopByHop name && !isConnectionNamed name tokens && !isClientCredential name

theorem isConnectionNamed_nil (name : String) : isConnectionNamed name [] = false := rfl

/-- A `Connection` header is itself one of one hop. -/
theorem isHopByHop_of_connection {name : String} (h : eqIgnoreAsciiCase name "connection" = true) :
    isHopByHop name = true := by
  unfold isHopByHop
  exact List.any_eq_true.mpr ⟨"connection", by decide, h⟩

/-- Once the headers of one hop are gone, no header names others. -/
theorem connectionTokens_retain (headers : Headers) :
    connectionTokens (headers.filter fun h => !isHopByHop h.1) = [] := by
  have hnil : ((headers.filter fun h => !isHopByHop h.1).filter
      fun h => eqIgnoreAsciiCase h.1 "connection") = [] := by
    rw [List.filter_eq_nil_iff]
    intro h hm hc
    have hk := (List.mem_filter.mp hm).2
    rw [isHopByHop_of_connection hc] at hk
    cases hk
  unfold connectionTokens
  rw [hnil]
  rfl

/-! ### Paths -/

/-- Whether the text occurs in `s`. -/
def contains (s text : List Char) : Bool := s.tails.any fun t => text.isPrefixOf t

/-- `safe_upstream_path`. -/
def safeUpstreamPath (path : String) : Option String :=
  let lower := path.toList.map Char.toLower
  if !"/v1/".toList.isPrefixOf path.toList then none
  else if lower.contains '\\' || contains lower "%2e".toList || contains lower "%2f".toList ||
      contains lower "%5c".toList then none
  else if ((path.toList.splitOn '/').drop 1).any fun seg =>
      seg.isEmpty || seg == ['.'] || seg == ['.', '.'] then none
  else some path

example : safeUpstreamPath "/v1/../api" = none ∧ safeUpstreamPath "/v1/a.b" = some "/v1/a.b" := by decide

end HomeLlmGateway.Proto.Http
