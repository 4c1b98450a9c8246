import HomeLlmGateway.Lib.Decimal
import HomeLlmGateway.Lib.Split
import HomeLlmGateway.Proto.HeaderText
import Mathlib.Data.List.GetD
import Mathlib.Data.List.TakeWhile

/-! # Credentials in headers

How the credentials of the dashboard are written and read: the two cookies of a session
(`gateway/src/access/session.rs`), the `Authorization` header (`gateway/src/access/api_key.rs`), and of
`gateway/src/storage/hash.rs` the encoding of the tokens and their comparison. A client sends back what it was
given, among the cookies of others: `readCookie_line` says what is read then. -/

namespace HomeLlmGateway.Access.Cookies

open HomeLlmGateway.Lib.ByteCodec HomeLlmGateway.Lib.ByteCodec.Codec
open HomeLlmGateway.Lib.Decimal HomeLlmGateway.Lib.Split
open HomeLlmGateway.Proto.Http

/-! ### Tokens -/

/-- `HEX`. -/
def hexDigits : List Char := "0123456789abcdef".toList

/-- `hex_lower`. -/
def hexLower (bytes : Bytes) : String :=
  String.ofList (bytes.flatMap fun b : UInt8 =>
    [hexDigits.getD (b >>> 4).toNat '0', hexDigits.getD (b &&& 0x0f).toNat '0'])

/-- `constant_time_eq`. -/
def constantTimeEq (a b : Bytes) : Bool :=
  if a.length ≠ b.length then false
  else (a.zip b).foldl (fun diff p => diff ||| (p.1 ^^^ p.2)) 0 == 0

theorem mem_hexDigits_of_mem {bytes : Bytes} {c : Char} (h : c ∈ (hexLower bytes).toList) : c ∈ hexDigits := by
  have hget : ∀ n : ℕ, hexDigits.getD n '0' ∈ hexDigits := by
    intro n
    by_cases hn : n < hexDigits.length
    · rw [List.getD_eq_getElem _ _ hn]
      exact List.getElem_mem hn
    · rw [List.getD_eq_default _ _ (by omega)]
      decide
  rw [hexLower, String.toList_ofList] at h
  obtain ⟨b, -, hc⟩ := List.mem_flatMap.mp h
  rcases List.mem_cons.mp hc with rfl | hc
  · exact hget _
  · rw [List.mem_singleton.mp hc]
    exact hget _

theorem foldl_diff_eq_zero_iff : ∀ (l : List (UInt8 × UInt8)) (diff : UInt8),
    l.foldl (fun diff p => diff ||| (p.1 ^^^ p.2)) diff = 0 ↔ diff = 0 ∧ ∀ p ∈ l, p.1 = p.2
  | [], diff => by simp
  | p :: l, diff => by
    rw [List.foldl_cons, foldl_diff_eq_zero_iff l, UInt8.or_eq_zero_iff, UInt8.xor_eq_zero_iff,
      List.forall_mem_cons, and_assoc]

theorem constantTimeEq_iff {a b : Bytes} : constantTimeEq a b = true ↔ a = b := by
  unfold constantTimeEq
  split_ifs with hlen
  · exact ⟨fun h => by simp at h, fun h => absurd (congrArg List.length h) hlen⟩
  · rw [beq_iff_eq, foldl_diff_eq_zero_iff]
    rw [not_not] at hlen
    constructor
    · rintro ⟨-, h⟩
      refine List.ext_getElem hlen fun i h1 h2 => ?_
      have hi : i < (a.zip b).length := by
        rw [List.length_zip]
        omega
      have hpair := h _ (List.getElem_mem hi)
      rwa [List.getElem_zip] at hpair
    · rintro rfl
      refine ⟨rfl, fun p hp => ?_⟩
      obtain ⟨i, hi, rfl⟩ := List.getElem_of_mem hp
      rw [List.getElem_zip]

/-- Texts are compared by their bytes. -/
theorem constantTimeEq_utf8_iff {s t : String} : constantTimeEq (utf8 s) (utf8 t) = true ↔ s = t := by
  rw [constantTimeEq_iff]
  refine ⟨fun h => ?_, fun h => by rw [h]⟩
  have hs := ofUtf8_utf8 s
  rw [h, ofUtf8_utf8 t] at hs
  exact (Option.some.inj hs).symm

/-! ### Headers -/

/-- `headers.get(name)`, then `to_str`. -/
def headerText (headers : HeaderMap) (name : HeaderName) : Option String :=
  (getAll headers name).head?.bind HeaderValue.toStr

def cookieName : HeaderName := ⟨"cookie", by decide⟩

def csrfHeader : HeaderName := ⟨"x-csrf-token", by decide⟩

def originName : HeaderName := ⟨"origin", by decide⟩

def hostName : HeaderName := ⟨"host", by decide⟩

def authorizationName : HeaderName := ⟨"authorization", by decide⟩

/-- `SESSION_COOKIE`. -/
def sessionCookie : String := "hlmg_session"

/-- `CSRF_COOKIE`. -/
def csrfCookie : String := "hlmg_csrf"

/-- The value of a part of the `Cookie` header, if it is the cookie `name`. -/
def cookieValue (name : String) (part : List Char) : Option String :=
  (splitOnce ['='] (trim part)).bind fun p =>
    if p.1 = name.toList then some (String.ofList (trim p.2)) else none

/-- `read_cookie`. -/
def readCookie (headers : HeaderMap) (name : String) : Option String :=
  (headerText headers cookieName).bind fun raw => (raw.toList.splitOn ';').findSome? (cookieValue name)

/-- The text of `cookie_header`. -/
def cookieText (name value : String) (maxAge : UInt64) (secure httpOnly : Bool) : String :=
  let s := name ++ "=" ++ value ++ "; Path=/; Max-Age=" ++ String.ofList (printNat maxAge.toNat) ++
    "; SameSite=Lax"
  let s := if httpOnly then s ++ "; HttpOnly" else s
  if secure then s ++ "; Secure" else s

/-- `cookie_header`. It panics if the text is no header value. -/
def cookieHeader (name value : String) (maxAge : UInt64) (secure httpOnly : Bool) : Option HeaderValue :=
  HeaderValue.fromStr (cookieText name value maxAge secure httpOnly)

/-- The values that `set_session_cookies` appends. -/
def setSessionCookies (token csrf : String) (ttlSecs : UInt64) (secure : Bool) : Option (List HeaderValue) := do
  let session ← cookieHeader sessionCookie token ttlSecs secure true
  let csrf ← cookieHeader csrfCookie csrf ttlSecs secure false
  pure [session, csrf]

/-- `csrf_matches`. -/
def csrfMatches (headers : HeaderMap) : Bool :=
  match readCookie headers csrfCookie, headerText headers csrfHeader with
  | some cookie, some header => cookie ≠ "" && header ≠ "" && constantTimeEq (utf8 cookie) (utf8 header)
  | _, _ => false

/-- The host of an `Origin` header. -/
def originHost (origin : String) : String :=
  let rest := ((splitOnce "://".toList origin.toList).map Prod.snd).getD origin.toList
  String.ofList ((rest.splitOn '/').headD [])

/-- `origin_matches`. -/
def originMatches (headers : HeaderMap) : Bool :=
  match headerText headers originName with
  | none => true
  | some origin =>
    match headerText headers hostName with
    | none => false
    | some host => eqIgnoreAsciiCase (originHost origin) host

/-- `bearer_token`. -/
def bearerToken (headers : HeaderMap) : Option String :=
  (headerText headers authorizationName).bind fun value =>
    (splitOnce [' '] value.toList).bind fun p =>
      if eqIgnoreAsciiCase (String.ofList p.1) "bearer" then
        let token := p.2.dropWhile (· == ' ')
        if token = [] then none else some (String.ofList token)
      else none

/-! ### What a client sends back -/

/-- No white space, and no end of a cookie. -/
def Octets (s : String) : Prop := ∀ c ∈ s.toList, isWhitespace c = false ∧ c ≠ ';'

instance (s : String) : Decidable (Octets s) :=
  List.decidableBAll (fun c => isWhitespace c = false ∧ c ≠ ';') s.toList

/-- A cookie that can be sent. -/
structure Sendable (p : String × String) : Prop where
  name : Octets p.1
  noEquals : '=' ∉ p.1.toList
  value : Octets p.2

/-- The text of a cookie. -/
def pairText (p : String × String) : String := p.1 ++ "=" ++ p.2

/-- The text of a `Cookie` header. -/
def cookieLine (ps : List (String × String)) : String := "; ".intercalate (ps.map pairText)

/-- The cookie that a `Set-Cookie` header asks the client to send back. -/
def sentBack (v : HeaderValue) : Option (String × String) :=
  v.toStr.bind fun text =>
    (splitOnce ['='] (text.toList.takeWhile (· != ';'))).map fun p => (String.ofList p.1, String.ofList p.2)

theorem trim_eq_self {s : List Char} (h : ∀ c ∈ s, isWhitespace c = false) : trim s = s := by
  have hdrop : ∀ l : List Char, (∀ c ∈ l, isWhitespace c = false) → l.dropWhile isWhitespace = l := by
    intro l hl
    cases l with
    | nil => rfl
    | cons c l => rw [List.dropWhile_cons, if_neg (by simp [hl c (by simp)])]
  unfold trim
  rw [hdrop s h, hdrop s.reverse fun c hc => h c (List.mem_reverse.mp hc), List.reverse_reverse]

theorem cookieValue_space (name : String) (part : List Char) :
    cookieValue name (' ' :: part) = cookieValue name part := by
  have htrim : trim (' ' :: part) = trim part := by
    unfold trim
    rw [List.dropWhile_cons, if_pos (by decide)]
  unfold cookieValue
  rw [htrim]

theorem cookieValue_pair (name : String) {p : String × String} (h : Sendable p) :
    cookieValue name (pairText p).toList = if p.1 = name then some p.2 else none := by
  have htext : (pairText p).toList = p.1.toList ++ '=' :: p.2.toList := by simp [pairText]
  have htrim : trim (p.1.toList ++ '=' :: p.2.toList) = p.1.toList ++ '=' :: p.2.toList := by
    refine trim_eq_self fun c hc => ?_
    rcases List.mem_append.mp hc with hc | hc
    · exact (h.name c hc).1
    · rcases List.mem_cons.mp hc with rfl | hc
      · decide
      · exact (h.value c hc).1
  have hsplit : splitOnce ['='] (p.1.toList ++ '=' :: p.2.toList) = some (p.1.toList, p.2.toList) :=
    splitOnce_eq_some_iff.mpr ⟨rfl, h.noEquals⟩
  unfold cookieValue
  rw [htext, htrim, hsplit, Option.bind_some]
  simp only [String.toList_inj, trim_eq_self fun c hc => (h.value c hc).1, String.ofList_toList]

theorem intercalate_parts (x : List Char) : ∀ xs : List (List Char),
    [';', ' '].intercalate (x :: xs) = [';'].intercalate (x :: xs.map (' ' :: ·))
  | [] => by simp
  | y :: ys => by
    have ih := intercalate_parts y ys
    cases ys with
    | nil => simp
    | cons z zs =>
      simp only [List.map_cons, List.intercalate_cons_cons] at ih ⊢
      simp [ih]

theorem not_mem_pairText {p : String × String} (h : Sendable p) : ';' ∉ (pairText p).toList := by
  intro hm
  have htext : (pairText p).toList = p.1.toList ++ '=' :: p.2.toList := by simp [pairText]
  rw [htext] at hm
  rcases List.mem_append.mp hm with hm | hm
  · exact (h.name _ hm).2 rfl
  · rcases List.mem_cons.mp hm with hm | hm
    · exact absurd hm (by decide)
    · exact (h.value _ hm).2 rfl

theorem splitOn_cookieLine {p : String × String} {ps : List (String × String)}
    (h : ∀ q ∈ p :: ps, Sendable q) : (cookieLine (p :: ps)).toList.splitOn ';' =
      (pairText p).toList :: ps.map fun q => ' ' :: (pairText q).toList := by
  have hline : (cookieLine (p :: ps)).toList =
      [';'].intercalate ((pairText p).toList :: ps.map fun q => ' ' :: (pairText q).toList) := by
    rw [cookieLine, String.toList_intercalate, List.map_map, List.map_cons]
    exact (intercalate_parts _ _).trans (by rw [List.map_map]; rfl)
  rw [hline]
  refine List.splitOn_intercalate _ (fun l hl => ?_) (by simp)
  rcases List.mem_cons.mp hl with rfl | hl
  · exact not_mem_pairText (h p (by simp))
  · obtain ⟨q, hq, rfl⟩ := List.mem_map.mp hl
    intro hm
    rcases List.mem_cons.mp hm with hm | hm
    · exact absurd hm (by decide)
    · exact not_mem_pairText (h q (by simp [hq])) hm

theorem findSome?_pairs (name : String) : ∀ {ps : List (String × String)}, (∀ q ∈ ps, Sendable q) →
    ps.findSome? (fun q => cookieValue name (pairText q).toList) =
      (ps.find? fun q => q.1 = name).map Prod.snd
  | [], _ => rfl
  | p :: ps, h => by
    have ih := findSome?_pairs name fun q hq => h q (List.mem_cons_of_mem p hq)
    rw [List.findSome?_cons, List.find?_cons, cookieValue_pair name (h p (by simp))]
    by_cases hp : p.1 = name
    · simp [hp]
    · simp [hp, ih]

/-- **Reading a cookie.** Whatever cookies a client sends, the first of a name is read. -/
theorem readCookie_line {headers : HeaderMap} {ps : List (String × String)} (name : String)
    (hline : headerText headers cookieName = some (cookieLine ps)) (h : ∀ q ∈ ps, Sendable q) :
    readCookie headers name = (ps.find? fun q => q.1 = name).map Prod.snd := by
  unfold readCookie
  rw [hline, Option.bind_some]
  cases ps with
  | nil => rfl
  | cons p ps =>
    rw [splitOn_cookieLine h, ← findSome?_pairs name h, List.findSome?_cons, List.findSome?_cons,
      List.findSome?_map]
    simp only [Function.comp_def, cookieValue_space]

theorem readCookie_of_mem {headers : HeaderMap} {ps : List (String × String)} {p : String × String}
    (hline : headerText headers cookieName = some (cookieLine ps)) (h : ∀ q ∈ ps, Sendable q)
    (hnodup : (ps.map Prod.fst).Nodup) (hp : p ∈ ps) : readCookie headers p.1 = some p.2 := by
  rw [readCookie_line p.1 hline h]
  obtain ⟨q, hq⟩ := Option.isSome_iff_exists.mp
    (List.find?_isSome (p := fun q : String × String => decide (q.1 = p.1)) |>.mpr ⟨p, hp, by simp⟩)
  have hname : q.1 = p.1 := by simpa using List.find?_some hq
  have hqp : q = p := List.inj_on_of_nodup_map hnodup (List.mem_of_find?_eq_some hq) hp hname
  rw [hq, hqp]
  rfl

/-! ### What the gateway sets -/

theorem visible_append {s t : String} (hs : Visible s) (ht : Visible t) : Visible (s ++ t) := by
  intro c hc
  rw [String.toList_append] at hc
  rcases List.mem_append.mp hc with hc | hc
  · exact hs c hc
  · exact ht c hc

theorem visible_of_all {s : String} (h : s.toList.all visibleChar = true) : Visible s := List.all_eq_true.mp h

theorem visible_cookieText {name value : String} (hname : Visible name) (hvalue : Visible value)
    (maxAge : UInt64) (secure httpOnly : Bool) : Visible (cookieText name value maxAge secure httpOnly) := by
  have hage : Visible (String.ofList (printNat maxAge.toNat)) := by
    intro c hc
    rw [String.toList_ofList] at hc
    have hdigit : 48 ≤ c.toNat ∧ c.toNat ≤ 57 := by
      simpa [Char.isDigit, UInt32.le_iff_toNat_le] using isDigit_of_mem_printNat hc
    rw [visibleChar_iff]
    omega
  have hbase := visible_append (visible_append (visible_append (visible_append (visible_append hname
    (visible_of_all (s := "=") (by decide))) hvalue)
    (visible_of_all (s := "; Path=/; Max-Age=") (by decide))) hage)
    (visible_of_all (s := "; SameSite=Lax") (by decide))
  have hhttp : Visible "; HttpOnly" := visible_of_all (by decide)
  have hsecure : Visible "; Secure" := visible_of_all (by decide)
  unfold cookieText
  cases secure with
  | false =>
    cases httpOnly with
    | false => exact hbase
    | true => exact visible_append hbase hhttp
  | true =>
    cases httpOnly with
    | false => exact visible_append hbase hsecure
    | true => exact visible_append (visible_append hbase hhttp) hsecure

theorem cookieText_prefix (name value : String) (maxAge : UInt64) (secure httpOnly : Bool) :
    name.toList ++ '=' :: value.toList ++ [';'] <+:
      (cookieText name value maxAge secure httpOnly).toList := by
  have hbase : name.toList ++ '=' :: value.toList ++ [';'] <+: (name ++ "=" ++ value ++
      "; Path=/; Max-Age=" ++ String.ofList (printNat maxAge.toNat) ++ "; SameSite=Lax").toList := by
    simp
  unfold cookieText
  cases secure with
  | false =>
    cases httpOnly with
    | false => exact hbase
    | true => exact hbase.trans (by simp)
  | true =>
    cases httpOnly with
    | false => exact hbase.trans (by simp)
    | true => exact hbase.trans (by simp)

/-- **A cookie that the gateway sets is sent back.** -/
theorem sentBack_cookieHeader {name value : String} (hname : Visible name) (hvalue : Visible value)
    (hpair : Sendable (name, value)) (maxAge : UInt64) (secure httpOnly : Bool) :
    ∃ v, cookieHeader name value maxAge secure httpOnly = some v ∧ sentBack v = some (name, value) := by
  obtain ⟨v, hv, htext⟩ := fromStr_of_visible (visible_cookieText hname hvalue maxAge secure httpOnly)
  refine ⟨v, hv, ?_⟩
  obtain ⟨attributes, hlist⟩ := cookieText_prefix name value maxAge secure httpOnly
  have htake : (cookieText name value maxAge secure httpOnly).toList.takeWhile (· != ';') =
      name.toList ++ '=' :: value.toList := by
    have hall : ∀ c ∈ name.toList ++ '=' :: value.toList, (c != ';') = true := by
      intro c hc
      rw [bne_iff_ne]
      rintro rfl
      have hm : ';' ∈ (pairText (name, value)).toList := by simpa [pairText] using hc
      exact not_mem_pairText hpair hm
    rw [← hlist, List.append_assoc, List.takeWhile_append_of_pos hall]
    simp
  unfold sentBack
  rw [htext, Option.bind_some, htake, splitOnce_eq_some_iff.mpr ⟨rfl, hpair.noEquals⟩]
  simp

theorem hexDigit_plain {c : Char} (h : c ∈ hexDigits) :
    visibleChar c = true ∧ isWhitespace c = false ∧ c ≠ ';' := by
  have hall : ∀ c ∈ hexDigits, visibleChar c = true ∧ isWhitespace c = false ∧ c ≠ ';' :=
    List.forall_iff_forall_mem.mp (by decide)
  exact hall c h

theorem visible_hexLower (bytes : Bytes) : Visible (hexLower bytes) := fun _ hc =>
  (hexDigit_plain (mem_hexDigits_of_mem hc)).1

theorem octets_hexLower (bytes : Bytes) : Octets (hexLower bytes) := fun _ hc =>
  (hexDigit_plain (mem_hexDigits_of_mem hc)).2

theorem hexLower_ne_empty {bytes : Bytes} (h : bytes ≠ []) : hexLower bytes ≠ "" := by
  obtain ⟨b, bs, rfl⟩ := List.exists_cons_of_ne_nil h
  intro he
  have hlist := congrArg String.toList he
  simp [hexLower] at hlist

theorem sendable_of_all {name : String} {bytes : Bytes}
    (h : name.toList.all (fun c => !isWhitespace c && c != ';' && c != '=') = true) :
    Sendable (name, hexLower bytes) := by
  rw [List.all_eq_true] at h
  refine ⟨fun c hc => ?_, fun hm => ?_, octets_hexLower bytes⟩
  · have := h c hc
    simp only [Bool.and_eq_true, Bool.not_eq_true', bne_iff_ne] at this
    exact this.1
  · have := h _ hm
    simp at this

/-- The cookies of a session: they are header values, and the client sends both tokens back. -/
theorem sentBack_sessionCookies (token csrf : Bytes) (ttlSecs : UInt64) (secure : Bool) : ∃ v w,
    setSessionCookies (hexLower token) (hexLower csrf) ttlSecs secure = some [v, w] ∧
      sentBack v = some (sessionCookie, hexLower token) ∧ sentBack w = some (csrfCookie, hexLower csrf) := by
  obtain ⟨v, hv, hsent⟩ := sentBack_cookieHeader (visible_of_all (s := sessionCookie) (by decide))
    (visible_hexLower token) (sendable_of_all (by decide)) ttlSecs secure true
  obtain ⟨w, hw, hsent'⟩ := sentBack_cookieHeader (visible_of_all (s := csrfCookie) (by decide))
    (visible_hexLower csrf) (sendable_of_all (by decide)) ttlSecs secure false
  exact ⟨v, w, by simp [setSessionCookies, hv, hw], hsent, hsent'⟩

/-! ### Credentials of the other kinds -/

/-- **The bearer token** of a request: a word that says so, spaces, and a token that begins with none. -/
theorem bearerToken_eq_some_iff {headers : HeaderMap} {token : String} :
    bearerToken headers = some token ↔ ∃ scheme n, headerText headers authorizationName =
        some (String.ofList (scheme ++ List.replicate (n + 1) ' ' ++ token.toList)) ∧ ' ' ∉ scheme ∧
      eqIgnoreAsciiCase (String.ofList scheme) "bearer" = true ∧ token ≠ "" ∧ token.toList.head? ≠ some ' ' := by
  unfold bearerToken
  rw [Option.bind_eq_some_iff]
  constructor
  · rintro ⟨value, hvalue, hrest⟩
    obtain ⟨⟨scheme, rest⟩, hsplit, hrest⟩ := Option.bind_eq_some_iff.mp hrest
    obtain ⟨hlist, hscheme⟩ := splitOnce_eq_some_iff.mp hsplit
    dsimp only at hrest
    split_ifs at hrest with hbearer hne
    cases hrest
    have hspaces : rest.takeWhile (· == ' ') = List.replicate (rest.takeWhile (· == ' ')).length ' ' := by
      refine List.eq_replicate_of_mem fun c hc => ?_
      simpa using List.mem_takeWhile_imp hc
    refine ⟨scheme, (rest.takeWhile (· == ' ')).length, ?_, hscheme, hbearer, fun he => ?_, ?_⟩
    · rw [hvalue, Option.some.injEq, ← String.toList_inj, hlist, String.toList_ofList, String.toList_ofList,
        List.replicate_succ, ← hspaces, List.append_assoc, List.cons_append, List.takeWhile_append_dropWhile]
    · rw [← String.toList_inj, String.toList_ofList] at he
      exact hne he
    · rw [String.toList_ofList]
      intro hhead
      have hnot := List.head?_dropWhile_not (fun c => c == ' ') rest
      rw [hhead] at hnot
      cases hnot
  · rintro ⟨scheme, n, hvalue, hscheme, hbearer, hne, hhead⟩
    refine ⟨_, hvalue, ?_⟩
    have hsplit : splitOnce [' '] (scheme ++ List.replicate (n + 1) ' ' ++ token.toList) =
        some (scheme, List.replicate n ' ' ++ token.toList) :=
      splitOnce_eq_some_iff.mpr ⟨by simp [List.replicate_succ], hscheme⟩
    have hdrop : (List.replicate n ' ' ++ token.toList).dropWhile (· == ' ') = token.toList := by
      rw [List.dropWhile_append_of_pos (by simp)]
      cases hl : token.toList with
      | nil => rfl
      | cons c l =>
        have hc : c ≠ ' ' := by
          rintro rfl
          rw [hl] at hhead
          exact hhead rfl
        simp [hc]
    rw [String.toList_ofList, hsplit, Option.bind_some]
    dsimp only
    have hnil : token.toList ≠ [] := by simpa using hne
    rw [if_pos hbearer, hdrop, if_neg hnil, String.ofList_toList]

theorem originHost_url {scheme host : List Char} (hscheme : ':' ∉ scheme) (hhost : '/' ∉ host) :
    originHost (String.ofList (scheme ++ "://".toList ++ host)) = String.ofList host := by
  have hsplit : splitOnce [':', '/', '/'] (scheme ++ ':' :: '/' :: '/' :: host) = some (scheme, host) := by
    have happend : splitOnce [':', '/', '/'] (scheme ++ [':', '/', '/'] ++ host) = some (scheme, host) :=
      splitOnce_append host hscheme
    simpa using happend
  have hone : host.splitOn '/' = [host] := by
    have hpiece : ∀ x ∈ [host], '/' ∉ x := by simpa using hhost
    have h := List.splitOn_intercalate '/' hpiece (by simp)
    rwa [List.intercalate_singleton] at h
  simp [originHost, String.toList_ofList, hsplit, hone]

theorem csrfMatches_iff {headers : HeaderMap} : csrfMatches headers = true ↔
    ∃ csrf, csrf ≠ "" ∧ readCookie headers csrfCookie = some csrf ∧ headerText headers csrfHeader = some csrf := by
  unfold csrfMatches
  cases readCookie headers csrfCookie with
  | none => simp
  | some cookie =>
    cases headerText headers csrfHeader with
    | none => simp
    | some header =>
      simp only [Bool.and_eq_true, decide_eq_true_eq, constantTimeEq_utf8_iff, Option.some.injEq]
      constructor
      · rintro ⟨⟨hc, -⟩, rfl⟩
        exact ⟨cookie, hc, rfl, rfl⟩
      · rintro ⟨csrf, hne, rfl, rfl⟩
        exact ⟨⟨hne, hne⟩, rfl⟩

end HomeLlmGateway.Access.Cookies
