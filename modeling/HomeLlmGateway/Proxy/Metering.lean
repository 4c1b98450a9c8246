import HomeLlmGateway.Proto.Http
import HomeLlmGateway.Proxy.Usage

/-! # Metering and chunk boundaries

`extract_usage` (`gateway/src/usage_meter.rs`) reads what the upstream reports about tokens out of a JSON
text or a line of an event stream, and `UsageCollector` (`Proxy.Usage`) calls it: for the whole of a
response that is no stream, and for every single chunk of one that is. A line that two chunks share is
never seen whole, so the bill of a stream depends on where the upstream's bytes are cut, as soon as any part
of it reports usage (`metering_ignores_boundaries_iff`).

The JSON parser is the parameter `fromSlice`. -/

namespace HomeLlmGateway.Proxy.Metering

open HomeLlmGateway.Lib.ByteCodec HomeLlmGateway.Lib.ByteCodec.Codec
open HomeLlmGateway.Proto.Http (contains trim)
open HomeLlmGateway.Storage.Usage HomeLlmGateway.Proxy.Usage

/-! ### Texts -/

/-- A byte that continues a character in UTF-8. -/
def continuation (b : UInt8) : Bool := 0x80 ≤ b && b ≤ 0xbf

/-- Whether `b` may follow the first byte `first` of a character of three or four bytes. -/
def secondByte (first b : UInt8) : Bool :=
  if first = 0xe0 then 0xa0 ≤ b && b ≤ 0xbf
  else if first = 0xed then 0x80 ≤ b && b ≤ 0x9f
  else if first = 0xf0 then 0x90 ≤ b && b ≤ 0xbf
  else if first = 0xf4 then 0x80 ≤ b && b ≤ 0x8f
  else continuation b

/-- How many bytes make up the first character, or the part of one that stands before an invalid byte. -/
def firstLength : Bytes → ℕ
  | [] => 0
  | first :: rest =>
    if 0xc2 ≤ first && first ≤ 0xdf then if continuation (rest.getD 0 0) then 2 else 1
    else if 0xe0 ≤ first && first ≤ 0xef then
      if !secondByte first (rest.getD 0 0) then 1
      else if continuation (rest.getD 1 0) then 3 else 2
    else if 0xf0 ≤ first && first ≤ 0xf4 then
      if !secondByte first (rest.getD 0 0) then 1
      else if !continuation (rest.getD 1 0) then 2
      else if continuation (rest.getD 2 0) then 4 else 3
    else 1

/-- The characters of the first `n` parts, an invalid part as U+FFFD. -/
def lossyParts : ℕ → Bytes → List Char
  | 0, _ => []
  | _, [] => []
  | n + 1, bs =>
    ((ofUtf8 (bs.take (firstLength bs))).elim [Char.ofNat 0xfffd] String.toList) ++
      lossyParts n (bs.drop (firstLength bs))

/-- `String::from_utf8_lossy`. -/
def fromUtf8Lossy (bs : Bytes) : List Char := lossyParts bs.length bs

/-- A line without a carriage return at its end. -/
def stripCr (line : List Char) : List Char := if line.getLast? = some '\r' then line.dropLast else line

/-- `str::lines`: what comes after the last line feed is a line if it is not empty. -/
def lines (text : List Char) : List (List Char) :=
  let pieces := text.splitOn '\n'
  pieces.dropLast.map stripCr ++ if pieces.getLast? = some [] then [] else pieces.getLast?.toList

/-- `strip_prefix`. -/
def stripPrefix (text line : List Char) : Option (List Char) :=
  if text.isPrefixOf line then some (line.drop text.length) else none

/-! ### What is reported -/

/-- `serde_json::Value`; a number by what `as_u64` makes of it, an object with each key once. -/
inductive Json where
  | null
  | bool (b : Bool)
  | number (asU64 : Option UInt64)
  | string (s : String)
  | array (elements : List Json)
  | object (fields : List (String × Json))

/-- `Value::get`. -/
def Json.get (key : String) : Json → Option Json
  | .object fields => (fields.find? fun f => f.1 = key).map Prod.snd
  | _ => none

/-- `Value::as_u64`. -/
def Json.asU64 : Json → Option UInt64
  | .number n => n
  | _ => none

/-- `usage_from_json`. -/
def usageFromJson (value : Json) : Option ExtractedUsage :=
  (value.get "usage").bind fun u =>
    let prompt := ((u.get "prompt_tokens").bind Json.asU64).getD 0
    let completion := ((u.get "completion_tokens").bind Json.asU64).getD 0
    let bothMissing := (u.get "prompt_tokens").isNone && (u.get "completion_tokens").isNone
    let placeholderZero := prompt == 0 && completion == 0 && (u.get "total_tokens").isNone
    if bothMissing || placeholderZero then none else some ⟨prompt, completion⟩

section extracting

-- `serde_json::from_slice`, and `from_str` of the text with these bytes
variable (fromSlice : Bytes → Option Json)

/-- `try_whole_json`. -/
def tryWholeJson (chunk : Bytes) : Option ExtractedUsage := (fromSlice chunk).bind usageFromJson

/-- One line of `try_sse_lines`. -/
def sseLine (line : List Char) : Option ExtractedUsage :=
  let line := trim line
  if !contains line "usage".toList then none
  else
    (stripPrefix "data:".toList line).bind fun rest =>
      let payload := trim rest
      if payload = "[DONE]".toList then none
      else (fromSlice (utf8 (String.ofList payload))).bind usageFromJson

/-- `try_sse_lines`: the first line that reports. -/
def trySseLines (chunk : Bytes) : Option ExtractedUsage :=
  (lines (fromUtf8Lossy chunk)).findSome? (sseLine fromSlice)

/-- The key in quotes. -/
def usageKey : Bytes := utf8 "\"usage\""

/-- `extract_usage`. -/
def extractUsage (chunk : Bytes) : Option ExtractedUsage :=
  if chunk.tails.any fun w => usageKey.isPrefixOf w then
    (tryWholeJson fromSlice chunk).or (trySseLines fromSlice chunk)
  else none

/-- What a collector settles that observes the chunks and is then finished. -/
def meter (promptEst : UInt64) (isStream : Bool) (chunks : List Bytes) : List UsageDelta :=
  (chunks.foldl (UsageCollector.observe (extractUsage fromSlice)) (.new promptEst isStream)).finish
    (extractUsage fromSlice) []

end extracting

/-- The chunks are the bytes, cut into parts that are not empty. -/
structure IsSplit (chunks : List Bytes) (bytes : Bytes) : Prop where
  flatten : chunks.flatten = bytes
  nonempty : ∀ chunk ∈ chunks, chunk ≠ []

section metering

variable {fromSlice : Bytes → Option Json} {promptEst : UInt64} {chunks : List Bytes}

/-! ### One collector -/

theorem extractUsage_of_short {chunk : Bytes} (h : chunk.length < usageKey.length) :
    extractUsage fromSlice chunk = none := by
  unfold extractUsage
  rw [if_neg]
  simp only [List.any_eq_true, List.mem_tails, List.isPrefixOf_iff_prefix, not_exists, not_and]
  intro w hw hpre
  have := hw.length_le
  have := hpre.length_le
  omega

/-- What a stream has reported after one more chunk. -/
def reportedAfter (fromSlice : Bytes → Option Json) (last : Option ExtractedUsage) (chunk : Bytes) :
    Option ExtractedUsage :=
  (extractUsage fromSlice chunk).or last

/-- **The chunks of a stream**: their bytes are counted, and the last report is kept. -/
theorem observe_stream : ∀ (chunks : List Bytes) {c : UsageCollector}, c.isStream = true →
    chunks.foldl (UsageCollector.observe (extractUsage fromSlice)) c =
      { c with
        bytesForwarded := c.bytesForwarded + UInt64.ofNat chunks.flatten.length
        extracted := chunks.foldl (reportedAfter fromSlice) c.extracted }
  | [], c, _ => by simp
  | chunk :: chunks, c, h => by
    have hone : c.observe (extractUsage fromSlice) chunk =
        { c with
          bytesForwarded := c.bytesForwarded + UInt64.ofNat chunk.length
          extracted := reportedAfter fromSlice c.extracted chunk } := by
      unfold UsageCollector.observe reportedAfter
      dsimp only
      rw [if_pos h]
      cases extractUsage fromSlice chunk with
      | none => rfl
      | some d => rfl
    rw [List.foldl_cons, hone, observe_stream chunks (by exact h)]
    simp [UInt64.ofNat_add, UInt64.add_assoc]

/-- **The chunks of a whole response** that fits into the buffer: their bytes are counted and kept. -/
theorem observe_whole : ∀ (chunks : List Bytes) {c : UsageCollector}, c.isStream = false →
    c.buf.length + chunks.flatten.length < maxNonStreamBuffer →
    chunks.foldl (UsageCollector.observe (extractUsage fromSlice)) c =
      { c with
        bytesForwarded := c.bytesForwarded + UInt64.ofNat chunks.flatten.length
        buf := c.buf ++ chunks.flatten }
  | [], c, _, _ => by simp
  | chunk :: chunks, c, h, hlen => by
    rw [List.flatten_cons, List.length_append] at hlen
    have hone : c.observe (extractUsage fromSlice) chunk =
        { c with
          bytesForwarded := c.bytesForwarded + UInt64.ofNat chunk.length
          buf := c.buf ++ chunk } := by
      unfold UsageCollector.observe
      dsimp only
      rw [if_neg (by rw [h]; simp), if_pos (by omega)]
    rw [List.foldl_cons, hone, observe_whole chunks (by exact h) (by simp only [List.length_append]; omega)]
    simp [UInt64.ofNat_add, UInt64.add_assoc]

/-- The estimate for a response without a report. -/
def estimate (promptEst n : UInt64) : UsageDelta := ⟨promptEst, max (UsageCollector.divCeil4 n) 1, true⟩

/-- What is settled for a report, or for none. -/
def settled (promptEst n : UInt64) : Option ExtractedUsage → UsageDelta
  | some d => ⟨d.promptTokens, d.completionTokens, false⟩
  | none => estimate promptEst n

theorem meter_stream : meter fromSlice promptEst true chunks =
    [settled promptEst (UInt64.ofNat chunks.flatten.length)
      (chunks.foldl (reportedAfter fromSlice) none)] := by
  unfold meter
  rw [observe_stream chunks rfl, UsageCollector.finish_of_unsettled _ rfl]
  unfold UsageCollector.resolveDelta UsageCollector.reported
  simp only [UsageCollector.new, if_true, UInt64.zero_add, List.nil_append]
  cases chunks.foldl (reportedAfter fromSlice) none with
  | none => rfl
  | some d => rfl

theorem meter_whole (h : chunks.flatten.length < maxNonStreamBuffer) :
    meter fromSlice promptEst false chunks =
      [settled promptEst (UInt64.ofNat chunks.flatten.length) (extractUsage fromSlice chunks.flatten)] := by
  unfold meter
  rw [observe_whole chunks rfl (by simpa [UsageCollector.new] using h),
    UsageCollector.finish_of_unsettled _ rfl]
  unfold UsageCollector.resolveDelta UsageCollector.reported
  simp only [UsageCollector.new, Bool.false_eq_true, if_false, UInt64.zero_add, List.nil_append]
  cases extractUsage fromSlice chunks.flatten with
  | none => rfl
  | some d => rfl

theorem reported_eq_none_iff : ∀ {chunks : List Bytes} {last : Option ExtractedUsage},
    chunks.foldl (reportedAfter fromSlice) last = none ↔
      last = none ∧ ∀ chunk ∈ chunks, extractUsage fromSlice chunk = none
  | [], last => by simp
  | chunk :: chunks, last => by
    rw [List.foldl_cons, reported_eq_none_iff]
    unfold reportedAfter
    rw [Option.or_eq_none_iff, List.forall_mem_cons, and_assoc, and_left_comm]

theorem settled_estimated (promptEst n : UInt64) (r : Option ExtractedUsage) :
    (settled promptEst n r).estimated = r.isNone := by
  cases r with
  | none => rfl
  | some d => rfl

/-! ### Two splits -/

theorem isSplit_bytes (bytes : Bytes) : IsSplit (bytes.map fun b => [b]) bytes := by
  refine ⟨?_, fun chunk hc => ?_⟩
  · induction bytes with
    | nil => rfl
    | cons b bytes ih =>
      rw [List.map_cons, List.flatten_cons, ih]
      rfl
  · obtain ⟨b, -, rfl⟩ := List.mem_map.mp hc
    simp

theorem isSplit_part (before after : Bytes) {part : Bytes} (h : part ≠ []) :
    ∃ chunks, IsSplit chunks (before ++ part ++ after) ∧ part ∈ chunks := by
  refine ⟨([before, part, after]).filter (· ≠ []), ⟨?_, fun chunk hc => ?_⟩, ?_⟩
  · have hdrop : ∀ cs : List Bytes, (cs.filter (· ≠ [])).flatten = cs.flatten := by
      intro cs
      induction cs with
      | nil => rfl
      | cons c cs ih =>
        rw [List.filter_cons]
        split_ifs with hc
        · rw [List.flatten_cons, List.flatten_cons, ih]
        · have hnil : c = [] := by simpa using hc
          rw [ih, hnil]
          rfl
    rw [hdrop]
    simp
  · simpa using (List.mem_filter.mp hc).2
  · exact List.mem_filter.mpr ⟨by simp, by simpa using h⟩

/-- **When metering does not depend on chunk boundaries.** For a response that fits into the buffer if it is
no stream, all ways of cutting it settle the same, exactly if it is no stream or no part of it reports
usage. -/
theorem metering_ignores_boundaries_iff (fromSlice : Bytes → Option Json) (promptEst : UInt64)
    (isStream : Bool) (bytes : Bytes) (hfits : isStream = false → bytes.length < maxNonStreamBuffer) :
    (∀ chunks chunks', IsSplit chunks bytes → IsSplit chunks' bytes →
      meter fromSlice promptEst isStream chunks = meter fromSlice promptEst isStream chunks') ↔
    (isStream = true → ∀ part, part <:+: bytes → extractUsage fromSlice part = none) := by
  cases isStream with
  | false =>
    refine ⟨fun _ h => (by cases h), fun _ chunks chunks' hs hs' => ?_⟩
    have hlen := hfits rfl
    rw [meter_whole (by rw [hs.flatten]; exact hlen), meter_whole (by rw [hs'.flatten]; exact hlen),
      hs.flatten, hs'.flatten]
  | true =>
    constructor
    · rintro h - part ⟨before, after, rfl⟩
      by_contra hreports
      have hne : part ≠ [] := by
        rintro rfl
        exact hreports (extractUsage_of_short (by decide))
      obtain ⟨chunks, hs, hmem⟩ := isSplit_part before after hne
      have heq := h chunks _ hs (isSplit_bytes _)
      -- byte by byte nothing is reported
      have hbytes : ((before ++ part ++ after).map fun b => [b]).foldl (reportedAfter fromSlice) none =
          none := by
        refine reported_eq_none_iff.mpr ⟨rfl, fun chunk hc => ?_⟩
        obtain ⟨b, -, rfl⟩ := List.mem_map.mp hc
        have hkey : 1 < usageKey.length := by decide
        exact extractUsage_of_short hkey
      rw [meter_stream, meter_stream, hbytes] at heq
      have hest := congrArg UsageDelta.estimated (List.singleton_inj.mp heq)
      rw [settled_estimated, settled_estimated, Option.isNone_none, Option.isNone_iff_eq_none,
        reported_eq_none_iff] at hest
      exact hreports (hest.2 part hmem)
    · intro h chunks chunks' hs hs'
      have hnone : ∀ {cs}, IsSplit cs bytes → cs.foldl (reportedAfter fromSlice) none = none := by
        intro cs hcs
        refine reported_eq_none_iff.mpr ⟨rfl, fun chunk hc => h rfl chunk ?_⟩
        rw [← hcs.flatten]
        exact List.infix_of_mem_flatten hc
      rw [meter_stream, meter_stream, hnone hs, hnone hs', hs.flatten, hs'.flatten]

end metering

/-- A report of the upstream. -/
def reportText : String := "\x7b\"usage\":\x7b\"prompt_tokens\":5,\"completion_tokens\":7\x7d\x7d"

/-- The parser on it. -/
def parsesReport (bs : Bytes) : Option Json :=
  if bs = utf8 reportText then
    some (.object [("usage", .object [("prompt_tokens", .number (some 5)),
      ("completion_tokens", .number (some 7))])])
  else none

/-- The report as an event of a stream. -/
def reportEvent : Bytes := utf8 ("data: " ++ reportText ++ "\n\n")

/-- As one chunk the event is billed as reported, in two chunks by an estimate. -/
theorem cut_event_is_estimated :
    IsSplit [reportEvent] reportEvent ∧ IsSplit [reportEvent.take 20, reportEvent.drop 20] reportEvent ∧
    meter parsesReport 7 true [reportEvent] = [⟨5, 7, false⟩] ∧
    meter parsesReport 7 true [reportEvent.take 20, reportEvent.drop 20] = [⟨7, 15, true⟩] := by
  refine ⟨⟨by simp, by decide +kernel⟩, ⟨by simp, by decide +kernel⟩, ?_, ?_⟩
  · decide +kernel
  · decide +kernel

/-- A response that is no stream may be cut anywhere. -/
theorem metering_ignores_boundaries_whole :
    meter parsesReport 7 false [(utf8 reportText).take 20, (utf8 reportText).drop 20] =
      meter parsesReport 7 false [utf8 reportText] := by
  have hlen : (utf8 reportText).length < maxNonStreamBuffer := by decide +kernel
  refine (metering_ignores_boundaries_iff parsesReport 7 false (utf8 reportText) fun _ => hlen).mpr
    (fun h => (by cases h)) _ _ ⟨by simp, by decide +kernel⟩ ⟨by simp, by decide +kernel⟩

end HomeLlmGateway.Proxy.Metering
