import HomeLlmGateway.Storage.Usage
import HomeLlmGateway.Lib.ByteCodec

/-! # The usage of one request

`UsageCollector` (`gateway/src/proxy/usage.rs`): it watches the chunks of one response and settles the
request once, by an `accumulate_usage` with what the upstream reported or, failing that, an estimate.
Both `finish` and `Drop` settle, so that a request is settled on every way out; the flag `settled` keeps
the second of them from counting it again (`settle_settled`).

What a chunk says about usage is read by `extract_usage`, here the parameter `extractUsage`. -/

namespace HomeLlmGateway.Proxy.Usage

open HomeLlmGateway.Lib.ByteCodec HomeLlmGateway.Storage.Usage

/-- `ExtractedUsage`: what the upstream reported. -/
structure ExtractedUsage where
  promptTokens : UInt64
  completionTokens : UInt64
  deriving DecidableEq

/-- `MAX_NON_STREAM_BUFFER`, 32 MiB. -/
def maxNonStreamBuffer : ℕ := 32 * 1024 * 1024

/-- `UsageCollector`, without the store and the key it settles into. -/
structure UsageCollector where
  promptEst : UInt64
  isStream : Bool
  extracted : Option ExtractedUsage
  buf : Bytes
  bytesForwarded : UInt64
  settled : Bool
  deriving DecidableEq

namespace UsageCollector

/-- `UsageCollector::new`. -/
def new (promptEst : UInt64) (isStream : Bool) : UsageCollector := ⟨promptEst, isStream, none, [], 0, false⟩

section

variable (extractUsage : Bytes → Option ExtractedUsage)

/-- `observe`: count the bytes; of a stream keep the last usage reported, else keep the bytes. -/
def observe (c : UsageCollector) (chunk : Bytes) : UsageCollector :=
  let c := { c with bytesForwarded := c.bytesForwarded + UInt64.ofNat chunk.length }
  if c.isStream then
    match extractUsage chunk with
    | some d => { c with extracted := some d }
    | none => c
  else if c.buf.length < maxNonStreamBuffer then { c with buf := c.buf ++ chunk }
  else c

/-- `u64::div_ceil(4)`. -/
def divCeil4 (n : UInt64) : UInt64 := if n % 4 = 0 then n / 4 else n / 4 + 1

/-- What `resolve_delta` finds reported: a whole response is parsed only now. -/
def reported (c : UsageCollector) : Option ExtractedUsage :=
  if c.isStream then c.extracted
  else match extractUsage c.buf with
    | some d => some d
    | none => c.extracted

/-- `resolve_delta`. -/
def resolveDelta (c : UsageCollector) : UsageDelta :=
  match c.reported extractUsage with
  | some d => ⟨d.promptTokens, d.completionTokens, false⟩
  | none => ⟨c.promptEst, max (divCeil4 c.bytesForwarded) 1, true⟩

/-- `settle`, with the deltas accumulated for this request so far. -/
def settle (c : UsageCollector) (ledger : List UsageDelta) : UsageCollector × List UsageDelta :=
  if c.settled then (c, ledger)
  else ({ c with settled := true, extracted := c.reported extractUsage },
    ledger ++ [c.resolveDelta extractUsage])

/-- `Drop`. -/
def drop (c : UsageCollector) (ledger : List UsageDelta) : List UsageDelta :=
  (c.settle extractUsage ledger).2

/-- `finish` takes the collector by value: it settles and the collector is dropped. -/
def finish (c : UsageCollector) (ledger : List UsageDelta) : List UsageDelta :=
  (c.settle extractUsage ledger).1.drop extractUsage (c.settle extractUsage ledger).2

@[simp] theorem observe_settled (c : UsageCollector) (chunk : Bytes) :
    (c.observe extractUsage chunk).settled = c.settled := by
  unfold observe
  dsimp only
  split_ifs
  · split <;> rfl
  · rfl
  · rfl

theorem settle_settled (c : UsageCollector) (ledger : List UsageDelta) :
    (c.settle extractUsage ledger).1.settled = true := by
  unfold settle
  split_ifs with h
  · exact h
  · rfl

theorem drop_of_unsettled {c : UsageCollector} (h : c.settled = false) (ledger : List UsageDelta) :
    c.drop extractUsage ledger = ledger ++ [c.resolveDelta extractUsage] := by
  simp [drop, settle, h]

/-- **`finish` settles once**, although the collector is dropped after it. -/
theorem finish_of_unsettled {c : UsageCollector} (h : c.settled = false) (ledger : List UsageDelta) :
    c.finish extractUsage ledger = ledger ++ [c.resolveDelta extractUsage] := by
  have hs := settle_settled extractUsage c ledger
  unfold finish drop
  rw [settle, if_pos hs]
  simp [settle, h]

end

end UsageCollector

end HomeLlmGateway.Proxy.Usage
