import Mathlib.Data.String.Basic
import HomeLlmGateway.Http.Observability
import HomeLlmGateway.Lib.Exposition
import HomeLlmGateway.Lib.Sorted

/-! # The text of `/metrics`

`render` (`gateway/src/metrics/render.rs`) and the counters that it shows, with the functions that count
(`gateway/src/metrics/mod.rs`). Whoever reads the text gets the samples back (`Lib.Exposition`); so after any
events it says how often each of them was (`scrape_shows_events`). -/

namespace HomeLlmGateway.Metrics.Render

open HomeLlmGateway.Lib.Assoc HomeLlmGateway.Lib.Decimal HomeLlmGateway.Lib.Sorted
open HomeLlmGateway.Lib.Exposition
open HomeLlmGateway.Metrics.Admission (MetricsInner Request Stage Call stageStep active_setCounter)

/-! ### The counters -/

/-- What a labelled counter is counted under: a constant of the code, that can stand between quotes. -/
structure Kind where
  text : String
  plain : ∀ c ∈ text.toList, c ∉ ['\x22', '\n']
  deriving DecidableEq

theorem Kind.text_injective : Function.Injective Kind.text := by
  rintro ⟨s, hs⟩ ⟨t, ht⟩ h
  cases h
  rfl

/-- The labelled counters. -/
inductive Table where
  | tunnelRetries
  | agentRejections
  | forwardEnds
  | clientStalls
  | headTimeouts
  | tunnelOpenTimeouts
  | tunnelWriteFailures
  deriving DecidableEq

/-- `MetricsInner`. -/
structure Counters where
  /-- the tickets, `status_counts` and `aborted` -/
  base : Http.Observability.Metrics
  bytesOut : UInt64
  httpAcceptErrors : UInt64
  quicConnections : UInt64
  agentConnectionsTotal : UInt64
  quicAccepting : UInt64
  tables : Table → HashMap Kind UInt64

/-- `Metrics::default`. -/
def Counters.default : Counters := ⟨⟨⟨0, 0, 0, 0, 0, 0⟩, ∅, 0⟩, 0, 0, 0, 0, 0, fun _ => ∅⟩

/-- `record_agent_rejection`, `record_tunnel_retry` and so on: `*entry(kind).or_insert(0) += 1`. -/
def Counters.count (m : Counters) (t : Table) (kind : Kind) : Counters :=
  { m with tables := Function.update m.tables t ((m.tables t).insert kind (((m.tables t).lookup kind).getD 0 + 1)) }

/-- `record_accept_error`. -/
def Counters.recordAcceptError (m : Counters) : Counters := { m with httpAcceptErrors := m.httpAcceptErrors + 1 }

/-- `add_bytes_out`. -/
def Counters.addBytesOut (m : Counters) (n : ℕ) : Counters := { m with bytesOut := m.bytesOut + UInt64.ofNat n }

/-- `mark_agent_connected`. -/
def Counters.markAgentConnected (m : Counters) : Counters :=
  { m with
    agentConnectionsTotal := m.agentConnectionsTotal + 1
    quicConnections := m.quicConnections + 1 }

/-- `agent_disconnected`: a saturating subtraction. -/
def Counters.agentDisconnected (m : Counters) : Counters :=
  { m with quicConnections := if m.quicConnections = 0 then 0 else m.quicConnections - 1 }

/-! ### The text -/

/-- `push_scalar`. -/
def scalar (name help kind : String) (value : UInt64) : Family := ⟨name, help, kind, [(none, value.toNat)], true⟩

/-- `push_gauge`. -/
def gauge (name help : String) (value : UInt64) : Family := scalar name help "gauge" value

/-- `push_counter`. -/
def counter (name help : String) (value : UInt64) : Family := scalar name help "counter" value

/-- The code in decimal digits. -/
def codeText (code : UInt16) : String := String.ofList (printNat code.toNat)

/-- `push_status_family`. -/
def statusFamily (counts : HashMap UInt16 UInt64) : Family where
  name := "hlmg_requests_total"
  help := "Total gateway requests by HTTP status."
  kind := "counter"
  samples := (sortOn UInt16.toNat counts.keys).map fun code =>
    (some ("status", codeText code), ((counts.lookup code).getD 0).toNat)
  announced := true

/-- `push_labeled_family`. -/
def labeledFamily (name help label : String) (counts : HashMap Kind UInt64) : Family where
  name := name
  help := help
  kind := "counter"
  samples := (sortOn Kind.text counts.keys).map fun kind =>
    (some (label, kind.text), ((counts.lookup kind).getD 0).toNat)
  announced := false

def Table.name : Table → String
  | .tunnelRetries => "hlmg_tunnel_retries_total"
  | .agentRejections => "hlmg_agent_rejections_total"
  | .forwardEnds => "hlmg_forward_ends_total"
  | .clientStalls => "hlmg_client_stalls_total"
  | .headTimeouts => "hlmg_upstream_head_timeouts_total"
  | .tunnelOpenTimeouts => "hlmg_tunnel_open_timeouts_total"
  | .tunnelWriteFailures => "hlmg_tunnel_write_failures_total"

def Table.label : Table → String
  | .tunnelRetries => "outcome"
  | .agentRejections => "reason"
  | .forwardEnds => "kind"
  | .clientStalls => "phase"
  | .headTimeouts | .tunnelOpenTimeouts | .tunnelWriteFailures => "class"

def Table.help : Table → String
  | .tunnelRetries => "Tunnel-setup failures that led to an agent switch, by outcome. ok and failed count " ++
      "retries; no-alternative counts the times there was no other agent to switch to, so it is not a retry " ++
      "and the family sum is neither the retry count nor the failure count."
  | .agentRejections => "Requests rejected because no routable agent was available, by reason."
  | .forwardEnds => "Response forwarding exits by reason. Most of these happen after a 200 was already " ++
      "written to the client (truncated body, idle timeout, upstream closed), so the access log cannot show " ++
      "them; see ForwardEnd::label for the kinds."
  | .clientStalls => "Requests abandoned because the client stopped making progress, by direction. Kept " ++
      "slots do not leak: each one is released when the request ends."
  | .headTimeouts => "Response heads that exceeded head_timeout_secs; class=slow means the agent had " ++
      "answered recently and is merely blocked (504, not evicted), class=silent means nothing came back " ++
      "within the window (counts toward eviction)."
  | .tunnelOpenTimeouts => "Tunnel stream opens that exceeded tunnel_op_secs; class=busy means the agent " ++
      "was at capacity (backpressure, not evicted), class=dead means the connection was treated as broken and " ++
      "evicted."
  | .tunnelWriteFailures => "Request frames that could not be written to the tunnel; class=backpressure " ++
      "means the write timed out (connection-level backpressure, not evicted), class=broken means the write " ++
      "returned an error (connection treated as broken and evicted)."

/-- The family of a labelled counter. -/
def Counters.family (m : Counters) (t : Table) : Family := labeledFamily t.name t.help t.label (m.tables t)

/-- What `render` is told about the registry and the store. -/
structure Readings where
  agentCount : UInt64
  agentsHealthy : UInt64
  verifyHits : UInt64
  verifyMisses : UInt64

/-- The families, in the order in which `render` writes them. -/
def families (m : Counters) (r : Readings) : List Family :=
  [statusFamily m.base.statusCounts,
    gauge "hlmg_active_requests" "Currently in-flight requests." m.base.tickets.active,
    gauge "hlmg_agents" "Registered agent entries, including ones whose heartbeats have expired." r.agentCount,
    gauge "hlmg_agents_healthy"
      "Registered agents whose last heartbeat is within agent_stale_secs (routable candidates)." r.agentsHealthy,
    m.family .tunnelRetries, m.family .agentRejections, m.family .forwardEnds, m.family .clientStalls,
    m.family .headTimeouts, m.family .tunnelOpenTimeouts, m.family .tunnelWriteFailures,
    counter "hlmg_bytes_out" "Bytes forwarded to clients." m.bytesOut,
    counter "hlmg_request_duration_ms" "Total request duration in ms (sum)." m.base.tickets.totalDurationMs,
    counter "hlmg_request_count" "Total requests (sum)." m.base.tickets.requestCount,
    counter "hlmg_requests_aborted_total"
      "Requests dropped before a status was written (client aborted or the connection was cut)." m.base.aborted,
    counter "hlmg_key_verify_hits_total" "Cached key verifications served without argon2." r.verifyHits,
    counter "hlmg_key_verify_misses_total"
      "Key verifications that ran argon2 (a cache miss, or the cache is disabled via verified_cache_max: 0)."
      r.verifyMisses,
    gauge "hlmg_quic_connections" "Currently open agent QUIC connections." m.quicConnections,
    gauge "hlmg_quic_accepting" "Whether the tunnel entry still accepts new edge connections (1/0)."
      m.quicAccepting,
    counter "hlmg_http_accept_errors_total" ("Public entry accept() failures (EMFILE, ECONNABORTED, ...); the " ++
      "entry keeps listening and retries with backoff.") m.httpAcceptErrors,
    counter "hlmg_agent_connections_total" "Cumulative agent connections (reconnects)." m.agentConnectionsTotal]

/-- `render`. -/
def render (m : Counters) (r : Readings) : String := text (families m r)

/-! ### Reading it -/

section reading

variable {m : Counters} {r : Readings}

/-- The constant texts of a family are plain, which is checked on their characters. -/
def plainTexts (name help kind : List Char) : Bool :=
  (name.all fun c => c ∉ ['#', '\x7b', ' ', '\n']) && '\n' ∉ help && '\n' ∉ kind

theorem plain_of_texts {f : Family} {name help kind : List Char} (hname : f.name = String.ofList name)
    (hhelp : f.help = String.ofList help) (hkind : f.kind = String.ofList kind)
    (h : plainTexts name help kind = true)
    (hlabels : ∀ label key value, (some (label, key), value) ∈ f.samples →
      (∀ c ∈ label.toList, c ∉ ['=', '\n']) ∧ ∀ c ∈ key.toList, c ∉ ['\x22', '\n']) : f.Plain := by
  simp only [plainTexts, Bool.and_eq_true, List.all_eq_true, decide_eq_true_eq] at h
  constructor
  · rw [hname, String.toList_ofList]
    exact h.1.1
  · rw [hhelp, String.toList_ofList]
    exact h.1.2
  · rw [hkind, String.toList_ofList]
    exact h.2
  · exact hlabels

theorem plain_scalar {name help kind : String} {name' help' kind' : List Char} (value : UInt64)
    (hname : name = String.ofList name') (hhelp : help = String.ofList help') (hkind : kind = String.ofList kind')
    (h : plainTexts name' help' kind' = true) : (scalar name help kind value).Plain := by
  refine plain_of_texts hname hhelp hkind h fun label key v hm => ?_
  simp [scalar] at hm

def plainLabel (label : List Char) : Bool := label.all fun c => c ∉ ['=', '\n']

theorem not_mem_label {label : String} {label' : List Char} (hlabel : label = String.ofList label')
    (h : plainLabel label' = true) : ∀ c ∈ label.toList, c ∉ ['=', '\n'] := by
  rw [hlabel, String.toList_ofList]
  simpa only [plainLabel, List.all_eq_true, decide_eq_true_eq] using h

theorem plain_statusFamily (counts : HashMap UInt16 UInt64) : (statusFamily counts).Plain := by
  refine plain_of_texts rfl rfl rfl (by decide +kernel) fun label key v hm => ?_
  obtain ⟨code, -, he⟩ := List.mem_map.mp hm
  cases he
  refine ⟨not_mem_label rfl (by decide +kernel), fun c hc hmem => ?_⟩
  rw [codeText, String.toList_ofList] at hc
  have hdigit := isDigit_of_mem_printNat hc
  simp only [List.mem_cons, List.not_mem_nil, or_false] at hmem
  rcases hmem with rfl | rfl <;> exact absurd hdigit (by decide)

theorem plain_labeledFamily {name help label : String} {name' help' label' : List Char}
    (counts : HashMap Kind UInt64) (hname : name = String.ofList name') (hhelp : help = String.ofList help')
    (h : plainTexts name' help' "counter".toList = true) (hlabel : label = String.ofList label')
    (hl : plainLabel label' = true) : (labeledFamily name help label counts).Plain := by
  refine plain_of_texts hname hhelp String.ofList_toList.symm h fun l key v hm => ?_
  obtain ⟨kind, -, he⟩ := List.mem_map.mp hm
  cases he
  exact ⟨not_mem_label hlabel hl, kind.plain⟩

theorem append_eq_ofList {s t : String} {l l' : List Char} (hs : s = String.ofList l) (ht : t = String.ofList l') :
    s ++ t = String.ofList (l ++ l') := by
  rw [hs, ht, String.ofList_append]

set_option maxRecDepth 4000 in
theorem exists_help (t : Table) : ∃ help, t.help = String.ofList help ∧ '\n' ∉ help := by
  cases t with
  | agentRejections => exact ⟨_, rfl, by decide +kernel⟩
  | clientStalls => exact ⟨_, append_eq_ofList rfl rfl, by decide +kernel⟩
  | _ => exact ⟨_, append_eq_ofList (append_eq_ofList rfl rfl) rfl, by decide +kernel⟩

theorem plain_family (m : Counters) (t : Table) : (m.family t).Plain := by
  obtain ⟨help, hhelp, hline⟩ := exists_help t
  have hname : ∃ name, t.name = String.ofList name ∧ plainTexts name [] "counter".toList = true := by
    cases t <;> exact ⟨_, rfl, by decide +kernel⟩
  have hlabel : ∃ label, t.label = String.ofList label ∧ plainLabel label = true := by
    cases t <;> exact ⟨_, rfl, by decide +kernel⟩
  obtain ⟨name, hname, hplain⟩ := hname
  obtain ⟨label, hlabel, hpl⟩ := hlabel
  refine plain_labeledFamily _ hname hhelp ?_ hlabel hpl
  simp only [plainTexts, Bool.and_eq_true] at hplain ⊢
  exact ⟨⟨hplain.1.1, decide_eq_true hline⟩, hplain.2⟩

set_option maxRecDepth 4000 in
theorem plain_families (m : Counters) (r : Readings) : ∀ f ∈ families m r, f.Plain := by
  simp only [families, List.forall_mem_cons, List.not_mem_nil, false_implies, implies_true, and_true]
  refine ⟨plain_statusFamily _, ?_, ?_, ?_, plain_family m _, plain_family m _, plain_family m _,
    plain_family m _, plain_family m _, plain_family m _, plain_family m _, ?_, ?_, ?_, ?_, ?_, ?_, ?_, ?_, ?_, ?_⟩
  all_goals
    first
    | exact plain_scalar _ rfl (append_eq_ofList rfl rfl) rfl (by decide +kernel)
    | exact plain_scalar _ rfl rfl rfl (by decide +kernel)

theorem nodup_names (m : Counters) (r : Readings) : ((families m r).map Family.name).Nodup := by
  have hnames : (families m r).map Family.name = (families .default ⟨0, 0, 0, 0⟩).map Family.name := rfl
  rw [hnames]
  decide

/-- **The page shows the counters.** Under the name of a family a reader finds its samples. -/
theorem samplesOf_render {f : Family} (hf : f ∈ families m r) : samplesOf (render m r) f.name = f.samples :=
  samplesOf_text (plain_families m r) (nodup_names m r) hf

end reading

/-! ### A map that has counted -/

section tally

variable {κ β γ : Type*} [DecidableEq κ] [LinearOrder β] {counts : HashMap κ UInt64} {l : List κ}

/-- The map has counted the list. -/
def Tally (counts : HashMap κ UInt64) (l : List κ) : Prop :=
  ∀ k, counts.lookup k = if k ∈ l then some (UInt64.ofNat (l.count k)) else none

theorem tally_concat (h : Tally counts l) (k : κ) :
    Tally (counts.insert k ((counts.lookup k).getD 0 + 1)) (l ++ [k]) := by
  have hold : (counts.lookup k).getD 0 = UInt64.ofNat (l.count k) := by
    rw [h k]
    split_ifs with hk
    · rfl
    · rw [List.count_eq_zero_of_not_mem hk]
      rfl
  intro k'
  rw [lookup_insert]
  by_cases hk : k' = k
  · subst hk
    rw [hold]
    simp
  · have hne : k ≠ k' := fun he => hk he.symm
    rw [if_neg hk, h k']
    simp [hk, hne]

/-- What is shown of it: its keys in order, each with its number. -/
theorem samples_of_tally {f : κ → β} (hf : Function.Injective f) (h : Tally counts l) (label : κ → γ) :
    ((sortOn f counts.keys).map fun k => (label k, ((counts.lookup k).getD 0).toNat)) =
      (sortOn f l.dedup).map fun k => (label k, l.count k % 2 ^ 64) := by
  have hkeys : counts.keys.Perm l.dedup := by
    refine (List.perm_ext_iff_of_nodup counts.nodupKeys l.nodup_dedup).mpr fun k => ?_
    have hmem : (counts.lookup k).isSome = true ↔ k ∈ l := by
      rw [h k]
      split_ifs with hk <;> simp [hk]
    rw [List.mem_dedup, ← hmem]
    exact AList.lookup_isSome.symm
  rw [sortOn_congr hf hkeys]
  refine List.map_congr_left fun k hk => ?_
  have hl : k ∈ l := List.mem_dedup.mp (mem_sortOn.mp hk)
  rw [h k, if_pos hl, Option.getD_some, UInt64.toNat_ofNat']

end tally

/-! ### The events behind the page -/

/-- What is counted. -/
inductive Event where
  | status (code : UInt16)
  | aborted
  | rejected
  | acceptError
  | bytesOut (n : ℕ)
  | agentConnected
  | agentDisconnected
  | counted (t : Table) (kind : Kind)
  /-- a call of `enter` goes on, or the drop of its ticket -/
  | ticket (call : Call) (spurious : Bool) (elapsed : UInt64)
  deriving DecidableEq

def Counters.record (m : Counters) : Event → Counters
  | .status code => { m with base := m.base.recordStatus code }
  | .aborted => { m with base := m.base.recordAborted }
  | .rejected => { m with base := m.base.recordRejected }
  | .acceptError => m.recordAcceptError
  | .bytesOut n => m.addBytesOut n
  | .agentConnected => m.markAgentConnected
  | .agentDisconnected => m.agentDisconnected
  | .counted t kind => m.count t kind
  | .ticket call spurious elapsed =>
    match stageStep m.base.tickets call.request spurious elapsed call.stage with
    | some (tickets, _) => { m with base := { m.base with tickets := tickets } }
    | none => m

/-- The counters after some events. -/
def after (events : List Event) : Counters := events.foldl Counters.record .default

def Event.code : Event → Option UInt16
  | .status code => some code
  | _ => none

def Event.kind (t : Table) : Event → Option Kind
  | .counted t' kind => if t' = t then some kind else none
  | _ => none

def Event.bytes : Event → ℕ
  | .bytesOut n => n
  | _ => 0

/-- A request is counted: a ticket is about to be returned, or it is refused. -/
def Event.isRequest : Event → Bool
  | .rejected => true
  | .ticket call _ _ => call.stage = .gauged
  | _ => false

/-- A ticket raises `active`. -/
def Event.raises : Event → Bool
  | .ticket call _ _ => call.stage = .entered
  | _ => false

/-- Its drop lowers it again. -/
def Event.lowers : Event → Bool
  | .ticket call _ _ => call.stage = .leaving
  | _ => false

/-- The duration that the drop of a ticket adds. -/
def Event.duration : Event → ℕ
  | .ticket call _ elapsed => if call.stage = .timing then elapsed.toNat else 0
  | _ => 0

/-- The counters have counted the events. -/
structure Counted (m : Counters) (events : List Event) : Prop where
  statuses : Tally m.base.statusCounts (events.filterMap Event.code)
  tables : ∀ t, Tally (m.tables t) (events.filterMap (Event.kind t))
  aborted : m.base.aborted = UInt64.ofNat (events.count .aborted)
  requests : m.base.tickets.requestCount = UInt64.ofNat (events.countP Event.isRequest)
  active : m.base.tickets.active + UInt64.ofNat (events.countP Event.lowers) =
    UInt64.ofNat (events.countP Event.raises)
  durations : m.base.tickets.totalDurationMs = UInt64.ofNat (events.map Event.duration).sum
  acceptErrors : m.httpAcceptErrors = UInt64.ofNat (events.count .acceptError)
  connections : m.agentConnectionsTotal = UInt64.ofNat (events.count .agentConnected)
  bytes : m.bytesOut = UInt64.ofNat (events.map Event.bytes).sum

section events

variable {m : Counters} {events : List Event}

section tickets

variable {t t' : MetricsInner} {q : Request} {spurious : Bool} {elapsed : UInt64} {st st' : Stage}

theorem active_stageStep (h : stageStep t q spurious elapsed st = some (t', st')) :
    t'.active + UInt64.ofNat (decide (st = .leaving)).toNat =
      t.active + UInt64.ofNat (decide (st = .entered)).toNat := by
  rcases st with _ | current | _ | _ | _ | _ | _ | _ | _ <;> simp only [stageStep] at h
  case start | trying => split_ifs at h <;> cases h <;> simp [active_setCounter]
  all_goals cases h
  all_goals simp [active_setCounter]

theorem totalDurationMs_stageStep (h : stageStep t q spurious elapsed st = some (t', st')) :
    t'.totalDurationMs = t.totalDurationMs + UInt64.ofNat (if st = .timing then elapsed.toNat else 0) := by
  have hset : ∀ n d, (t.setCounter n d).totalDurationMs = t.totalDurationMs := by
    intro n d
    cases d <;> rfl
  rcases st with _ | current | _ | _ | _ | _ | _ | _ | _ <;> simp only [stageStep] at h
  case start | trying => split_ifs at h <;> cases h <;> simp [hset]
  all_goals cases h
  all_goals simp [hset]

theorem stage_of_stageStep_none (h : stageStep t q spurious elapsed st = none) : st = .refused ∨ st = .gone := by
  rcases st with _ | current | _ | _ | _ | _ | _ | _ | _ <;> simp only [stageStep] at h
  case start | trying => split_ifs at h
  case refused => exact Or.inl rfl
  case gone => exact Or.inr rfl
  all_goals cases h

end tickets

theorem record_ticket (m : Counters) (call : Call) (spurious : Bool) (elapsed : UInt64) :
    ∃ tickets, m.record (.ticket call spurious elapsed) = { m with base := { m.base with tickets := tickets } } ∧
      tickets.requestCount = m.base.tickets.requestCount + UInt64.ofNat (decide (call.stage = .gauged)).toNat ∧
      tickets.active + UInt64.ofNat (decide (call.stage = .leaving)).toNat =
        m.base.tickets.active + UInt64.ofNat (decide (call.stage = .entered)).toNat ∧
      tickets.totalDurationMs = m.base.tickets.totalDurationMs +
        UInt64.ofNat (if call.stage = .timing then elapsed.toNat else 0) := by
  cases h : stageStep m.base.tickets call.request spurious elapsed call.stage with
  | none =>
    refine ⟨m.base.tickets, by simp [Counters.record, h], ?_⟩
    rcases stage_of_stageStep_none h with hstage | hstage
    · simp [hstage]
    · simp [hstage]
  | some next =>
    exact ⟨next.1, by simp [Counters.record, h], Http.Observability.requestCount_stageStep h,
      active_stageStep h, totalDurationMs_stageStep h⟩

theorem filterMap_concat_none {κ : Type*} {f : Event → Option κ} {e : Event} (h : f e = none) :
    (events ++ [e]).filterMap f = events.filterMap f := by
  rw [List.filterMap_append, List.filterMap_cons_none h, List.filterMap_nil, List.append_nil]

theorem filterMap_concat_some {κ : Type*} {f : Event → Option κ} {e : Event} {k : κ} (h : f e = some k) :
    (events ++ [e]).filterMap f = events.filterMap f ++ [k] := by
  rw [List.filterMap_append, List.filterMap_cons_some h, List.filterMap_nil]

theorem statuses_record (h : Tally m.base.statusCounts (events.filterMap Event.code)) (e : Event) :
    Tally (m.record e).base.statusCounts ((events ++ [e]).filterMap Event.code) := by
  cases e with
  | status code =>
    rw [filterMap_concat_some (k := code) rfl]
    exact tally_concat h code
  | ticket call spurious elapsed =>
    obtain ⟨tickets, hm, -⟩ := record_ticket m call spurious elapsed
    rw [hm, filterMap_concat_none rfl]
    exact h
  | _ =>
    rw [filterMap_concat_none rfl]
    exact h

theorem tables_record (h : ∀ t, Tally (m.tables t) (events.filterMap (Event.kind t))) (e : Event) (t : Table) :
    Tally ((m.record e).tables t) ((events ++ [e]).filterMap (Event.kind t)) := by
  cases e with
  | counted t' kind =>
    have htables : ((m.record (.counted t' kind)).tables t) = if t = t' then
        (m.tables t').insert kind (((m.tables t').lookup kind).getD 0 + 1) else m.tables t :=
      Function.update_apply _ _ _ _
    rw [htables]
    by_cases ht : t = t'
    · subst ht
      rw [if_pos rfl, filterMap_concat_some (k := kind) (if_pos rfl)]
      exact tally_concat (h t) kind
    · rw [if_neg ht, filterMap_concat_none (if_neg fun he => ht he.symm)]
      exact h t
  | ticket call spurious elapsed =>
    obtain ⟨tickets, hm, -⟩ := record_ticket m call spurious elapsed
    rw [hm, filterMap_concat_none rfl]
    exact h t
  | _ =>
    rw [filterMap_concat_none rfl]
    exact h t

theorem counter_record {n n' : UInt64} {q : Event → Bool} {e : Event} (h : n = UInt64.ofNat (events.countP q))
    (hn : n' = if q e then n + 1 else n) : n' = UInt64.ofNat ((events ++ [e]).countP q) := by
  rw [List.countP_append, List.countP_singleton, hn, h]
  cases q e <;> simp

theorem sum_record {n n' : UInt64} {f : Event → ℕ} {e : Event} (h : n = UInt64.ofNat (events.map f).sum)
    (hn : n' = n + UInt64.ofNat (f e)) : n' = UInt64.ofNat ((events ++ [e]).map f).sum := by
  rw [List.map_append, List.sum_append, UInt64.ofNat_add, hn, h]
  simp

theorem gauge_record {n n' : UInt64} {up down : Event → Bool} {e : Event}
    (h : n + UInt64.ofNat (events.countP down) = UInt64.ofNat (events.countP up))
    (hn : n' + UInt64.ofNat (down e).toNat = n + UInt64.ofNat (up e).toNat) :
    n' + UInt64.ofNat ((events ++ [e]).countP down) = UInt64.ofNat ((events ++ [e]).countP up) := by
  have hone : ∀ q : Event → Bool, (events ++ [e]).countP q = events.countP q + (q e).toNat := by
    intro q
    rw [List.countP_append, List.countP_singleton]
    cases q e <;> rfl
  rw [hone, hone, UInt64.ofNat_add, UInt64.ofNat_add, ← h, add_comm (UInt64.ofNat (events.countP down)),
    ← add_assoc, hn, add_right_comm]

theorem counted_record (h : Counted m events) (e : Event) : Counted (m.record e) (events ++ [e]) := by
  have hstatuses := statuses_record h.statuses e
  have htables := tables_record h.tables e
  cases e with
  | ticket call spurious elapsed =>
    obtain ⟨tickets, hm, hcount, hactive, hduration⟩ := record_ticket m call spurious elapsed
    rw [hm] at hstatuses htables ⊢
    refine ⟨hstatuses, htables, counter_record h.aborted rfl, counter_record h.requests ?_,
      gauge_record h.active hactive, sum_record h.durations hduration, counter_record h.acceptErrors rfl,
      counter_record h.connections rfl, sum_record h.bytes (by simp [Event.bytes])⟩
    rw [hcount]
    by_cases hs : call.stage = .gauged <;> simp [Event.isRequest, hs]
  | bytesOut n =>
    exact ⟨hstatuses, htables, counter_record h.aborted rfl, counter_record h.requests rfl,
      gauge_record h.active rfl, sum_record h.durations (add_zero _).symm, counter_record h.acceptErrors rfl,
      counter_record h.connections rfl, sum_record h.bytes rfl⟩
  | _ =>
    exact ⟨hstatuses, htables, counter_record h.aborted rfl, counter_record h.requests rfl,
      gauge_record h.active rfl, sum_record h.durations (add_zero _).symm, counter_record h.acceptErrors rfl,
      counter_record h.connections rfl, sum_record h.bytes (add_zero _).symm⟩

theorem counted_after (events : List Event) : Counted (after events) events := by
  induction events using List.reverseRecOn with
  | nil => exact ⟨fun k => rfl, fun t k => rfl, rfl, rfl, rfl, rfl, rfl, rfl, rfl⟩
  | append_singleton events e ih =>
    have hstep : after (events ++ [e]) = (after events).record e := by simp [after]
    rw [hstep]
    exact counted_record ih e

theorem samplesOf_scalar {r : Readings} {name help kind : String} {value : UInt64} {n : ℕ} (i : ℕ)
    (hi : (families m r)[i]? = some (scalar name help kind value)) (hn : value = UInt64.ofNat n) :
    samplesOf (render m r) name = [(none, n % 2 ^ 64)] := by
  have hpage := samplesOf_render (List.mem_of_getElem? hi)
  rw [scalar, hn, UInt64.toNat_ofNat'] at hpage
  exact hpage

theorem mem_families_family (m : Counters) (r : Readings) (t : Table) : m.family t ∈ families m r := by
  cases t <;> simp [families]

/-- **The page shows the events.** After any events, in any order, the page has for each labelled counter and
for the statuses one sample for each kind that occurred, in order of the kinds, with the number of its events;
and the numbers of the other events, those of tickets too. All are modulo `2 ^ 64`. -/
theorem scrape_shows_events (events : List Event) (r : Readings) :
    (∀ t : Table, samplesOf (render (after events) r) t.name =
      (sortOn Kind.text (events.filterMap (Event.kind t)).dedup).map fun kind =>
        (some (t.label, kind.text), (events.filterMap (Event.kind t)).count kind % 2 ^ 64)) ∧
    samplesOf (render (after events) r) "hlmg_requests_total" =
      ((sortOn UInt16.toNat (events.filterMap Event.code).dedup).map fun code =>
        (some ("status", codeText code), (events.filterMap Event.code).count code % 2 ^ 64)) ∧
    samplesOf (render (after events) r) "hlmg_requests_aborted_total" =
      [(none, events.count .aborted % 2 ^ 64)] ∧
    samplesOf (render (after events) r) "hlmg_request_count" =
      [(none, events.countP Event.isRequest % 2 ^ 64)] ∧
    (∃ active, samplesOf (render (after events) r) "hlmg_active_requests" = [(none, active)] ∧
      active < 2 ^ 64 ∧ (active + events.countP Event.lowers) % 2 ^ 64 = events.countP Event.raises % 2 ^ 64) ∧
    samplesOf (render (after events) r) "hlmg_request_duration_ms" =
      [(none, (events.map Event.duration).sum % 2 ^ 64)] ∧
    samplesOf (render (after events) r) "hlmg_http_accept_errors_total" =
      [(none, events.count .acceptError % 2 ^ 64)] ∧
    samplesOf (render (after events) r) "hlmg_agent_connections_total" =
      [(none, events.count .agentConnected % 2 ^ 64)] ∧
    samplesOf (render (after events) r) "hlmg_bytes_out" =
      [(none, (events.map Event.bytes).sum % 2 ^ 64)] := by
  have h := counted_after events
  refine ⟨fun t => ?_, ?_, ?_, ?_, ⟨_, samplesOf_scalar 1 rfl UInt64.ofNat_toNat.symm, ?_, ?_⟩, ?_, ?_, ?_, ?_⟩
  · have hpage := samplesOf_render (mem_families_family (after events) r t)
    exact hpage.trans (samples_of_tally Kind.text_injective (h.tables t) _)
  · have hmem : statusFamily (after events).base.statusCounts ∈ families (after events) r := by simp [families]
    have hinj : Function.Injective UInt16.toNat := fun a b => UInt16.toNat_inj.mp
    exact (samplesOf_render hmem).trans (samples_of_tally hinj h.statuses _)
  · exact samplesOf_scalar 14 rfl h.aborted
  · exact samplesOf_scalar 13 rfl h.requests
  · exact Nat.mod_lt _ (by decide)
  · have hactive := congrArg UInt64.toNat h.active
    rw [UInt64.toNat_add, UInt64.toNat_ofNat', UInt64.toNat_ofNat'] at hactive
    omega
  · exact samplesOf_scalar 12 rfl h.durations
  · exact samplesOf_scalar 19 rfl h.acceptErrors
  · exact samplesOf_scalar 20 rfl h.connections
  · exact samplesOf_scalar 11 rfl h.bytes

/-- A guard is dropped once, after it was made: then the gauge shows how many there are. -/
theorem quicConnections_after (h : ∀ before, before <+: events →
      before.count .agentDisconnected ≤ before.count .agentConnected ∧
        before.count .agentConnected < before.count .agentDisconnected + 2 ^ 64) :
    (after events).quicConnections.toNat + events.count .agentDisconnected = events.count .agentConnected := by
  induction events using List.reverseRecOn with
  | nil => rfl
  | append_singleton events e ih =>
    have hbefore := ih fun before hp => h before (hp.trans (List.prefix_append _ _))
    obtain ⟨hle, hlt⟩ := h _ (List.prefix_refl _)
    have hstep : after (events ++ [e]) = (after events).record e := by simp [after]
    rw [hstep]
    cases e with
    | agentConnected =>
      simp only [List.count_append, List.count_singleton_self, List.count_singleton, reduceCtorEq, if_false,
        beq_iff_eq, add_zero] at hle hlt ⊢
      have hadd : ((after events).quicConnections + 1).toNat = (after events).quicConnections.toNat + 1 := by
        rw [UInt64.toNat_add]
        exact Nat.mod_eq_of_lt (by rw [UInt64.toNat_one]; omega)
      show ((after events).quicConnections + 1).toNat + _ = _
      omega
    | agentDisconnected =>
      simp only [List.count_append, List.count_singleton_self, List.count_singleton, reduceCtorEq, if_false,
        beq_iff_eq, add_zero] at hle hlt ⊢
      have hpos : (after events).quicConnections.toNat ≠ 0 := by omega
      have hne : (after events).quicConnections ≠ 0 := fun h0 => hpos (by rw [h0]; rfl)
      have hone : 1 ≤ (after events).quicConnections := by
        rw [UInt64.le_iff_toNat_le, UInt64.toNat_one]
        omega
      show (if (after events).quicConnections = 0 then 0 else (after events).quicConnections - 1).toNat + _ = _
      rw [if_neg hne, UInt64.toNat_sub_of_le _ _ hone, UInt64.toNat_one]
      omega
    | ticket call spurious elapsed =>
      obtain ⟨tickets, hm, -⟩ := record_ticket (after events) call spurious elapsed
      simp only [hm, List.count_append, List.count_singleton, reduceCtorEq, if_false, beq_iff_eq, add_zero]
      exact hbefore
    | _ =>
      simp only [List.count_append, List.count_singleton, reduceCtorEq, if_false, beq_iff_eq, add_zero]
      exact hbefore

end events

/-! ### What is not settled yet -/

section unsettled

open HomeLlmGateway.Lib.Runs

theorem ofNat_sum_toNat (l : List UInt64) : UInt64.ofNat (l.map UInt64.toNat).sum = l.sum := by
  induction l with
  | nil => rfl
  | cons n l ih => rw [List.map_cons, List.sum_cons, List.sum_cons, UInt64.ofNat_add, ih, UInt64.ofNat_toNat]

/-- The sum over the status lines, as far as it fits into a counter. -/
theorem sum_statusFamily (counts : HashMap UInt16 UInt64) :
    UInt64.ofNat ((statusFamily counts).samples.map Prod.snd).sum = sumVal id counts := by
  have hvalues : counts.keys.map (fun code => ((counts.lookup code).getD 0).toNat) =
      (values counts).map UInt64.toNat := by
    unfold values AList.keys List.keys
    rw [List.map_map, List.map_map]
    refine List.map_congr_left fun e he => ?_
    have hlookup : counts.lookup e.1 = some e.2 := (mem_entries_iff counts e.1 e.2).mp he
    simp [hlookup]
  have hsamples : (statusFamily counts).samples.map Prod.snd =
      (sortOn UInt16.toNat counts.keys).map fun code => ((counts.lookup code).getD 0).toNat := List.map_map
  rw [hsamples, ((sortOn_perm UInt16.toNat counts.keys).map _).sum_eq, hvalues, ofNat_sum_toNat, sumVal,
    List.map_id]

/-- **The difference of the page.** On a page that is written of one state of a run of the middleware, the request
count less the sum of the status lines and less the aborted requests is the number of requests that are counted
and not settled. (`render` reads the counters one after the other; what is counted meanwhile may be on the page
in part.) -/
theorem scrape_shows_unsettled {max : UInt32} {ls : List Http.Observability.Label} {s : Http.Observability.State}
    (h : run (Http.Observability.step max) Http.Observability.init ls = some s) (m : Counters) (r : Readings) :
    ∃ count aborted,
      samplesOf (render { m with base := s.metrics } r) "hlmg_request_count" = [(none, count)] ∧
      samplesOf (render { m with base := s.metrics } r) "hlmg_requests_aborted_total" = [(none, aborted)] ∧
      ((count : ℤ) - ((samplesOf (render { m with base := s.metrics } r) "hlmg_requests_total").map Prod.snd).sum -
        aborted) % 2 ^ 64 = countVal Http.Observability.Req.unsettled s.requests := by
  have ha := Http.Observability.accounted_run h
  have hsum := ha.countVal_counted
  have hlt := ha.countVal_unsettled_lt
  have hmem : statusFamily s.metrics.statusCounts ∈ families { m with base := s.metrics } r := by simp [families]
  have hstatus := (sum_statusFamily s.metrics.statusCounts).trans ha.statuses
  refine ⟨_, _, samplesOf_scalar 13 rfl ha.count, samplesOf_scalar 14 rfl ha.aborts, ?_⟩
  have hlines := samplesOf_render hmem
  rw [show (statusFamily s.metrics.statusCounts).name = "hlmg_requests_total" from rfl] at hlines
  rw [hlines]
  have hmod := congrArg UInt64.toNat hstatus
  rw [UInt64.toNat_ofNat', UInt64.toNat_ofNat'] at hmod
  generalize ((statusFamily s.metrics.statusCounts).samples.map Prod.snd).sum = total at hmod ⊢
  push_cast
  omega

/-- One request is answered, the next is being handled. -/
theorem scrape_shows_unsettled_one : ∃ ls s count aborted,
    run (Http.Observability.step 1) Http.Observability.init ls = some s ∧
    samplesOf (render { Counters.default with base := s.metrics } ⟨0, 0, 0, 0⟩) "hlmg_request_count" =
      [(none, count)] ∧
    samplesOf (render { Counters.default with base := s.metrics } ⟨0, 0, 0, 0⟩) "hlmg_requests_aborted_total" =
      [(none, aborted)] ∧
    ((count : ℤ) - ((samplesOf (render { Counters.default with base := s.metrics } ⟨0, 0, 0, 0⟩)
      "hlmg_requests_total").map Prod.snd).sum - aborted) % 2 ^ 64 = 1 := by
  let go : ℕ → Http.Observability.Label := fun i => .event i (.go false 0)
  let ls : List Http.Observability.Label :=
    [.arrive 0 "/v1/models", .event 0 .poll, go 0, go 0, go 0, go 0, .event 0 (.respond 200), go 0,
      .event 0 .drop, go 0, go 0, go 0, go 0, .arrive 1 "/v1/models", .event 1 .poll, go 1, go 1, go 1, go 1]
  obtain ⟨s, hs, hp⟩ := exists_run (Http.Observability.step 1) Http.Observability.init ls
    (fun s => countVal Http.Observability.Req.unsettled s.requests = 1) (by decide +kernel)
  obtain ⟨count, aborted, h1, h2, h3⟩ := scrape_shows_unsettled hs .default ⟨0, 0, 0, 0⟩
  refine ⟨ls, s, count, aborted, hs, h1, h2, ?_⟩
  rw [h3, hp]
  rfl

end unsettled

end HomeLlmGateway.Metrics.Render
