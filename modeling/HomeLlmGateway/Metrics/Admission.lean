import HomeLlmGateway.Lib.Runs
import HomeLlmGateway.Lib.Assoc

/-! # Admission

The gate of `gateway/src/metrics/admission.rs`, and what `gateway/src/http/admission.rs` asks of it. A call of
`enter` takes a slot of its domain and then, if the ticket counts as a request, one of the gauge `active`;
the destructor of the ticket gives both back. Every load, exchange, addition and subtraction is a step of its
own, so the domain's counter and the gauge never move together.

Every call and every ticket has a clone of one `Arc`, and `Arc::clone` aborts the process above `isize::MAX`
clones: a call begins only below. -/

namespace HomeLlmGateway.Metrics.Admission

open HomeLlmGateway.Lib.Assoc

/-! ### Domains and routes -/

/-- `AdmissionDomain`. -/
inductive AdmissionDomain where
  | gated
  | probe
  | scrape
  deriving DecidableEq

/-- `RouteClass`. -/
inductive RouteClass where
  | gated
  | probe
  | scrape
  deriving DecidableEq

/-- `RouteClass::of`: exact paths only. -/
def RouteClass.of (path : String) : RouteClass :=
  if path = "/healthz" then .probe else if path = "/metrics" then .scrape else .gated

def RouteClass.domain : RouteClass → AdmissionDomain
  | .gated => .gated
  | .probe => .probe
  | .scrape => .scrape

/-- `MAX_CONCURRENT_PROBES`. -/
def maxConcurrentProbes : UInt32 := 64

/-- `MAX_CONCURRENT_SCRAPES`. -/
def maxConcurrentScrapes : UInt32 := 64

def RouteClass.limit (gatedLimit : UInt32) : RouteClass → UInt32
  | .gated => gatedLimit
  | .probe => maxConcurrentProbes
  | .scrape => maxConcurrentScrapes

def RouteClass.counted (c : RouteClass) : Bool := c ≠ .scrape

/-! ### The counters -/

/-- `MetricsInner`, as far as tickets change it. -/
structure MetricsInner where
  activeGated : UInt64
  activeProbe : UInt64
  activeScrape : UInt64
  active : UInt64
  requestCount : UInt64
  totalDurationMs : UInt64
  deriving DecidableEq

/-- The counter of a domain. -/
def MetricsInner.counter (m : MetricsInner) : AdmissionDomain → UInt64
  | .gated => m.activeGated
  | .probe => m.activeProbe
  | .scrape => m.activeScrape

def MetricsInner.setCounter (m : MetricsInner) (n : UInt64) : AdmissionDomain → MetricsInner
  | .gated => { m with activeGated := n }
  | .probe => { m with activeProbe := n }
  | .scrape => { m with activeScrape := n }

theorem counter_setCounter (m : MetricsInner) (n : UInt64) (d d' : AdmissionDomain) :
    (m.setCounter n d).counter d' = if d' = d then n else m.counter d' := by
  cases d <;> cases d' <;> rfl

theorem active_setCounter (m : MetricsInner) (n : UInt64) (d : AdmissionDomain) :
    (m.setCounter n d).active = m.active := by
  cases d <;> rfl

/-! ### A call and its ticket -/

/-- The arguments of `enter`. -/
structure Request where
  limit : UInt32
  domain : AdmissionDomain
  counted : Bool
  deriving DecidableEq

/-- What `admission_middleware` asks for. -/
def gateRequest (maxConcurrentRequests : UInt32) (path : String) : Request where
  limit := (RouteClass.of path).limit maxConcurrentRequests
  domain := (RouteClass.of path).domain
  counted := (RouteClass.of path).counted

/-- Where a call of `enter`, or the ticket it has returned, stands. -/
inductive Stage where
  | start
  /-- in the loop, with the value observed last; it is below the limit -/
  | trying (current : UInt64)
  /-- `None` is returned -/
  | refused
  /-- the slot is taken, `active` not yet raised -/
  | entered
  /-- `active` is raised, `request_count` not yet -/
  | gauged
  /-- the ticket is returned -/
  | live
  /-- its drop has given the slot back, `active` is not yet lowered -/
  | leaving
  /-- `total_duration_ms` is not yet raised -/
  | timing
  | gone
  deriving DecidableEq

structure Call where
  request : Request
  stage : Stage
  deriving DecidableEq

/-- The test at the top of the loop. -/
def observe (r : Request) (current : UInt64) : Stage :=
  if r.limit.toUInt64 ≤ current then .refused else .trying current

/-- After the slot of the domain is taken. -/
def afterSlot (r : Request) : Stage := if r.counted then .entered else .live

/-- One step of `enter` or of `Admission::drop`. `spurious` says that `compare_exchange_weak` fails for no
reason, `elapsed` is what the clock says. -/
def stageStep (m : MetricsInner) (r : Request) (spurious : Bool) (elapsed : UInt64) :
    Stage → Option (MetricsInner × Stage)
  | .start =>
    if 0 < r.limit then some (m, observe r (m.counter r.domain))
    else some (m.setCounter (m.counter r.domain + 1) r.domain, afterSlot r)
  | .trying current =>
    if m.counter r.domain = current ∧ spurious = false then
      some (m.setCounter (current + 1) r.domain, afterSlot r)
    else some (m, observe r (m.counter r.domain))
  | .entered => some ({ m with active := m.active + 1 }, .gauged)
  | .gauged => some ({ m with requestCount := m.requestCount + 1 }, .live)
  | .live => some (m.setCounter (m.counter r.domain - 1) r.domain, if r.counted then .leaving else .gone)
  | .leaving => some ({ m with active := m.active - 1 }, .timing)
  | .timing => some ({ m with totalDurationMs := m.totalDurationMs + elapsed }, .gone)
  | .refused => none
  | .gone => none

/-! ### The system -/

structure State where
  metrics : MetricsInner
  calls : HashMap ℕ Call

def init : State := ⟨⟨0, 0, 0, 0, 0, 0⟩, ∅⟩

/-- The call has not returned, or its ticket is not yet dropped: it has a clone of the `Arc`. -/
def Call.underWay (c : Call) : Bool := c.stage ≠ .refused && c.stage ≠ .gone

inductive Label where
  /-- a call of `enter` begins -/
  | enter (i : ℕ) (request : Request)
  /-- the call, or the drop of its ticket, goes on -/
  | step (i : ℕ) (spurious : Bool) (elapsed : UInt64)
  deriving DecidableEq

def step (s : State) : Label → Option State
  | .enter i request =>
    match s.calls.lookup i with
    | none =>
      -- `Arc::clone` aborts when the count is above `isize::MAX`
      if countVal Call.underWay s.calls < 2 ^ 63 then
        some { s with calls := s.calls.insert i ⟨request, .start⟩ }
      else none
    | some _ => none
  | .step i spurious elapsed =>
    (s.calls.lookup i).bind fun c =>
      (stageStep s.metrics c.request spurious elapsed c.stage).map fun p =>
        ⟨p.1, s.calls.insert i { c with stage := p.2 }⟩

theorem step_cases {s s' : State} {l : Label} (h : step s l = some s') :
    (∃ i r, l = .enter i r ∧ s.calls.lookup i = none ∧ countVal Call.underWay s.calls < 2 ^ 63 ∧
      s' = { s with calls := s.calls.insert i ⟨r, .start⟩ }) ∨
    ∃ i spurious elapsed c m' st', l = .step i spurious elapsed ∧ s.calls.lookup i = some c ∧
      stageStep s.metrics c.request spurious elapsed c.stage = some (m', st') ∧
      s' = ⟨m', s.calls.insert i { c with stage := st' }⟩ := by
  rcases l with ⟨i, r⟩ | ⟨i, spurious, elapsed⟩
  · simp only [step] at h
    split at h
    · next hi =>
      split_ifs at h with hb
      exact Or.inl ⟨i, r, rfl, hi, hb, (Option.some.inj h).symm⟩
    · cases h
  · simp only [step, Option.bind_eq_some_iff, Option.map_eq_some_iff] at h
    obtain ⟨c, hc, ⟨m', st'⟩, hst, rfl⟩ := h
    exact Or.inr ⟨i, spurious, elapsed, c, m', st', rfl, hc, hst, rfl⟩

variable {d : AdmissionDomain}

/-! ### What is held -/

/-- The slot of the domain is taken and not given back. -/
def Stage.hasSlot : Stage → Bool
  | .entered | .gauged | .live => true
  | _ => false

/-- `active` is raised and not lowered again. -/
def Stage.inGauge : Stage → Bool
  | .gauged | .live | .leaving => true
  | _ => false

/-- The call or ticket has a slot of the domain `d`. -/
def Call.holds (d : AdmissionDomain) (c : Call) : Bool := c.stage.hasSlot && c.request.domain = d

/-- The ticket is in the gauge `active`. -/
def Call.gauged (c : Call) : Bool := c.stage.inGauge && c.request.counted

/-- The ticket is returned and its drop has not begun. -/
def Call.isLive (c : Call) : Bool := c.stage = .live

/-- The call does not stand between two of its writes. -/
def Call.settled (c : Call) : Bool := c.stage ≠ .entered && c.stage ≠ .gauged && c.stage ≠ .leaving

theorem Call.underWay_of_holds {c : Call} (h : c.holds d = true) : c.underWay = true := by
  rcases c with ⟨r, st⟩
  rcases st <;> first | rfl | cases h

theorem Call.underWay_of_gauged {c : Call} (h : c.gauged = true) : c.underWay = true := by
  rcases c with ⟨r, st⟩
  rcases st <;> first | rfl | cases h

/-- A stage in which a call of this request can be: only counted tickets pass through the gauge. -/
def Stage.fits (r : Request) : Stage → Prop
  | .entered | .gauged | .leaving | .timing => r.counted = true
  | .trying current => 0 < r.limit ∧ current < r.limit.toUInt64
  | .refused => 0 < r.limit
  | _ => True

theorem fits_observe {r : Request} (hl : 0 < r.limit) (n : UInt64) : (observe r n).fits r := by
  unfold observe
  split_ifs with h
  · exact hl
  · exact ⟨hl, UInt64.not_le.mp h⟩

theorem fits_afterSlot (r : Request) : (afterSlot r).fits r := by
  unfold afterSlot
  split_ifs with h
  · exact h
  · trivial

theorem hasSlot_observe (r : Request) (n : UInt64) : (observe r n).hasSlot = false := by
  unfold observe
  split_ifs <;> rfl

theorem inGauge_observe (r : Request) (n : UInt64) : (observe r n).inGauge = false := by
  unfold observe
  split_ifs <;> rfl

theorem hasSlot_afterSlot (r : Request) : (afterSlot r).hasSlot = true := by
  unfold afterSlot
  split_ifs <;> rfl

theorem gauged_afterSlot (r : Request) : (⟨r, afterSlot r⟩ : Call).gauged = false := by
  unfold afterSlot Call.gauged
  split_ifs with h
  · rfl
  · simp [h]

/-- What a step of a call on its request does to the counters: what it adds there, it holds from now on. -/
structure Moves (m m' : MetricsInner) (r : Request) (st st' : Stage) : Prop where
  fits : st'.fits r
  slot : m'.counter r.domain + UInt64.ofNat st.hasSlot.toNat =
    m.counter r.domain + UInt64.ofNat st'.hasSlot.toNat
  other : ∀ d, d ≠ r.domain → m'.counter d = m.counter d
  gauge : m'.active + UInt64.ofNat (⟨r, st⟩ : Call).gauged.toNat =
    m.active + UInt64.ofNat (⟨r, st'⟩ : Call).gauged.toNat

theorem moves_observe {m : MetricsInner} {r : Request} {st : Stage} (hl : 0 < r.limit) (n : UInt64)
    (hs : st.hasSlot = false) (hg : st.inGauge = false) : Moves m m r st (observe r n) where
  fits := fits_observe hl n
  slot := by rw [hs, hasSlot_observe]
  other _ _ := rfl
  gauge := by simp [Call.gauged, hg, inGauge_observe]

theorem moves_take {m : MetricsInner} {r : Request} {st : Stage} (hs : st.hasSlot = false)
    (hg : st.inGauge = false) :
    Moves m (m.setCounter (m.counter r.domain + 1) r.domain) r st (afterSlot r) where
  fits := fits_afterSlot r
  slot := by
    rw [counter_setCounter, if_pos rfl, hs, hasSlot_afterSlot]
    simp
  other d hd := by rw [counter_setCounter, if_neg hd]
  gauge := by
    rw [active_setCounter, gauged_afterSlot]
    simp [Call.gauged, hg]

theorem moves_leave (m : MetricsInner) (r : Request) :
    Moves m (m.setCounter (m.counter r.domain - 1) r.domain) r .live
      (if r.counted then .leaving else .gone) where
  fits := by
    split_ifs with hc
    · exact hc
    · trivial
  slot := by
    rw [counter_setCounter, if_pos rfl]
    split_ifs <;> simp [Stage.hasSlot]
  other d hd := by rw [counter_setCounter, if_neg hd]
  gauge := by
    rw [active_setCounter]
    split_ifs with hc
    · rfl
    · simp [Call.gauged, Stage.inGauge, hc]

/-- **One step of a call**, or of the drop of its ticket. -/
theorem moves_of_stageStep {m m' : MetricsInner} {r : Request} {spurious : Bool} {elapsed : UInt64}
    {st st' : Stage} (hf : st.fits r) (h : stageStep m r spurious elapsed st = some (m', st')) :
    Moves m m' r st st' := by
  rcases st with _ | current | _ | _ | _ | _ | _ | _ | _ <;> simp only [stageStep] at h
  · split_ifs at h with hl <;> cases h
    · exact moves_observe hl _ rfl rfl
    · exact moves_take rfl rfl
  · split_ifs at h with hc <;> cases h
    · obtain ⟨rfl, -⟩ := hc
      exact moves_take rfl rfl
    · exact moves_observe hf.1 _ rfl rfl
  · cases h
  · cases h
    have hc : r.counted = true := hf
    refine ⟨hc, rfl, fun _ _ => rfl, ?_⟩
    simp [Call.gauged, Stage.inGauge, hc]
  · cases h
    exact ⟨trivial, rfl, fun _ _ => rfl, rfl⟩
  · cases h
    exact moves_leave m r
  · cases h
    have hc : r.counted = true := hf
    refine ⟨hc, rfl, fun _ _ => rfl, ?_⟩
    simp [Call.gauged, Stage.inGauge, hc]
  · cases h
    exact ⟨trivial, rfl, fun _ _ => rfl, rfl⟩
  · cases h

end HomeLlmGateway.Metrics.Admission
