import Mathlib.Data.UInt
import HomeLlmGateway.Metrics.Admission

/-! # Requests in the middleware

`request_id_middleware` (`gateway/src/http/observability.rs`) around `admission_middleware`
(`gateway/src/http/admission.rs`), the outer two layers of `http::app`. The gate counts a request when it
lets it in or turns it away, the outer layer records the status of its response, and the `AbortGuard` of the
outer layer records it as aborted if the future goes away before.

A step is one atomic operation, one section under a mutex, or something the environment does: hyper polls a
future or drops it, a handler answers or panics, a body ends. The gate runs in the first poll: between the
making of the guard and the call of `next.run` inside the gate nothing waits, so a future is dropped either
before its first poll or while the inner service runs.

Every counted request is settled once (`request_conservation`). -/

namespace HomeLlmGateway.Http.Observability

open HomeLlmGateway.Lib.Runs HomeLlmGateway.Lib.Assoc
open HomeLlmGateway.Metrics.Admission

/-! ### The metrics -/

/-- `MetricsInner`, as far as the two layers change it: the counters of the tickets, `status_counts` and
`aborted`. -/
structure Metrics where
  tickets : MetricsInner
  statusCounts : HashMap UInt16 UInt64
  aborted : UInt64

/-- `record_rejected`. -/
def Metrics.recordRejected (m : Metrics) : Metrics :=
  { m with tickets := { m.tickets with requestCount := m.tickets.requestCount + 1 } }

/-- `record_status`. -/
def Metrics.recordStatus (m : Metrics) (status : UInt16) : Metrics :=
  { m with statusCounts :=
      m.statusCounts.insert status ((m.statusCounts.lookup status).getD 0 + 1) }

/-- `record_aborted`. -/
def Metrics.recordAborted (m : Metrics) : Metrics := { m with aborted := m.aborted + 1 }

/-- The sum over the statuses, as `identity_terms` takes it. -/
def Metrics.statusTotal (m : Metrics) : UInt64 := sumVal id m.statusCounts

theorem statusTotal_recordStatus (m : Metrics) (status : UInt16) :
    (m.recordStatus status).statusTotal = m.statusTotal + 1 := by
  unfold Metrics.statusTotal Metrics.recordStatus
  cases h : m.statusCounts.lookup status with
  | none =>
    simp only [Option.getD_none]
    rw [sumVal_insert_of_none id _ h, add_comm]
    rfl
  | some n => exact sumVal_replace id h rfl

/-! ### A request -/

/-- `RouteClass::logs_access`. -/
def logsAccess (c : RouteClass) : Bool := c ≠ .scrape

/-- Where a request stands. -/
inductive Phase where
  /-- its future is not polled yet -/
  | arrived
  /-- the guard is made, the gate asks for a ticket -/
  | entering
  /-- it has none, and accounts for the rejection -/
  | rejecting
  /-- the inner service runs -/
  | handling
  /-- the future goes away, the ticket first and then the guard -/
  | dropping
  /-- the gate has returned a response -/
  | answered (status : UInt16)
  /-- the outer layer has returned it, the body has the ticket -/
  | streaming
  /-- the body goes away, and the ticket with it -/
  | closing
  | done
  deriving DecidableEq

/-- What a request was settled with. -/
inductive Outcome where
  | status (code : UInt16)
  | aborted
  deriving DecidableEq

structure Req where
  path : String
  phase : Phase
  /-- the call of `enter`, later its ticket -/
  ticket : Stage
  /-- `request_count` was raised for it -/
  counted : Bool
  /-- what was recorded for it in the end -/
  outcome : Option Outcome
  deriving DecidableEq

def Req.new (path : String) : Req := ⟨path, .arrived, .start, false, none⟩

def Req.class (r : Req) : RouteClass := RouteClass.of r.path

inductive Event where
  /-- the future is polled for the first time -/
  | poll
  /-- the code goes on -/
  | go (spurious : Bool) (elapsed : UInt64)
  /-- the inner service answers -/
  | respond (status : UInt16)
  /-- the inner service, or the body, panics -/
  | panic
  /-- hyper drops the future, or the body: the client is gone, or the body has ended -/
  | drop
  deriving DecidableEq

/-- Where the gate stands after a step of `enter`. -/
def afterEnter : Stage → Phase
  | .live => .handling
  | .refused => .rejecting
  | _ => .entering

/-- One step of a request. `max` is `max_concurrent_requests`. -/
def reqStep (max : UInt32) (m : Metrics) (r : Req) (e : Event) : Option (Metrics × Req) :=
  match r.phase, e with
  | .arrived, .poll => some (m, { r with phase := .entering })
  | .arrived, .drop => some (m, { r with phase := .done })
  | .entering, .go spurious elapsed =>
    (stageStep m.tickets (gateRequest max r.path) spurious elapsed r.ticket).map fun p =>
      ({ m with tickets := p.1 },
        { r with phase := afterEnter p.2, ticket := p.2, counted := decide (r.ticket = .gauged) })
  | .rejecting, .go _ _ =>
    match r.class.domain with
    | .gated | .probe => some (m.recordRejected, { r with phase := .answered 429, counted := true })
    | .scrape => some (m, { r with phase := .answered 429 })
  | .handling, .respond status => some (m, { r with phase := .answered status })
  | .handling, .panic | .handling, .drop => some (m, { r with phase := .dropping })
  | .dropping, .go spurious elapsed =>
    match stageStep m.tickets (gateRequest max r.path) spurious elapsed r.ticket with
    | some p => some ({ m with tickets := p.1 }, { r with ticket := p.2 })
    | none =>
      -- only the requests that log have a guard
      if logsAccess r.class then
        some (m.recordAborted, { r with phase := .done, outcome := some .aborted })
      else some (m, { r with phase := .done })
  | .answered status, .go _ _ =>
    if logsAccess r.class then
      some (m.recordStatus status, { r with phase := .streaming, outcome := some (.status status) })
    else some (m, { r with phase := .streaming })
  | .streaming, .panic | .streaming, .drop => some (m, { r with phase := .closing })
  | .closing, .go spurious elapsed =>
    match stageStep m.tickets (gateRequest max r.path) spurious elapsed r.ticket with
    | some p => some ({ m with tickets := p.1 }, { r with ticket := p.2 })
    | none => some (m, { r with phase := .done })
  | _, _ => none

/-! ### The system -/

structure State where
  metrics : Metrics
  requests : HashMap ℕ Req

def init : State := ⟨⟨⟨0, 0, 0, 0, 0, 0⟩, ∅, 0⟩, ∅⟩

/-- The request has a clone of the metrics. -/
def Req.underWay (r : Req) : Bool := r.phase ≠ .done

inductive Label where
  | arrive (i : ℕ) (path : String)
  | event (i : ℕ) (e : Event)
  deriving DecidableEq

def step (max : UInt32) (s : State) : Label → Option State
  | .arrive i path =>
    match s.requests.lookup i with
    | none =>
      -- `Arc::clone` aborts when the count is above `isize::MAX`
      if countVal Req.underWay s.requests < 2 ^ 63 then
        some { s with requests := s.requests.insert i (.new path) }
      else none
    | some _ => none
  | .event i e =>
    (s.requests.lookup i).bind fun r => (reqStep max s.metrics r e).map fun p =>
      ⟨p.1, s.requests.insert i p.2⟩

theorem step_cases {max : UInt32} {s s' : State} {l : Label} (h : step max s l = some s') :
    (∃ i path, l = .arrive i path ∧ s.requests.lookup i = none ∧
      countVal Req.underWay s.requests < 2 ^ 63 ∧
      s' = { s with requests := s.requests.insert i (.new path) }) ∨
    ∃ i e r m' r', l = .event i e ∧ s.requests.lookup i = some r ∧
      reqStep max s.metrics r e = some (m', r') ∧ s' = ⟨m', s.requests.insert i r'⟩ := by
  rcases l with ⟨i, path⟩ | ⟨i, e⟩
  · simp only [step] at h
    split at h
    · next hi =>
      split_ifs at h with hb
      exact Or.inl ⟨i, path, rfl, hi, hb, (Option.some.inj h).symm⟩
    · cases h
  · simp only [step, Option.bind_eq_some_iff, Option.map_eq_some_iff] at h
    obtain ⟨r, hr, ⟨m', r'⟩, hst, rfl⟩ := h
    exact Or.inr ⟨i, e, r, m', r', rfl, hr, hst, rfl⟩

variable {max : UInt32} {s s' : State} {l : Label} {m m' : Metrics} {r r' : Req} {e : Event}

/-! ### The ticket of a request -/

/-- The stages of `enter` before it returns; only counted tickets come by the gauge. -/
def beforeReturn (counted : Bool) : Stage → Bool
  | .start | .trying _ => true
  | .entered | .gauged => counted
  | _ => false

/-- `enter` has returned. -/
def returned : Stage → Bool
  | .refused | .live | .leaving | .timing | .gone => true
  | _ => false

/-- The last step of a counted `enter` is the one that raises `request_count`. -/
theorem requestCount_stageStep {t t' : MetricsInner} {q : Request} {spurious : Bool} {elapsed : UInt64}
    {st st' : Stage} (h : stageStep t q spurious elapsed st = some (t', st')) :
    t'.requestCount = t.requestCount + UInt64.ofNat (decide (st = .gauged)).toNat := by
  have hset : ∀ n d, (t.setCounter n d).requestCount = t.requestCount := by
    intro n d
    cases d <;> rfl
  rcases st with _ | current | _ | _ | _ | _ | _ | _ | _ <;> simp only [stageStep] at h
  case start | trying => split_ifs at h <;> cases h <;> simp [hset]
  all_goals cases h
  all_goals simp [hset]

theorem enter_stageStep {t t' : MetricsInner} {q : Request} {spurious : Bool} {elapsed : UInt64}
    {st st' : Stage} (hb : beforeReturn q.counted st = true)
    (h : stageStep t q spurious elapsed st = some (t', st')) :
    (beforeReturn q.counted st' = true ∧ st ≠ .gauged) ∨ (st' = .refused ∧ st ≠ .gauged) ∨
      (st' = .live ∧ q.counted = decide (st = .gauged)) := by
  have hobs : ∀ n, beforeReturn q.counted (observe q n) = true ∨ observe q n = .refused := by
    intro n
    unfold observe
    split_ifs
    · exact Or.inr rfl
    · exact Or.inl rfl
  have htake : beforeReturn q.counted (afterSlot q) = true ∨
      (afterSlot q = .live ∧ q.counted = false) := by
    unfold afterSlot
    split_ifs with hc
    · exact Or.inl hc
    · exact Or.inr ⟨rfl, Bool.eq_false_of_not_eq_true hc⟩
  rcases st with _ | current | _ | _ | _ | _ | _ | _ | _ <;> simp only [stageStep] at h
  case start | trying =>
    split_ifs at h <;> cases h
    all_goals
      first
      | exact (hobs _).elim (fun ho => Or.inl ⟨ho, by simp⟩) fun ho => Or.inr (Or.inl ⟨ho, by simp⟩)
      | exact htake.elim (fun ht => Or.inl ⟨ht, by simp⟩)
          fun ht => Or.inr (Or.inr ⟨ht.1, by simp [ht.2]⟩)
  case entered =>
    cases h
    exact Or.inl ⟨hb, by simp⟩
  case gauged =>
    cases h
    exact Or.inr (Or.inr ⟨rfl, hb.trans (decide_eq_true rfl).symm⟩)
  all_goals cases hb

theorem drop_stageStep {t t' : MetricsInner} {q : Request} {spurious : Bool} {elapsed : UInt64}
    {st st' : Stage} (hb : returned st = true) (h : stageStep t q spurious elapsed st = some (t', st')) :
    returned st' = true ∧ st ≠ .gauged := by
  rcases st with _ | current | _ | _ | _ | _ | _ | _ | _ <;> simp only [stageStep] at h
  case live =>
    cases h
    refine ⟨?_, by simp⟩
    split_ifs <;> rfl
  case leaving | timing =>
    cases h
    exact ⟨rfl, by simp⟩
  case refused | gone => cases h
  all_goals cases hb

/-! ### What one step records -/

def Req.hasStatus (r : Req) : Bool := r.outcome.any fun o => o ≠ .aborted

def Req.isAborted (r : Req) : Bool := r.outcome = some .aborted

/-- The request is counted and not settled yet. -/
def Req.unsettled (r : Req) : Bool := r.counted && r.outcome.isNone

/-- The future of the request is there: the outer layer has not returned. -/
def Req.inside (r : Req) : Bool := r.phase ≠ .streaming && r.phase ≠ .closing && r.phase ≠ .done

/-- What is recorded of a request in each phase. Inside it is not settled, and when the gate has decided it
is counted unless it is a scrape; outside it is settled if it is counted. -/
def Req.Consistent (r : Req) : Prop :=
  match r.phase with
  | .arrived => r.ticket = .start ∧ r.counted = false ∧ r.outcome = none
  | .entering => beforeReturn r.class.counted r.ticket = true ∧ r.counted = false ∧ r.outcome = none
  | .rejecting => returned r.ticket = true ∧ r.counted = false ∧ r.outcome = none
  | .handling | .dropping | .answered _ =>
    returned r.ticket = true ∧ r.counted = r.class.counted ∧ r.outcome = none
  | .streaming | .closing => returned r.ticket = true ∧ r.counted = r.outcome.isSome
  | .done => r.counted = r.outcome.isSome

/-- A request is only settled when it is counted, and before it leaves. -/
theorem Req.Consistent.counted_of_isSome (h : r.Consistent) (ho : r.outcome.isSome = true) :
    r.counted = true ∧ r.inside = false := by
  rcases r with ⟨path, phase, ticket, counted, outcome⟩
  cases phase
  case streaming | closing => exact ⟨h.2.trans ho, rfl⟩
  case done => exact ⟨h.trans ho, rfl⟩
  all_goals
    have hnone : outcome = none := h.2.2
    subst hnone
    cases ho

theorem Req.Consistent.unsettled_inside (h : r.Consistent) (hu : r.unsettled = true) :
    r.inside = true := by
  rcases r with ⟨path, phase, ticket, counted, outcome⟩
  obtain ⟨hc, hn⟩ := Bool.and_eq_true_iff.mp hu
  have hout : ∀ b : Bool, counted = outcome.isSome → b = true := by
    intro b hb
    simp only at hc hn
    rw [hc, Option.isNone_iff_eq_none.mp hn] at hb
    cases hb
  cases phase
  case streaming | closing => exact hout _ h.2
  case done => exact hout _ h
  all_goals rfl

/-- What a step adds to the metrics is what it notes of the request. -/
structure Records (m m' : Metrics) (r r' : Req) : Prop where
  consistent : r'.Consistent
  count : m'.tickets.requestCount + UInt64.ofNat r.counted.toNat =
    m.tickets.requestCount + UInt64.ofNat r'.counted.toNat
  statuses : m'.statusTotal + UInt64.ofNat r.hasStatus.toNat =
    m.statusTotal + UInt64.ofNat r'.hasStatus.toNat
  aborts : m'.aborted + UInt64.ofNat r.isAborted.toNat = m.aborted + UInt64.ofNat r'.isAborted.toNat

theorem records_move (hm : m'.tickets.requestCount = m.tickets.requestCount)
    (hs : m'.statusCounts = m.statusCounts) (ha : m'.aborted = m.aborted) (hr : r'.Consistent)
    (hc : r'.counted = r.counted) (ho : r'.outcome = r.outcome) : Records m m' r r' where
  consistent := hr
  count := by rw [hm, hc]
  statuses := by rw [Metrics.statusTotal, Metrics.statusTotal, hs, Req.hasStatus, Req.hasStatus, ho]
  aborts := by rw [ha, Req.isAborted, Req.isAborted, ho]

theorem records_phase {p : Phase} (h : ({ r with phase := p } : Req).Consistent) :
    Records m m r { r with phase := p } :=
  records_move rfl rfl rfl h rfl rfl

theorem records_enter {spurious : Bool} {elapsed : UInt64} {p : MetricsInner × Stage}
    (hb : beforeReturn r.class.counted r.ticket = true) (hc : r.counted = false) (ho : r.outcome = none)
    (h : stageStep m.tickets (gateRequest max r.path) spurious elapsed r.ticket = some p) :
    Records m { m with tickets := p.1 } r
      { r with phase := afterEnter p.2, ticket := p.2, counted := decide (r.ticket = .gauged) } where
  consistent := by
    rcases enter_stageStep hb h with ⟨hst, hg⟩ | ⟨hst, hg⟩ | ⟨hst, hg⟩
    · have hphase : afterEnter p.2 = .entering := by
        revert hst
        cases p.2 <;> first | (intro _; rfl) | (intro hst; cases hst)
      simp only [Req.Consistent, hphase]
      exact ⟨hst, decide_eq_false hg, ho⟩
    · simp only [Req.Consistent, hst, afterEnter]
      exact ⟨rfl, decide_eq_false hg, ho⟩
    · simp only [Req.Consistent, hst, afterEnter]
      exact ⟨rfl, hg.symm, ho⟩
  count := by
    rw [requestCount_stageStep h, hc]
    simp
  statuses := rfl
  aborts := rfl

theorem records_reject (hc : r.counted = false) (ho : r.outcome = none) (ht : returned r.ticket = true)
    (hd : r.class.counted = true) :
    Records m m.recordRejected r { r with phase := .answered 429, counted := true } where
  consistent := ⟨ht, hd.symm, ho⟩
  count := by simp [Metrics.recordRejected, hc]
  statuses := rfl
  aborts := rfl

theorem records_drop {spurious : Bool} {elapsed : UInt64} {p : MetricsInner × Stage}
    (hr : r.Consistent) (hp : r.phase = .dropping ∨ r.phase = .closing)
    (h : stageStep m.tickets (gateRequest max r.path) spurious elapsed r.ticket = some p) :
    Records m { m with tickets := p.1 } r { r with ticket := p.2 } := by
  have ht : returned r.ticket = true := by
    rcases hp with hp | hp <;> rw [Req.Consistent, hp] at hr <;> exact hr.1
  obtain ⟨ht', hg⟩ := drop_stageStep ht h
  have hcount := requestCount_stageStep h
  rw [decide_eq_false hg] at hcount
  refine records_move (by simpa using hcount) rfl rfl ?_ rfl rfl
  rcases hp with hp | hp <;> simp only [Req.Consistent, hp] at hr ⊢ <;> exact ⟨ht', hr.2⟩

theorem records_abort (hc : r.counted = r.class.counted) (ho : r.outcome = none)
    (hl : logsAccess r.class = true) :
    Records m m.recordAborted r { r with phase := .done, outcome := some .aborted } where
  consistent := hc.trans hl
  count := rfl
  statuses := by simp [Req.hasStatus, ho, Metrics.statusTotal, Metrics.recordAborted]
  aborts := by simp [Req.isAborted, ho, Metrics.recordAborted]

theorem records_status {status : UInt16} (hc : r.counted = r.class.counted) (ho : r.outcome = none)
    (ht : returned r.ticket = true) (hl : logsAccess r.class = true) :
    Records m (m.recordStatus status) r
      { r with phase := .streaming, outcome := some (.status status) } where
  consistent := ⟨ht, hc.trans hl⟩
  count := rfl
  statuses := by
    rw [statusTotal_recordStatus]
    simp [Req.hasStatus, ho]
  aborts := by simp [Req.isAborted, ho, Metrics.recordStatus]

/-- **One step of a request.** -/
theorem records_of_reqStep (hr : r.Consistent) (h : reqStep max m r e = some (m', r')) :
    Records m m' r r' := by
  rcases r with ⟨path, phase, ticket, counted, outcome⟩
  cases phase with
  | arrived =>
    obtain ⟨hticket, hcounted, houtcome⟩ := hr
    cases e with
    | poll =>
      cases h
      exact records_phase ⟨by rw [hticket]; rfl, hcounted, houtcome⟩
    | drop =>
      cases h
      refine records_phase ?_
      simp only at hcounted houtcome
      simp [Req.Consistent, hcounted, houtcome]
    | go | respond | panic => cases h
  | entering =>
    obtain ⟨hticket, hcounted, houtcome⟩ := hr
    cases e with
    | go spurious elapsed =>
      obtain ⟨p, hst, hpair⟩ := Option.map_eq_some_iff.mp h
      cases hpair
      exact records_enter hticket hcounted houtcome hst
    | poll | respond | panic | drop => cases h
  | rejecting =>
    obtain ⟨hticket, hcounted, houtcome⟩ := hr
    cases e with
    | go spurious elapsed =>
      unfold reqStep at h
      dsimp only at h
      cases hclass : Req.class ⟨path, .rejecting, ticket, counted, outcome⟩ with
      | gated | probe =>
        simp only [hclass, RouteClass.domain] at h
        cases h
        exact records_reject hcounted houtcome hticket (by rw [hclass]; rfl)
      | scrape =>
        -- a scrape is turned away and not counted
        simp only [hclass, RouteClass.domain] at h
        cases h
        have hscrape : counted = RouteClass.counted .scrape := hcounted
        exact records_phase ⟨hticket, hscrape.trans (congrArg RouteClass.counted hclass.symm), houtcome⟩
    | poll | respond | panic | drop => cases h
  | handling =>
    cases e with
    | respond | panic | drop =>
      cases h
      exact records_phase hr
    | poll | go => cases h
  | dropping =>
    cases e with
    | go spurious elapsed =>
      unfold reqStep at h
      dsimp only at h
      split at h
      · next hst =>
        cases h
        exact records_drop hr (Or.inl rfl) hst
      · -- the ticket is given back, now the guard is dropped
        split_ifs at h with hl <;> cases h
        · exact records_abort hr.2.1 hr.2.2 hl
        · have hnone : outcome.isSome = false := congrArg Option.isSome hr.2.2
          have hnot : counted = false := hr.2.1.trans (Bool.eq_false_of_not_eq_true hl)
          exact records_phase (hnot.trans hnone.symm)
    | poll | respond | panic | drop => cases h
  | answered status =>
    cases e with
    | go spurious elapsed =>
      unfold reqStep at h
      dsimp only at h
      split_ifs at h with hl <;> cases h
      · exact records_status hr.2.1 hr.2.2 hr.1 hl
      · have hnone : outcome.isSome = false := congrArg Option.isSome hr.2.2
        have hnot : counted = false := hr.2.1.trans (Bool.eq_false_of_not_eq_true hl)
        exact records_phase ⟨hr.1, hnot.trans hnone.symm⟩
    | poll | respond | panic | drop => cases h
  | streaming =>
    cases e with
    | panic | drop =>
      cases h
      exact records_phase hr
    | poll | go | respond => cases h
  | closing =>
    cases e with
    | go spurious elapsed =>
      unfold reqStep at h
      dsimp only at h
      split at h
      · next hst =>
        cases h
        exact records_drop hr (Or.inr rfl) hst
      · cases h
        exact records_move rfl rfl rfl hr.2 rfl rfl
    | poll | respond | panic | drop => cases h
  | done => cases h

/-! ### The accounts of a run -/

/-- The counters show how many requests were counted and settled. -/
structure Accounted (s : State) : Prop where
  consistent : ∀ i r, s.requests.lookup i = some r → r.Consistent
  count : s.metrics.tickets.requestCount = UInt64.ofNat (countVal Req.counted s.requests)
  statuses : s.metrics.statusTotal = UInt64.ofNat (countVal Req.hasStatus s.requests)
  aborts : s.metrics.aborted = UInt64.ofNat (countVal Req.isAborted s.requests)
  clones : countVal Req.underWay s.requests ≤ 2 ^ 63

theorem accounted_init : Accounted init where
  consistent i r h := by cases h
  count := rfl
  statuses := rfl
  aborts := rfl
  clones := by decide

theorem underWay_of_reqStep (h : reqStep max m r e = some (m', r')) : r.underWay = true := by
  rcases r with ⟨path, phase, ticket, counted, outcome⟩
  cases phase
  case done => cases e <;> cases h
  all_goals rfl

theorem accounted_arrive (h : Accounted s) {i : ℕ} {path : String} (hi : s.requests.lookup i = none)
    (hb : countVal Req.underWay s.requests < 2 ^ 63) :
    Accounted { s with requests := s.requests.insert i (.new path) } := by
  have hnew : ∀ p : Req → Bool, p (.new path) = false →
      countVal p (s.requests.insert i (.new path)) = countVal p s.requests := by
    intro p hp
    rw [countVal_insert_of_none _ _ hi, hp]
    rfl
  refine ⟨fun j r hj => ?_, ?_, ?_, ?_, ?_⟩
  · rw [lookup_insert] at hj
    split_ifs at hj
    · cases hj
      exact ⟨rfl, rfl, rfl⟩
    · exact h.consistent j r hj
  · rw [hnew _ rfl]
    exact h.count
  · rw [hnew _ rfl]
    exact h.statuses
  · rw [hnew _ rfl]
    exact h.aborts
  · have hle := countVal_insert_of_none (Req.new path) Req.underWay hi
    simp only [hle]
    split_ifs <;> omega

theorem accounted_event (h : Accounted s) {i : ℕ} (hr : s.requests.lookup i = some r)
    (hst : reqStep max s.metrics r e = some (m', r')) :
    Accounted ⟨m', s.requests.insert i r'⟩ := by
  have hrec := records_of_reqStep (h.consistent i r hr) hst
  refine ⟨fun j q hj => ?_, ofNat_countVal_step hr h.count hrec.count,
    ofNat_countVal_step hr h.statuses hrec.statuses, ofNat_countVal_step hr h.aborts hrec.aborts, ?_⟩
  · rw [lookup_insert] at hj
    split_ifs at hj
    · cases hj
      exact hrec.consistent
    · exact h.consistent j q hj
  · have hcount := countVal_step Req.underWay hr r'
    have hone : Bool.toNat r'.underWay ≤ 1 := Bool.toNat_le _
    have hclones := h.clones
    rw [underWay_of_reqStep hst] at hcount
    simp only [Bool.toNat_true] at hcount
    show countVal Req.underWay (s.requests.insert i r') ≤ 2 ^ 63
    omega

theorem accounted_step (h : Accounted s) (hs : step max s l = some s') : Accounted s' := by
  rcases step_cases hs with ⟨i, path, rfl, hi, hb, rfl⟩ | ⟨i, e, r, m', r', rfl, hr, hst, rfl⟩
  · exact accounted_arrive h hi hb
  · exact accounted_event h hr hst

theorem accounted_run {ls : List Label} (h : run (step max) init ls = some s) : Accounted s :=
  run_invariant (I := Accounted) (fun _ _ _ hi hs => accounted_step hi hs) accounted_init ⟨ls, h⟩

/-- Each counted request has a status, is aborted, or is still to be settled. -/
theorem Accounted.countVal_counted (h : Accounted s) :
    countVal Req.counted s.requests = countVal Req.hasStatus s.requests +
      countVal Req.isAborted s.requests + countVal Req.unsettled s.requests := by
  have hsettled : countVal (fun r => r.outcome.isSome) s.requests =
      countVal Req.hasStatus s.requests + countVal Req.isAborted s.requests := by
    refine countVal_add fun i r _ => ?_
    unfold Req.hasStatus Req.isAborted
    rcases r.outcome with _ | code | _ <;> rfl
  rw [← hsettled]
  refine countVal_add fun i r hr => ?_
  have hcounted := (h.consistent i r hr).counted_of_isSome
  unfold Req.unsettled
  cases ho : r.outcome with
  | none => cases r.counted <;> rfl
  | some o =>
    rw [ho] at hcounted
    rw [(hcounted rfl).1]
    rfl

theorem Accounted.countVal_unsettled_lt (h : Accounted s) :
    countVal Req.unsettled s.requests < 2 ^ 64 := by
  have hle : countVal Req.unsettled s.requests ≤ countVal Req.underWay s.requests := by
    refine countVal_le fun i r hr hu => ?_
    have hin := (h.consistent i r hr).unsettled_inside hu
    simp only [Req.inside, Bool.and_eq_true] at hin
    exact hin.2
  have hclones := h.clones
  omega

/-- **Request conservation.** In every state of every run the requests that were counted are those with a
recorded status, those recorded as aborted and those still to be settled; the three counters are these
numbers, so their difference is the number of requests between being counted and being settled. Such a
request is still inside the outer layer, so when none is there the difference is zero. -/
theorem request_conservation {ls : List Label} (h : run (step max) init ls = some s) :
    (countVal Req.counted s.requests : ℤ) - countVal Req.hasStatus s.requests -
        countVal Req.isAborted s.requests = countVal Req.unsettled s.requests ∧
      s.metrics.tickets.requestCount = UInt64.ofNat (countVal Req.counted s.requests) ∧
      s.metrics.statusTotal = UInt64.ofNat (countVal Req.hasStatus s.requests) ∧
      s.metrics.aborted = UInt64.ofNat (countVal Req.isAborted s.requests) ∧
      (s.metrics.tickets.requestCount - s.metrics.statusTotal - s.metrics.aborted).toNat =
        countVal Req.unsettled s.requests ∧
      ((∀ i r, s.requests.lookup i = some r → r.inside = false) →
        s.metrics.tickets.requestCount - s.metrics.statusTotal - s.metrics.aborted = 0) := by
  have ha := accounted_run h
  have hsum := ha.countVal_counted
  have hdiff : s.metrics.tickets.requestCount - s.metrics.statusTotal - s.metrics.aborted =
      UInt64.ofNat (countVal Req.unsettled s.requests) := by
    rw [ha.count, ha.statuses, ha.aborts, hsum, UInt64.ofNat_add, UInt64.ofNat_add]
    abel
  refine ⟨?_, ha.count, ha.statuses, ha.aborts, ?_, fun hquiet => ?_⟩
  · rw [hsum]
    push_cast
    ring
  · rw [hdiff, UInt64.toNat_ofNat']
    exact Nat.mod_eq_of_lt ha.countVal_unsettled_lt
  · have hzero : countVal Req.unsettled s.requests = 0 := by
      refine Nat.eq_zero_of_not_pos fun hpos => ?_
      obtain ⟨i, r, hr, hu⟩ := countVal_pos.mp hpos
      have hin := (ha.consistent i r hr).unsettled_inside hu
      rw [hquiet i r hr] at hin
      cases hin
    rw [hdiff, hzero]
    rfl

/-- A handler panics, a request over the limit is turned away and a scrape goes by; the request that the
gate rejected and the aborted one are settled, the one that took its slot is not. -/
theorem request_conservation_mixed : ∃ ls s, run (step 1) init ls = some s ∧
    countVal Req.counted s.requests = 3 ∧ s.metrics.statusTotal = 1 ∧ s.metrics.aborted = 1 ∧
    (s.metrics.tickets.requestCount - s.metrics.statusTotal - s.metrics.aborted).toNat =
      countVal Req.unsettled s.requests := by
  let go : ℕ → Label := fun i => .event i (.go false 0)
  let ls : List Label :=
    [.arrive 0 "/v1/models", .event 0 .poll, go 0, go 0, go 0, go 0, .event 0 .panic, go 0, go 0, go 0, go 0,
      .arrive 1 "/v1/models", .event 1 .poll, go 1, go 1, go 1, go 1,
      .arrive 2 "/", .event 2 .poll, go 2, go 2, go 2,
      .arrive 3 "/metrics", .event 3 .poll, go 3, go 3, .event 3 (.respond 200), go 3, .event 3 .drop, go 3]
  obtain ⟨s, hs, hp⟩ := exists_run (step 1) init ls
    (fun s => countVal Req.counted s.requests = 3 ∧ s.metrics.statusTotal = 1 ∧ s.metrics.aborted = 1)
    (by decide +kernel)
  exact ⟨ls, s, hs, hp.1, hp.2.1, hp.2.2, (request_conservation hs).2.2.2.2.1⟩

end HomeLlmGateway.Http.Observability
