import HomeLlmGateway.Lib.Runs
import HomeLlmGateway.Lib.Permits
import HomeLlmGateway.Lib.Streaks
import HomeLlmGateway.Agent.Backoff
import HomeLlmGateway.Proxy.Forward

/-! # The public entry

`serve_entry` (`gateway/src/http/entry.rs`): the accept loop of the gateway and the connections it has
accepted. The loop takes a permit, accepts a connection and hands both to a task; where the accept fails it
gives the permit back and sleeps before it tries again. It ends when the shutdown is announced and in no other
way; the connections go on then, until the controller itself is gone.

What a connection does after its handshake is left open: it ends at some time. -/

namespace HomeLlmGateway.Http.Entry

open HomeLlmGateway.Lib.Runs HomeLlmGateway.Lib.Assoc HomeLlmGateway.Lib.Permits HomeLlmGateway.Lib.Streaks
open HomeLlmGateway.Agent.Backoff (fromMillis fromSecs)
open HomeLlmGateway.Proxy.Forward (ShutdownPhase Watch)

/-! ### The policy -/

/-- `ACCEPT_BACKOFF_MIN`. -/
def acceptBackoffMin : ℕ := fromMillis 50

/-- `ACCEPT_BACKOFF_MAX`. -/
def acceptBackoffMax : ℕ := fromSecs 1

/-- `accept_backoff`. -/
def acceptBackoff (consecutiveFailures : UInt32) : ℕ :=
  let shift := min (consecutiveFailures.toNat - 1) 5
  min (acceptBackoffMin * 2 ^ shift) acceptBackoffMax

/-- `Semaphore::MAX_PERMITS`. -/
def maxPermits : ℕ := (2 ^ 64 - 1) / 2 ^ 3

/-- `connection_limiter`: no limit for zero, and no semaphore beyond what one can have. -/
def connectionLimiter (maxConnections : ℕ) : Option Semaphore :=
  let permits := if maxConnections = 0 then maxPermits else maxConnections
  if permits ≤ maxPermits then some ⟨permits⟩ else none

/-- `saturating_add(1)` of the failures in a row. -/
def countFailure (consecutiveFailures : UInt32) : UInt32 :=
  UInt32.ofNat (min (consecutiveFailures.toNat + 1) (2 ^ 32 - 1))

/-! ### The state -/

/-- Where the loop is. -/
inductive Loop where
  /-- before the finished tasks are reaped -/
  | top
  /-- in `acquire_connection` -/
  | acquiring
  /-- at the accept, with a permit -/
  | accepting
  /-- in the backoff after a failure -/
  | sleeping (wakeAt : ℕ)
  | returned
  deriving DecidableEq

/-- A task that serves a connection. -/
inductive Conn where
  /-- in the TLS handshake, which has to be over at `deadline` -/
  | handshake (deadline : ℕ)
  | serving
  /-- has ended and is to be reaped -/
  | ended
  deriving DecidableEq

/-- The task has its permit. -/
def Conn.live : Conn → Bool
  | .ended => false
  | _ => true

/-- An answer of `accept`: when it came, and whether it was a connection. -/
structure Answer where
  time : ℕ
  ok : Bool
  deriving DecidableEq

/-- The parameters of `serve_entry`. -/
structure Config where
  tls : Bool
  clientStall : ℕ
  limiter : Semaphore

structure State where
  now : ℕ
  shutdown : Watch
  limiter : Semaphore
  loop : Loop
  consecutiveFailures : UInt32
  /-- the metric of `record_accept_error` -/
  acceptErrors : ℕ
  connections : HashMap ℕ Conn
  /-- what `accept` has answered so far -/
  answers : List Answer

/-- The entry as it is spawned: the receiver has seen the phase. -/
def init (cfg : Config) (now : ℕ) : State where
  now := now
  shutdown := ⟨.running, false, false⟩
  limiter := cfg.limiter
  loop := .top
  consecutiveFailures := 0
  acceptErrors := 0
  connections := ∅
  answers := []

/-! ### One step -/

inductive Label where
  | tick (d : ℕ)
  /-- the controller goes to a phase -/
  | advance (next : ShutdownPhase)
  /-- the controller is dropped -/
  | close
  | reap
  /-- `acquire_connection` gets a permit -/
  | acquire
  /-- `shutdown.changed()` comes first in the `select!` where the loop is -/
  | stop
  | accepted (i : ℕ)
  | acceptFails
  /-- the backoff is over -/
  | slept
  /-- a handshake ends -/
  | handshake (i : ℕ) (ok : Bool)
  /-- a handshake has taken too long -/
  | handshakeStalled (i : ℕ)
  /-- `serve_conn` returns -/
  | served (i : ℕ)
  /-- `wait_closed` comes first in the `select!` of a connection -/
  | hardStop (i : ℕ)
  deriving DecidableEq

/-- A connection's task ends, and its permit goes back. -/
def State.endConn (s : State) (i : ℕ) : State :=
  { s with connections := s.connections.insert i .ended, limiter := s.limiter.release }

def step (cfg : Config) (s : State) : Label → Option State
  | .tick d => some { s with now := s.now + d }
  | .advance next => if s.shutdown.closed then none else some { s with shutdown := s.shutdown.advance next }
  | .close => some { s with shutdown := { s.shutdown with closed := true } }
  | .reap =>
    match s.loop with
    | .top => some { s with loop := .acquiring, connections := retain (fun _ c => c.live) s.connections }
    | _ => none
  | .acquire =>
    match s.loop with
    | .acquiring => s.limiter.tryAcquire.map fun limiter => { s with limiter := limiter, loop := .accepting }
    | _ => none
  | .stop =>
    s.shutdown.changed.bind fun (_, shutdown) =>
      match s.loop with
      | .acquiring => some { s with shutdown := shutdown, loop := .returned }
      -- the permit of this round is dropped with the loop
      | .accepting => some { s with shutdown := shutdown, loop := .returned, limiter := s.limiter.release }
      | .sleeping _ => some { s with shutdown := shutdown, loop := .returned }
      | _ => none
  | .accepted i =>
    match s.loop, s.connections.lookup i with
    | .accepting, none => some { s with
        loop := .top
        consecutiveFailures := 0
        answers := s.answers ++ [⟨s.now, true⟩]
        connections := s.connections.insert i
          (if cfg.tls then .handshake (s.now + cfg.clientStall) else .serving) }
    | _, _ => none
  | .acceptFails =>
    match s.loop with
    | .accepting =>
      let failures := countFailure s.consecutiveFailures
      some { s with
        loop := .sleeping (s.now + acceptBackoff failures)
        limiter := s.limiter.release
        consecutiveFailures := failures
        acceptErrors := s.acceptErrors + 1
        answers := s.answers ++ [⟨s.now, false⟩] }
    | _ => none
  | .slept =>
    match s.loop with
    | .sleeping wakeAt => if wakeAt ≤ s.now then some { s with loop := .top } else none
    | _ => none
  | .handshake i ok =>
    match s.connections.lookup i with
    | some (.handshake _) =>
      if ok then some { s with connections := s.connections.insert i .serving } else some (s.endConn i)
    | _ => none
  | .handshakeStalled i =>
    match s.connections.lookup i with
    | some (.handshake deadline) => if deadline ≤ s.now then some (s.endConn i) else none
    | _ => none
  | .served i =>
    match s.connections.lookup i with
    | some .serving => some (s.endConn i)
    | _ => none
  | .hardStop i =>
    match s.connections.lookup i with
    | some .ended => none
    | some _ => if s.shutdown.closed then some (s.endConn i) else none
    | none => none

/-- The loop holds a permit of its own. -/
def Loop.holds : Loop → Bool
  | .accepting => true
  | _ => false

/-- The loop is at a `select!` with the shutdown. -/
def Loop.listens : Loop → Bool
  | .acquiring => true
  | .accepting => true
  | .sleeping _ => true
  | _ => false

/-- What the connection begins with. -/
def Config.firstStage (cfg : Config) (now : ℕ) : Conn :=
  if cfg.tls then .handshake (now + cfg.clientStall) else .serving

/-- The steps, each with what it needs and what it does. -/
inductive Step (cfg : Config) (s : State) : Label → State → Prop
  | tick (d : ℕ) : Step cfg s (.tick d) { s with now := s.now + d }
  | advance {next : ShutdownPhase} (hc : s.shutdown.closed = false) :
    Step cfg s (.advance next) { s with shutdown := s.shutdown.advance next }
  | close : Step cfg s .close { s with shutdown := { s.shutdown with closed := true } }
  | reap (hl : s.loop = .top) :
    Step cfg s .reap { s with loop := .acquiring, connections := retain (fun _ c => c.live) s.connections }
  | acquire {limiter : Semaphore} (hl : s.loop = .acquiring) (ha : s.limiter.tryAcquire = some limiter) :
    Step cfg s .acquire { s with limiter := limiter, loop := .accepting }
  | stop {ok : Bool} {shutdown : Watch} (hl : s.loop.listens = true)
      (hc : s.shutdown.changed = some (ok, shutdown)) :
    Step cfg s .stop { s with
      shutdown := shutdown
      loop := .returned
      limiter := if s.loop.holds then s.limiter.release else s.limiter }
  | accepted {i : ℕ} (hl : s.loop = .accepting) (hi : s.connections.lookup i = none) :
    Step cfg s (.accepted i) { s with
      loop := .top
      consecutiveFailures := 0
      answers := s.answers ++ [⟨s.now, true⟩]
      connections := s.connections.insert i (cfg.firstStage s.now) }
  | acceptFails (hl : s.loop = .accepting) :
    Step cfg s .acceptFails { s with
      loop := .sleeping (s.now + acceptBackoff (countFailure s.consecutiveFailures))
      limiter := s.limiter.release
      consecutiveFailures := countFailure s.consecutiveFailures
      acceptErrors := s.acceptErrors + 1
      answers := s.answers ++ [⟨s.now, false⟩] }
  | slept {wakeAt : ℕ} (hl : s.loop = .sleeping wakeAt) (ht : wakeAt ≤ s.now) :
    Step cfg s .slept { s with loop := .top }
  | handshaken {i deadline : ℕ} (hi : s.connections.lookup i = some (.handshake deadline)) :
    Step cfg s (.handshake i true) { s with connections := s.connections.insert i .serving }
  | ends {l : Label} {i : ℕ} {c : Conn} (hi : s.connections.lookup i = some c) (hc : c.live = true) :
    Step cfg s l (s.endConn i)

theorem step_cases {cfg : Config} {s s' : State} {l : Label} (h : step cfg s l = some s') :
    Step cfg s l s' := by
  cases l with
  | tick d =>
    cases h
    exact .tick d
  | advance next =>
    simp only [step] at h
    split_ifs at h with hc
    cases h
    exact .advance (Bool.eq_false_of_not_eq_true hc)
  | close =>
    cases h
    exact .close
  | reap =>
    simp only [step] at h
    split at h
    · next hl =>
      cases h
      exact .reap hl
    · cases h
  | acquire =>
    simp only [step] at h
    split at h
    · next hl =>
      obtain ⟨limiter, ha, rfl⟩ := Option.map_eq_some_iff.mp h
      exact .acquire hl ha
    · cases h
  | stop =>
    obtain ⟨⟨ok, shutdown⟩, hc, h⟩ := Option.bind_eq_some_iff.mp h
    simp only at h
    split at h
    · next hl =>
      cases h
      have hs := @Step.stop cfg s ok shutdown (by rw [hl]; rfl) hc
      rwa [hl] at hs
    · next hl =>
      cases h
      have hs := @Step.stop cfg s ok shutdown (by rw [hl]; rfl) hc
      rwa [hl] at hs
    · next hl =>
      cases h
      have hs := @Step.stop cfg s ok shutdown (by rw [hl]; rfl) hc
      rwa [hl] at hs
    · cases h
  | accepted i =>
    simp only [step] at h
    split at h
    · next hl hi =>
      cases h
      exact .accepted hl hi
    · cases h
  | acceptFails =>
    simp only [step] at h
    split at h
    · next hl =>
      cases h
      exact .acceptFails hl
    · cases h
  | slept =>
    simp only [step] at h
    split at h
    · next hl =>
      split_ifs at h with ht
      cases h
      exact .slept hl ht
    · cases h
  | handshake i ok =>
    simp only [step] at h
    split at h
    · next hi =>
      split_ifs at h with hok
      · cases h
        rw [hok]
        exact .handshaken hi
      · cases h
        exact .ends hi rfl
    · cases h
  | handshakeStalled i =>
    simp only [step] at h
    split at h
    · next hi =>
      split_ifs at h with ht
      cases h
      exact .ends hi rfl
    · cases h
  | served i =>
    simp only [step] at h
    split at h
    · next hi =>
      cases h
      exact .ends hi rfl
    · cases h
  | hardStop i =>
    simp only [step] at h
    split at h
    · cases h
    · next c hne hi =>
      split_ifs at h with hc
      cases h
      refine .ends hi ?_
      cases c with
      | ended => exact absurd rfl hne
      | handshake deadline => rfl
      | serving => rfl
    · cases h

/-! ### The permits -/

/-- Every permit is free, held by a connection, or in the hand of the loop. -/
def Permitted (total : ℕ) (s : State) : Prop :=
  Conserved total s.limiter (countVal Conn.live s.connections + s.loop.holds.toNat)

theorem firstStage_live (cfg : Config) (now : ℕ) : (cfg.firstStage now).live = true := by
  unfold Config.firstStage
  split_ifs <;> rfl

theorem permitted_endConn {total i : ℕ} {s : State} {c : Conn} (h : Permitted total s)
    (hi : s.connections.lookup i = some c) (hc : c.live = true) : Permitted total (s.endConn i) := by
  have hcount := countVal_step Conn.live hi .ended
  rw [hc] at hcount
  refine Conserved.release ?_
  have hheld : countVal Conn.live (s.connections.insert i .ended) + s.loop.holds.toNat + 1 =
      countVal Conn.live s.connections + s.loop.holds.toNat := by
    simp only [Bool.toNat_true, Conn.live, Bool.toNat_false] at hcount
    omega
  show Conserved total s.limiter (countVal Conn.live (s.connections.insert i .ended) + s.loop.holds.toNat + 1)
  rw [hheld]
  exact h

theorem permitted_step {cfg : Config} {total : ℕ} {s s' : State} {l : Label} (h : Permitted total s)
    (hstep : step cfg s l = some s') : Permitted total s' := by
  unfold Permitted at h
  cases step_cases hstep with
  | tick d => exact h
  | advance hc => exact h
  | close => exact h
  | reap hl =>
    rw [hl] at h
    show Conserved total s.limiter (countVal Conn.live (retain _ s.connections) + 0)
    rw [countVal_retain fun _ _ hc => hc]
    exact h
  | acquire hl ha =>
    rw [hl] at h
    exact h.acquire ha
  | stop hl hc =>
    cases hs : s.loop with
    | accepting =>
      rw [hs] at h
      exact Conserved.release h
    | acquiring =>
      rw [hs] at h
      exact h
    | sleeping wakeAt =>
      rw [hs] at h
      exact h
    | top =>
      rw [hs] at h
      exact h
    | returned =>
      rw [hs] at h
      exact h
  | @accepted i hl hi =>
    rw [hl] at h
    show Conserved total s.limiter (countVal Conn.live (s.connections.insert i _) + 0)
    rw [countVal_insert_of_none _ _ hi, if_pos (firstStage_live cfg s.now)]
    exact h
  | acceptFails hl =>
    rw [hl] at h
    exact Conserved.release h
  | slept hl ht =>
    rw [hl] at h
    exact h
  | @handshaken i deadline hi =>
    have hcount : countVal Conn.live (s.connections.insert i .serving) = countVal Conn.live s.connections :=
      countVal_replace Conn.live hi rfl
    show Conserved total s.limiter (countVal Conn.live (s.connections.insert i .serving) + s.loop.holds.toNat)
    rw [hcount]
    exact h
  | ends hi hc => exact permitted_endConn h hi hc

theorem permitted_run {cfg : Config} {now : ℕ} {s : State} (h : Reaches (step cfg) (init cfg now) s) :
    Permitted cfg.limiter.permits s := by
  have hinit : Permitted cfg.limiter.permits (init cfg now) := Conserved.new cfg.limiter.permits
  exact run_invariant (fun _ _ _ => permitted_step) hinit h

/-! ### The failures -/

/-- The answer is an error. -/
def Answer.failed (a : Answer) : Bool := !a.ok

/-- The backoff that belongs to the failures at the end of some answers. -/
def backoffAfter (answers : List Answer) : ℕ :=
  min (acceptBackoffMin * 2 ^ (streak Answer.failed answers - 1)) acceptBackoffMax

/-- From the sixth failure on the backoff is the longest. -/
theorem backoff_saturates {n : ℕ} (h : 5 ≤ n) :
    min (acceptBackoffMin * 2 ^ n) acceptBackoffMax = acceptBackoffMax := by
  have hpow : 2 ^ 5 ≤ 2 ^ n := Nat.pow_le_pow_right (by norm_num) h
  refine Nat.min_eq_right ?_
  calc acceptBackoffMax ≤ acceptBackoffMin * 2 ^ 5 := by decide
    _ ≤ acceptBackoffMin * 2 ^ n := Nat.mul_le_mul_left _ hpow

/-- Neither the bound on the shift nor the saturation of the counter shows. -/
theorem acceptBackoff_eq {failures : UInt32} {n : ℕ} (h : failures.toNat = min n (2 ^ 32 - 1)) :
    acceptBackoff failures = min (acceptBackoffMin * 2 ^ (n - 1)) acceptBackoffMax := by
  unfold acceptBackoff
  by_cases hn : n ≤ 5
  · have hshift : min (failures.toNat - 1) 5 = n - 1 := by omega
    simp only [hshift]
  · have hshift : min (failures.toNat - 1) 5 = 5 := by omega
    simp only [hshift]
    rw [backoff_saturates (le_refl 5), backoff_saturates (by omega)]

theorem countFailure_toNat {failures : UInt32} {n : ℕ} (h : failures.toNat = min n (2 ^ 32 - 1)) :
    (countFailure failures).toNat = min (n + 1) (2 ^ 32 - 1) := by
  unfold countFailure
  rw [UInt32.toNat_ofNat_of_lt' (by show _ < 2 ^ 32; omega)]
  omega

/-- What the answers so far mean to where the loop is. -/
def Waited (s : State) : Prop :=
  ∀ a, s.answers.getLast? = some a → a.ok = false →
    match s.loop with
    | .sleeping wakeAt => wakeAt = a.time + backoffAfter s.answers
    | .returned => True
    | _ => a.time + backoffAfter s.answers ≤ s.now

structure Counted (s : State) : Prop where
  failures : s.consecutiveFailures.toNat = min (streak Answer.failed s.answers) (2 ^ 32 - 1)
  errors : s.acceptErrors = s.answers.countP Answer.failed
  waited : Waited s
  spaced : ∀ pre a b post, s.answers = pre ++ a :: b :: post → a.ok = false →
    a.time + backoffAfter (pre ++ [a]) ≤ b.time

theorem spaced_concat {answers : List Answer} {x : Answer}
    (h : ∀ pre a b post, answers = pre ++ a :: b :: post → a.ok = false →
      a.time + backoffAfter (pre ++ [a]) ≤ b.time)
    (hx : ∀ a, answers.getLast? = some a → a.ok = false → a.time + backoffAfter answers ≤ x.time) :
    ∀ pre a b post, answers ++ [x] = pre ++ a :: b :: post → a.ok = false →
      a.time + backoffAfter (pre ++ [a]) ≤ b.time := by
  intro pre a b post heq ha
  rcases List.eq_nil_or_concat' post with rfl | ⟨front, y, rfl⟩
  · have hsplit : answers ++ [x] = (pre ++ [a]) ++ [b] := by rw [heq]; simp
    obtain ⟨hans, hb⟩ := List.append_inj' hsplit rfl
    rw [← List.singleton_injective hb, ← hans]
    exact hx a (by rw [hans]; simp) ha
  · have hsplit : answers ++ [x] = (pre ++ a :: b :: front) ++ [y] := by rw [heq]; simp
    exact h pre a b front (List.append_inj' hsplit rfl).1 ha

theorem Counted.waited_accepting {s : State} (h : Counted s) (hl : s.loop = .accepting) :
    ∀ a, s.answers.getLast? = some a → a.ok = false → a.time + backoffAfter s.answers ≤ s.now := by
  intro a ha hok
  have hw := h.waited a ha hok
  rw [hl] at hw
  exact hw

theorem counted_step {cfg : Config} {s s' : State} {l : Label} (h : Counted s)
    (hstep : step cfg s l = some s') : Counted s' := by
  have hwaited := h.waited
  cases step_cases hstep with
  | tick d =>
    refine { h with waited := fun a ha hok => ?_ }
    have hw := hwaited a ha hok
    show match s.loop with
      | .sleeping wakeAt => wakeAt = a.time + backoffAfter s.answers
      | .returned => True
      | _ => a.time + backoffAfter s.answers ≤ s.now + d
    cases hs : s.loop <;> simp only [hs] at hw ⊢ <;> omega
  | advance hc => exact { h with }
  | close => exact { h with }
  | reap hl =>
    refine { h with waited := fun a ha hok => ?_ }
    have hw := hwaited a ha hok
    rw [hl] at hw
    exact hw
  | acquire hl ha =>
    refine { h with waited := fun a ha hok => ?_ }
    have hw := hwaited a ha hok
    rw [hl] at hw
    exact hw
  | stop hl hc => exact { h with waited := fun a ha hok => trivial }
  | accepted hl hi =>
    refine ⟨?_, ?_, ?_, spaced_concat h.spaced (h.waited_accepting hl)⟩
    · rw [streak_concat]
      rfl
    · show s.acceptErrors = (s.answers ++ [_]).countP Answer.failed
      rw [h.errors, List.countP_append]
      rfl
    · intro a ha hok
      rw [List.getLast?_concat] at ha
      cases ha
      cases hok
  | acceptFails hl =>
    have hfailures := countFailure_toNat h.failures
    have hstreak : streak Answer.failed (s.answers ++ [⟨s.now, false⟩]) =
        streak Answer.failed s.answers + 1 := by
      rw [streak_concat]
      rfl
    rw [← hstreak] at hfailures
    refine ⟨hfailures, ?_, ?_, spaced_concat h.spaced (h.waited_accepting hl)⟩
    · show s.acceptErrors + 1 = (s.answers ++ [_]).countP Answer.failed
      rw [h.errors, List.countP_append]
      rfl
    · intro a ha hok
      rw [List.getLast?_concat] at ha
      cases ha
      exact congrArg (s.now + ·) (acceptBackoff_eq hfailures)
  | slept hl ht =>
    refine { h with waited := fun a ha hok => ?_ }
    have hw := hwaited a ha hok
    rw [hl] at hw
    show a.time + backoffAfter s.answers ≤ s.now
    omega
  | handshaken hi => exact { h with }
  | ends hi hc => exact { h with }

theorem counted_init (cfg : Config) (now : ℕ) : Counted (init cfg now) where
  failures := by simp [init]
  errors := rfl
  waited a ha := by cases ha
  spaced pre a b post h := by
    have hnil : ([] : List Answer) = pre ++ a :: b :: post := h
    simp at hnil

/-! ### The shutdown -/

/-- The shutdown is under way: a phase after the first, or no controller. -/
def announced (w : Watch) : Prop := w.value ≠ .running ∨ w.closed = true

/-- A loop that goes on has an announced phase still before it, one that has returned had one. -/
def Alert (s : State) : Prop :=
  if s.loop = .returned then announced s.shutdown
  else s.shutdown.unseen = true ↔ s.shutdown.value ≠ .running

theorem alert_of_running {s : State} (hl : s.loop ≠ .returned) :
    Alert s ↔ (s.shutdown.unseen = true ↔ s.shutdown.value ≠ .running) := by
  unfold Alert
  rw [if_neg hl]

theorem rank_pos {p q : ShutdownPhase} (h : p.rank < q.rank) : q ≠ .running := by
  rintro rfl
  exact Nat.not_lt_zero _ h

theorem announced_advance {w : Watch} (h : announced w) (next : ShutdownPhase) :
    announced (w.advance next) := by
  unfold Watch.advance
  split_ifs with hlt
  · exact Or.inl (rank_pos hlt)
  · exact h

theorem unseen_advance {w : Watch} (h : w.unseen = true ↔ w.value ≠ .running) (next : ShutdownPhase) :
    (w.advance next).unseen = true ↔ (w.advance next).value ≠ .running := by
  unfold Watch.advance
  split_ifs with hlt
  · exact iff_of_true rfl (rank_pos hlt)
  · exact h

theorem changed_eq_some {w w' : Watch} {ok : Bool} (h : w.changed = some (ok, w')) :
    (w.unseen = true ∨ w.closed = true) ∧ w'.value = w.value ∧ w'.closed = w.closed := by
  unfold Watch.changed at h
  split_ifs at h with hu hc
  · cases h
    exact ⟨Or.inl hu, rfl, rfl⟩
  · cases h
    exact ⟨Or.inr hc, rfl, rfl⟩

theorem listens_ne_returned {loop : Loop} (h : loop.listens = true) : loop ≠ .returned := by
  rintro rfl
  cases h

theorem alert_step {cfg : Config} {s s' : State} {l : Label} (h : Alert s)
    (hstep : step cfg s l = some s') : Alert s' := by
  cases step_cases hstep with
  | tick d => exact h
  | advance hc =>
    by_cases hl : s.loop = .returned
    · unfold Alert at h ⊢
      rw [if_pos hl] at h
      rw [if_pos (show _ = Loop.returned from hl)]
      exact announced_advance h _
    · rw [alert_of_running hl] at h
      exact (alert_of_running (s := { s with shutdown := s.shutdown.advance _ }) hl).mpr (unseen_advance h _)
  | close =>
    unfold Alert at h ⊢
    split_ifs at h ⊢
    · exact Or.inr rfl
    · exact h
  | reap hl =>
    rw [alert_of_running (by rw [hl]; simp)] at h
    exact (alert_of_running (by simp)).mpr h
  | acquire hl ha =>
    rw [alert_of_running (by rw [hl]; simp)] at h
    exact (alert_of_running (by simp)).mpr h
  | stop hl hc =>
    rw [alert_of_running (listens_ne_returned hl)] at h
    obtain ⟨hchange, hvalue, hclosed⟩ := changed_eq_some hc
    show announced _
    unfold announced
    rw [hvalue, hclosed]
    exact hchange.imp_left h.mp
  | accepted hl hi =>
    rw [alert_of_running (by rw [hl]; simp)] at h
    exact (alert_of_running (by simp)).mpr h
  | acceptFails hl =>
    rw [alert_of_running (by rw [hl]; simp)] at h
    exact (alert_of_running (by simp)).mpr h
  | slept hl ht =>
    rw [alert_of_running (by rw [hl]; simp)] at h
    exact (alert_of_running (by simp)).mpr h
  | handshaken hi => exact h
  | ends hi hc => exact h

theorem alert_run {cfg : Config} {now : ℕ} {s : State} (h : Reaches (step cfg) (init cfg now) s) : Alert s := by
  have hinit : Alert (init cfg now) := (alert_of_running (by simp [init])).mpr (by simp [init])
  exact run_invariant (fun _ _ _ => alert_step) hinit h

/-- The connections that are served now were served before. -/
def Fewer (m m' : HashMap ℕ Conn) : Prop :=
  ∀ i c, m'.lookup i = some c → c.live = true → ∃ c', m.lookup i = some c' ∧ c'.live = true

theorem returned_step {cfg : Config} {s s' : State} {l : Label} (h : s.loop = .returned)
    (hstep : step cfg s l = some s') :
    s'.loop = .returned ∧ s'.answers = s.answers ∧ Fewer s.connections s'.connections := by
  have hrefl : Fewer s.connections s.connections := fun i c hi hc => ⟨c, hi, hc⟩
  cases step_cases hstep with
  | tick d => exact ⟨h, rfl, hrefl⟩
  | advance hc => exact ⟨h, rfl, hrefl⟩
  | close => exact ⟨h, rfl, hrefl⟩
  | reap hl =>
    rw [h] at hl
    cases hl
  | acquire hl ha =>
    rw [h] at hl
    cases hl
  | stop hl hc => exact absurd h (listens_ne_returned hl)
  | accepted hl hi =>
    rw [h] at hl
    cases hl
  | acceptFails hl =>
    rw [h] at hl
    cases hl
  | slept hl ht =>
    rw [h] at hl
    cases hl
  | @handshaken i deadline hi =>
    refine ⟨h, rfl, fun j c hj hc => ?_⟩
    rw [lookup_insert] at hj
    split_ifs at hj with hji
    · exact ⟨_, hji ▸ hi, rfl⟩
    · exact ⟨c, hj, hc⟩
  | @ends l i c hi hc =>
    refine ⟨h, rfl, fun j c' hj hc' => ?_⟩
    rw [show (s.endConn i).connections = s.connections.insert i .ended from rfl, lookup_insert] at hj
    split_ifs at hj with hji
    · cases hj
      cases hc'
    · exact ⟨c', hj, hc'⟩

/-! ### The runs of the entry -/

/-- How many connections there may be: zero says as many as a semaphore has permits. -/
def limitOf (maxConnections : ℕ) : ℕ := if maxConnections = 0 then maxPermits else maxConnections

theorem connectionLimiter_eq_some {maxConnections : ℕ} {limiter : Semaphore}
    (h : connectionLimiter maxConnections = some limiter) : limiter.permits = limitOf maxConnections := by
  unfold connectionLimiter at h
  simp only at h
  split_ifs at h <;> cases h <;> simp_all [limitOf]

/-- **The limit on the connections.** In every run there are at most as many connections as configured, and
every permit is free, with a connection, or with the loop for its next one: whatever way a connection ends and
an accept fails, none is lost. The loop waits for a permit only while they are all given out, and once it has
returned and the connections have ended all of them are free. -/
theorem connections_within_limit (cfg : Config) (maxConnections now : ℕ) (s : State)
    (hcfg : connectionLimiter maxConnections = some cfg.limiter)
    (h : Reaches (step cfg) (init cfg now) s) :
    countVal Conn.live s.connections ≤ limitOf maxConnections ∧
    s.limiter.permits + countVal Conn.live s.connections + s.loop.holds.toNat = limitOf maxConnections ∧
    (s.loop = .acquiring → ((step cfg s .acquire).isSome = true ↔
      countVal Conn.live s.connections < limitOf maxConnections)) ∧
    (s.loop = .returned → countVal Conn.live s.connections = 0 →
      s.limiter.permits = limitOf maxConnections) := by
  have hp := permitted_run h
  rw [connectionLimiter_eq_some hcfg] at hp
  have hsum : s.limiter.permits + countVal Conn.live s.connections + s.loop.holds.toNat =
      limitOf maxConnections := by
    unfold Permitted Conserved at hp
    omega
  refine ⟨by omega, hsum, fun hl => ?_, fun hl hnone => ?_⟩
  · unfold Permitted at hp
    rw [hl] at hp
    have hacquire : (step cfg s .acquire).isSome = s.limiter.tryAcquire.isSome := by
      unfold step
      rw [hl]
      exact Option.isSome_map
    rw [hacquire]
    exact hp.tryAcquire_isSome
  · rw [hl, hnone] at hsum
    exact hsum

/-- Two connections at a limit of two: the loop waits. -/
theorem connections_within_limit_two :
    ∃ s, run (step ⟨true, 60, ⟨2⟩⟩) (init ⟨true, 60, ⟨2⟩⟩ 0)
      [.reap, .acquire, .accepted 0, .reap, .acquire, .accepted 1, .handshake 0 true, .reap] = some s ∧
    s.loop = .acquiring ∧ ((step ⟨true, 60, ⟨2⟩⟩ s .acquire).isSome = true ↔
      countVal Conn.live s.connections < limitOf 2) := by
  obtain ⟨s, hs, hl⟩ := exists_run (step ⟨true, 60, ⟨2⟩⟩) (init ⟨true, 60, ⟨2⟩⟩ 0)
    [.reap, .acquire, .accepted 0, .reap, .acquire, .accepted 1, .handshake 0 true, .reap]
    (fun s => s.loop = .acquiring) (by decide)
  exact ⟨s, hs, hl, (connections_within_limit ⟨true, 60, ⟨2⟩⟩ 2 0 s (by decide) ⟨_, hs⟩).2.2.1 hl⟩

/-- **Failing accepts never end the entry.** Each answer that is an error is counted and followed by a pause
that doubles with every further failure in a row, from 50 ms to a second: the next answer does not come before
it is over. However many there are, the loop ends for the shutdown only. -/
theorem accept_failures_only_pause (cfg : Config) (now : ℕ) (s : State)
    (h : Reaches (step cfg) (init cfg now) s) :
    s.acceptErrors = s.answers.countP Answer.failed ∧
    (∀ pre a b post, s.answers = pre ++ a :: b :: post → a.ok = false →
      a.time + min (fromMillis 50 * 2 ^ (streak Answer.failed (pre ++ [a]) - 1)) (fromSecs 1) ≤ b.time) ∧
    (s.loop = .returned → announced s.shutdown) := by
  have hc : Counted s := run_invariant (fun _ _ _ => counted_step) (counted_init cfg now) h
  refine ⟨hc.errors, hc.spaced, fun hl => ?_⟩
  have ha := alert_run h
  unfold Alert at ha
  rwa [if_pos hl] at ha

theorem accept_failures_only_pause_twice :
    ∃ s, run (step ⟨false, 60, ⟨1⟩⟩) (init ⟨false, 60, ⟨1⟩⟩ 0)
      [.reap, .acquire, .acceptFails, .tick (5 * 10 ^ 7), .slept, .reap, .acquire, .acceptFails,
       .tick (10 ^ 8), .slept, .reap, .acquire, .accepted 0] = some s ∧ s.acceptErrors = 2 ∧
    s.acceptErrors = s.answers.countP Answer.failed := by
  obtain ⟨s, hs, he⟩ := exists_run (step ⟨false, 60, ⟨1⟩⟩) (init ⟨false, 60, ⟨1⟩⟩ 0)
    [.reap, .acquire, .acceptFails, .tick (5 * 10 ^ 7), .slept, .reap, .acquire, .acceptFails,
     .tick (10 ^ 8), .slept, .reap, .acquire, .accepted 0]
    (fun s => s.acceptErrors = 2) (by decide +kernel)
  exact ⟨s, hs, he, (accept_failures_only_pause ⟨false, 60, ⟨1⟩⟩ 0 s ⟨_, hs⟩).1⟩

theorem stop_isSome {cfg : Config} {s : State} (h : s.loop.listens = true) :
    (step cfg s .stop).isSome = true ↔ s.shutdown.unseen = true ∨ s.shutdown.closed = true := by
  unfold step
  cases hc : s.shutdown.changed with
  | none =>
    unfold Watch.changed at hc
    split_ifs at hc with hu hcl
    simp [hu, hcl]
  | some p =>
    obtain ⟨ok, shutdown⟩ := p
    refine iff_of_true ?_ (changed_eq_some hc).1
    cases hs : s.loop <;> simp [hs, Loop.listens] at h ⊢

/-- **The entry stops at the shutdown and not before.** At each of its waits, for a permit, for a connection
or in a pause, the loop can return exactly when the shutdown is under way: an announcement is never missed.
Once it has returned it accepts nothing, and the connections that it had accepted are what is left; each can
be stopped as soon as the controller is gone. -/
theorem entry_stops_at_shutdown (cfg : Config) (now : ℕ) (s : State)
    (h : Reaches (step cfg) (init cfg now) s) :
    (s.loop.listens = true → ((step cfg s .stop).isSome = true ↔ announced s.shutdown)) ∧
    (s.loop = .returned → announced s.shutdown ∧ ∀ s', Reaches (step cfg) s s' →
      s'.loop = .returned ∧ s'.answers = s.answers ∧ Fewer s.connections s'.connections) ∧
    (s.shutdown.closed = true → ∀ i c, s.connections.lookup i = some c → c.live = true →
      (step cfg s (.hardStop i)).isSome = true) := by
  have ha := alert_run h
  refine ⟨fun hl => ?_, fun hl => ⟨?_, fun s' hs' => ?_⟩, fun hc i c hi hlive => ?_⟩
  · rw [alert_of_running (listens_ne_returned hl)] at ha
    rw [stop_isSome hl, ha]
    rfl
  · unfold Alert at ha
    rwa [if_pos hl] at ha
  · refine run_invariant (I := fun s' => s'.loop = .returned ∧ s'.answers = s.answers ∧
      Fewer s.connections s'.connections) ?_ ⟨hl, rfl, fun i c hi hc => ⟨c, hi, hc⟩⟩ hs'
    rintro s1 l s2 ⟨h1, hans, hfewer⟩ hstep
    obtain ⟨h2, hans2, hfewer2⟩ := returned_step h1 hstep
    refine ⟨h2, hans2.trans hans, fun i c hi hc => ?_⟩
    obtain ⟨c', hi', hc'⟩ := hfewer2 i c hi hc
    exact hfewer i c' hi' hc'
  · cases c <;> simp [step, hi, hc, Conn.live] at hlive ⊢

theorem entry_stops_at_shutdown_full :
    ∃ s, run (step ⟨false, 60, ⟨1⟩⟩) (init ⟨false, 60, ⟨1⟩⟩ 0)
      [.reap, .acquire, .accepted 0, .reap, .advance .draining] = some s ∧ s.loop.listens = true ∧
    ((step ⟨false, 60, ⟨1⟩⟩ s .stop).isSome = true ↔ announced s.shutdown) := by
  obtain ⟨s, hs, hl⟩ := exists_run (step ⟨false, 60, ⟨1⟩⟩) (init ⟨false, 60, ⟨1⟩⟩ 0)
    [.reap, .acquire, .accepted 0, .reap, .advance .draining] (fun s => s.loop.listens = true) (by decide)
  exact ⟨s, hs, hl, (entry_stops_at_shutdown ⟨false, 60, ⟨1⟩⟩ 0 s ⟨_, hs⟩).1 hl⟩

end HomeLlmGateway.Http.Entry
