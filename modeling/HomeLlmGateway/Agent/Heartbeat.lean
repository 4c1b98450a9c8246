import HomeLlmGateway.Lib.Streaks
import HomeLlmGateway.Agent.Backoff

/-! # The heartbeats of the agent

`heartbeat_loop` and `heartbeat_once` (`agent/src/session.rs`). Each round of the loop sleeps for the interval
and then makes one exchange with the gateway, which is cut off after `wait`, three intervals. The loop ends at
the second failure in a row, and in no other way.

The timers are exact: a sleep takes as long as it says, and besides the sleeps only the exchanges take time. -/

namespace HomeLlmGateway.Agent.Heartbeat

open HomeLlmGateway.Lib.Streaks
open HomeLlmGateway.Agent.Backoff (saturatingMul)

/-! ### One round -/

/-- `MAX_CONSECUTIVE_FAILURES`. -/
def maxConsecutiveFailures : ℕ := 2

/-- The exchange of a heartbeat, left to itself: after how long it ends and whether it succeeds, or `none` if
it never ends. -/
abbrev Exchange := Option (ℕ × Bool)

/-- The `wait` of `heartbeat_loop`. -/
def waitOf (interval : ℕ) : ℕ := saturatingMul interval 3

/-- `heartbeat_once`: how long it takes and whether it succeeds. -/
def heartbeatOnce (wait : ℕ) : Exchange → ℕ × Bool
  | some (took, ok) => if took ≤ wait then (took, ok) else (wait, false)
  | none => (wait, false)

/-- `failures` after an exchange; `none` where the loop returns. -/
def afterExchange (failures : ℕ) (ok : Bool) : Option ℕ :=
  if ok then some 0
  else if maxConsecutiveFailures ≤ failures + 1 then none
  else some (failures + 1)

/-! ### The loop -/

/-- A round that has been made: when its heartbeat was sent, when the exchange was over, and whether it
succeeded. -/
structure Round where
  sent : ℕ
  settled : ℕ
  ok : Bool
  deriving DecidableEq

structure State where
  now : ℕ
  failures : ℕ
  rounds : List Round
  returned : Bool
  deriving DecidableEq

def init (now : ℕ) : State := ⟨now, 0, [], false⟩

/-- One iteration of the loop. -/
def iteration (interval : ℕ) (s : State) (x : Exchange) : State :=
  if s.returned then s
  else
    let sent := s.now + interval
    let (took, ok) := heartbeatOnce (waitOf interval) x
    let rounds := s.rounds ++ [⟨sent, sent + took, ok⟩]
    match afterExchange s.failures ok with
    | some failures => ⟨sent + took, failures, rounds, false⟩
    | none => ⟨sent + took, s.failures + 1, rounds, true⟩

/-- `heartbeat_loop` from the time `now` on, as far as the exchanges go. -/
def heartbeatLoop (interval now : ℕ) (xs : List Exchange) : State := xs.foldl (iteration interval) (init now)

example : heartbeatLoop 5 0 [some (1, true), none, some (2, true), some (0, false), none, none] =
    ⟨58, 2, [⟨5, 6, true⟩, ⟨11, 26, false⟩, ⟨31, 33, true⟩, ⟨38, 38, false⟩, ⟨43, 58, false⟩], true⟩ := by
  decide

/-! ### When the loop returns -/

/-- The exchange counts as a failure: it ends with an error, or not in time. -/
def fails (interval : ℕ) (x : Exchange) : Bool := !(heartbeatOnce (waitOf interval) x).2

variable {interval now : ℕ} {xs : List Exchange}

theorem heartbeatLoop_concat (interval now : ℕ) (xs : List Exchange) (x : Exchange) :
    heartbeatLoop interval now (xs ++ [x]) = iteration interval (heartbeatLoop interval now xs) x := by
  simp [heartbeatLoop]

theorem iteration_returned {s : State} (h : s.returned = true) (x : Exchange) :
    iteration interval s x = s := by
  unfold iteration
  rw [if_pos h]

theorem returned_of_concat {x : Exchange} (h : (heartbeatLoop interval now (xs ++ [x])).returned = false) :
    (heartbeatLoop interval now xs).returned = false := by
  by_contra hr
  rw [Bool.not_eq_false] at hr
  rw [heartbeatLoop_concat, iteration_returned hr, hr] at h
  cases h

/-- The round that an iteration makes. -/
def roundOf (interval : ℕ) (s : State) (x : Exchange) : Round :=
  ⟨s.now + interval, s.now + interval + (heartbeatOnce (waitOf interval) x).1, !fails interval x⟩

theorem iteration_eq {s : State} (h : s.returned = false) (x : Exchange) :
    iteration interval s x =
      ⟨(roundOf interval s x).settled, if fails interval x then s.failures + 1 else 0,
       s.rounds ++ [roundOf interval s x], fails interval x && maxConsecutiveFailures ≤ s.failures + 1⟩ := by
  unfold iteration afterExchange roundOf fails
  rw [h, if_neg Bool.false_ne_true]
  cases hok : (heartbeatOnce (waitOf interval) x).2 with
  | true => simp [hok]
  | false =>
    by_cases hmax : maxConsecutiveFailures ≤ s.failures + 1
    · simp [hok, hmax]
    · simp [hok, hmax]

/-- As long as the loop goes on, `failures` is the streak of failures, and it has not reached the maximum. -/
theorem failures_eq_streak (interval now : ℕ) (xs : List Exchange)
    (h : (heartbeatLoop interval now xs).returned = false) :
    (heartbeatLoop interval now xs).failures = streak (fails interval) xs ∧
    streak (fails interval) xs < maxConsecutiveFailures := by
  induction xs using List.reverseRecOn with
  | nil => exact ⟨by simp [heartbeatLoop, init], by simp [maxConsecutiveFailures]⟩
  | append_singleton xs x ih =>
    have hgo := returned_of_concat h
    rw [heartbeatLoop_concat] at h ⊢
    obtain ⟨hf, -⟩ := ih hgo
    rw [iteration_eq hgo] at h ⊢
    rw [streak_concat, ← hf]
    cases hx : fails interval x with
    | false => simp [maxConsecutiveFailures]
    | true =>
      simp only [hx, Bool.true_and, decide_eq_false_iff_not, not_le] at h
      simpa using h

/-- A loop that has returned has done so after two failures, the first of which came when none was counted. -/
theorem exists_last_two (interval now : ℕ) (xs : List Exchange)
    (h : (heartbeatLoop interval now xs).returned = true) :
    ∃ pre x y post, xs = pre ++ x :: y :: post ∧ fails interval x = true ∧ fails interval y = true ∧
      (heartbeatLoop interval now pre).returned = false ∧
      (heartbeatLoop interval now pre).failures = 0 ∧
      heartbeatLoop interval now xs =
        iteration interval (iteration interval (heartbeatLoop interval now pre) x) y := by
  induction xs using List.reverseRecOn with
  | nil => simp [heartbeatLoop, init] at h
  | append_singleton xs y ih =>
    rw [heartbeatLoop_concat] at h ⊢
    cases hr : (heartbeatLoop interval now xs).returned with
    | true =>
      obtain ⟨pre, x, x', post, rfl, hx, hx', hpre, hf, heq⟩ := ih hr
      refine ⟨pre, x, x', post ++ [y], by simp, hx, hx', hpre, hf, ?_⟩
      rw [iteration_returned hr, heq]
    | false =>
      obtain ⟨hf, hlt⟩ := failures_eq_streak interval now xs hr
      rw [iteration_eq hr] at h
      simp only [Bool.and_eq_true, decide_eq_true_eq] at h
      obtain ⟨hy, hmax⟩ := h
      rw [hf] at hmax
      rcases List.eq_nil_or_concat' xs with rfl | ⟨pre, x, rfl⟩
      · simp [maxConsecutiveFailures] at hmax
      · rw [streak_concat] at hmax hlt
        have hpre := returned_of_concat hr
        obtain ⟨hf', -⟩ := failures_eq_streak interval now pre hpre
        unfold maxConsecutiveFailures at hmax hlt
        split_ifs at hmax hlt with hx
        · refine ⟨pre, x, y, [], by simp, hx, hy, hpre, by rw [hf']; omega, ?_⟩
          rw [heartbeatLoop_concat]
        · omega

theorem now_eq_lastSettled (h : (heartbeatLoop interval now xs).returned = false)
    (hf : (heartbeatLoop interval now xs).failures = 0) :
    (heartbeatLoop interval now xs).now =
      ((heartbeatLoop interval now xs).rounds.getLast?.elim now Round.settled) ∧
    ∀ r, (heartbeatLoop interval now xs).rounds.getLast? = some r → r.ok = true := by
  rcases List.eq_nil_or_concat' xs with rfl | ⟨pre, x, rfl⟩
  · simp [heartbeatLoop, init]
  · have hpre := returned_of_concat h
    rw [heartbeatLoop_concat, iteration_eq hpre] at hf
    rw [heartbeatLoop_concat, iteration_eq hpre]
    have hx : fails interval x = false := by
      cases hx : fails interval x with
      | false => rfl
      | true => simp [hx] at hf
    simp [roundOf, hx]

theorem map_ok_rounds (interval now : ℕ) (xs : List Exchange)
    (h : (heartbeatLoop interval now xs).returned = false) :
    (heartbeatLoop interval now xs).rounds.map (fun r => !r.ok) = xs.map (fails interval) := by
  induction xs using List.reverseRecOn with
  | nil => rfl
  | append_singleton xs x ih =>
    have hgo := returned_of_concat h
    rw [heartbeatLoop_concat, iteration_eq hgo, List.map_append, List.map_append, ih hgo]
    simp [roundOf]

theorem returned_append {ys : List Exchange} (h : (heartbeatLoop interval now xs).returned = true) :
    heartbeatLoop interval now (xs ++ ys) = heartbeatLoop interval now xs := by
  induction ys using List.reverseRecOn with
  | nil => rw [List.append_nil]
  | append_singleton ys y ih =>
    rw [← List.append_assoc, heartbeatLoop_concat, ih, iteration_returned h]

theorem returned_iff (interval now : ℕ) (xs : List Exchange) :
    (heartbeatLoop interval now xs).returned = true ↔ TwoInARow (fails interval) xs := by
  constructor
  · intro h
    obtain ⟨pre, x, y, post, hxs, hx, hy, -⟩ := exists_last_two interval now xs h
    exact ⟨pre, x, y, post, hxs, hx, hy⟩
  · intro h
    obtain ⟨pre, ⟨post, rfl⟩, hstreak⟩ := twoInARow_iff.mp h
    have hpre : (heartbeatLoop interval now pre).returned = true := by
      cases hr : (heartbeatLoop interval now pre).returned with
      | true => rfl
      | false =>
        have hlt : streak (fails interval) pre < 2 := (failures_eq_streak interval now _ hr).2
        omega
    rw [returned_append hpre, hpre]

theorem heartbeatOnce_le (wait : ℕ) (x : Exchange) : (heartbeatOnce wait x).1 ≤ wait := by
  unfold heartbeatOnce
  split
  · split_ifs with h
    · exact h
    · exact le_refl wait
  · exact le_refl wait

/-- **When the agent gives a session up for its heartbeats.** The loop returns exactly when two exchanges in
a row fail, whether by an error or by the time limit. The heartbeats it has sent by then end with these two,
no two before them failed in a row, and the last of them is over within two intervals and two waits of the
last exchange that succeeded (or of the start): just so long if neither failed before its time limit. -/
theorem heartbeat_loop_gives_up (interval now : ℕ) (xs : List Exchange) :
    ((heartbeatLoop interval now xs).returned = true ↔ TwoInARow (fails interval) xs) ∧
    ((heartbeatLoop interval now xs).returned = true → ∃ rs a b,
      (heartbeatLoop interval now xs).rounds = rs ++ [a, b] ∧ a.ok = false ∧ b.ok = false ∧
      ¬ TwoInARow (fun r : Round => !r.ok) (rs ++ [a]) ∧
      (∀ r, rs.getLast? = some r → r.ok = true) ∧
      b.settled ≤ rs.getLast?.elim now Round.settled + 2 * (interval + waitOf interval) ∧
      (b.settled = rs.getLast?.elim now Round.settled + 2 * (interval + waitOf interval) ↔
        a.settled = a.sent + waitOf interval ∧ b.settled = b.sent + waitOf interval)) := by
  refine ⟨returned_iff interval now xs, fun h => ?_⟩
  obtain ⟨pre, x, y, post, -, hx, hy, hpre, hf, heq⟩ := exists_last_two interval now xs h
  obtain ⟨hnow, hlast⟩ := now_eq_lastSettled hpre hf
  have hx1 : (heartbeatLoop interval now (pre ++ [x])).returned = false := by
    rw [heartbeatLoop_concat, iteration_eq hpre, hf]
    simp [maxConsecutiveFailures]
  have hlone : ¬ TwoInARow (fails interval) (pre ++ [x]) := by
    intro h2
    rw [(returned_iff interval now _).mpr h2] at hx1
    cases hx1
  rw [← twoInARow_map (map_ok_rounds interval now (pre ++ [x]) hx1)] at hlone
  rw [heq]
  rw [heartbeatLoop_concat] at hlone hx1
  generalize heartbeatLoop interval now pre = s at hpre hf hnow hlast hlone hx1 ⊢
  rw [iteration_eq hx1]
  rw [iteration_eq hpre] at hlone ⊢
  refine ⟨s.rounds, roundOf interval s x, _, List.append_assoc _ _ _, ?_, ?_, hlone, hlast, ?_⟩
  · simp [roundOf, hx]
  · simp [roundOf, hy]
  · have hxle := heartbeatOnce_le (waitOf interval) x
    have hyle := heartbeatOnce_le (waitOf interval) y
    rw [← hnow]
    simp only [roundOf]
    omega

end HomeLlmGateway.Agent.Heartbeat
