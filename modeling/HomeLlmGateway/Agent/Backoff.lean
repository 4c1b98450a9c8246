import Mathlib.Data.Nat.Basic
import Mathlib.Data.List.Basic
import Mathlib.Tactic

/-! # The reconnect backoff

How long the agent sleeps between two sessions (`agent/src/backoff.rs`, and the loop of `run` in
`agent/src/session.rs`). `next_backoff` doubles the nominal length up to a cap, and goes back to the base
after a session of a minute; `jittered` makes the actual sleep from the nominal one.

The loop updates the backoff after the sleep. The sleep after a session therefore has the nominal length
that the sessions before it have led to (`backoffAfter_eq`), also where the session itself was a long one:
`backoff_kept_iff` says for which sequences of sessions this makes no difference. -/

namespace HomeLlmGateway.Agent.Backoff

/-! ### Durations

A `std::time::Duration` is its number of nanoseconds. -/

/-- `Duration::MAX`: the seconds have 64 bits. -/
def durationMax : ℕ := (2 ^ 64 - 1) * 10 ^ 9 + 999999999

def fromMillis (n : ℕ) : ℕ := n * 10 ^ 6

def fromSecs (n : ℕ) : ℕ := n * 10 ^ 9

def fromMicros (n : ℕ) : ℕ := n * 10 ^ 3

def asMicros (d : ℕ) : ℕ := d / 10 ^ 3

def saturatingMul (d : ℕ) (n : ℕ) : ℕ := min (d * n) durationMax

/-! ### The policy -/

/-- `BACKOFF_BASE`. -/
def backoffBase : ℕ := fromMillis 500

/-- `BACKOFF_MAX`. -/
def backoffMax : ℕ := fromSecs 30

/-- `BACKOFF_RESET_AFTER`: how long a session lives that counts as healthy. -/
def backoffResetAfter : ℕ := fromSecs 60

/-- `BACKOFF_JITTER_PERCENT`. -/
def backoffJitterPercent : UInt64 := 20

/-- `next_backoff`. -/
def nextBackoff (current sessionAlive : ℕ) : ℕ :=
  if backoffResetAfter ≤ sessionAlive then backoffBase
  else min (saturatingMul current 2) backoffMax

/-- The percentage that `jittered` draws. -/
def percent (entropy : UInt64) : UInt64 :=
  100 - backoffJitterPercent + entropy % (backoffJitterPercent * 2 + 1)

/-- The microseconds of `jittered`: the product is a `u128`. -/
def jitteredMicros (backoff : ℕ) (entropy : UInt64) : ℕ :=
  asMicros backoff * (percent entropy).toNat % 2 ^ 128 / 100

/-- `jittered`: the microseconds are cast to `u64`. -/
def jittered (backoff : ℕ) (entropy : UInt64) : ℕ :=
  min (fromMicros (jitteredMicros backoff entropy % 2 ^ 64)) backoffMax

/-! ### The loop -/

/-- A session: how long it lived, and the entropy drawn after it. -/
structure Session where
  alive : ℕ
  entropy : UInt64
  deriving DecidableEq

/-- A sleep of the loop: its nominal length and the actual one. -/
structure Sleep where
  nominal : ℕ
  wait : ℕ
  deriving DecidableEq

/-- The loop of `run` with the value of `backoff`: one sleep after each session. -/
def sleeps (backoff : ℕ) : List Session → List Sleep
  | [] => []
  | x :: xs => ⟨backoff, jittered backoff x.entropy⟩ :: sleeps (nextBackoff backoff x.alive) xs

/-- `run` starts with the base. -/
def run (sessions : List Session) : List Sleep := sleeps backoffBase sessions

/-- `backoff` after some sessions. -/
def backoffAfter (sessions : List Session) : ℕ :=
  sessions.foldl (fun backoff x => nextBackoff backoff x.alive) backoffBase

theorem backoffAfter_concat (xs : List Session) (x : Session) :
    backoffAfter (xs ++ [x]) = nextBackoff (backoffAfter xs) x.alive := by
  simp [backoffAfter]

theorem getElem?_sleeps : ∀ (xs : List Session) (backoff : ℕ) (i : ℕ),
    (sleeps backoff xs)[i]? = xs[i]?.map fun x =>
      let b := (xs.take i).foldl (fun backoff x => nextBackoff backoff x.alive) backoff
      ⟨b, jittered b x.entropy⟩
  | [], _, _ => by simp [sleeps]
  | _ :: _, _, 0 => by simp [sleeps]
  | x :: xs, backoff, i + 1 => by
    simpa [sleeps] using getElem?_sleeps xs (nextBackoff backoff x.alive) i

/-- The sleep after a session is made from what the sessions before it left in `backoff`. -/
theorem getElem?_run (xs : List Session) (i : ℕ) : (run xs)[i]? = xs[i]?.map fun x =>
    ⟨backoffAfter (xs.take i), jittered (backoffAfter (xs.take i)) x.entropy⟩ :=
  getElem?_sleeps xs backoffBase i

/-! ### The nominal length -/

/-- A session of at least a minute. -/
def Session.healthy (x : Session) : Bool := backoffResetAfter ≤ x.alive

/-- How many sessions at the end, one after the other, were shorter than a minute. -/
def shortStreak (xs : List Session) : ℕ :=
  xs.foldl (fun k x => if x.healthy then 0 else k + 1) 0

theorem shortStreak_concat (xs : List Session) (x : Session) :
    shortStreak (xs ++ [x]) = if x.healthy then 0 else shortStreak xs + 1 := by
  simp [shortStreak]

/-- The base, doubled `k` times and capped. -/
def doubled (k : ℕ) : ℕ := min (backoffBase * 2 ^ k) backoffMax

theorem doubled_zero : doubled 0 = backoffBase := by decide

theorem doubled_le (k : ℕ) : doubled k ≤ backoffMax := min_le_right _ _

theorem doubled_eq_base_iff {k : ℕ} : doubled k = backoffBase ↔ k = 0 := by
  constructor
  · intro h
    by_contra hk
    obtain ⟨n, rfl⟩ := Nat.exists_eq_succ_of_ne_zero hk
    have hpow : 1 ≤ 2 ^ n := Nat.one_le_two_pow
    simp only [doubled, backoffBase, backoffMax, fromMillis, fromSecs, pow_succ] at h
    omega
  · rintro rfl
    exact doubled_zero

theorem nextBackoff_doubled (k : ℕ) (x : Session) :
    nextBackoff (doubled k) x.alive = doubled (if x.healthy then 0 else k + 1) := by
  unfold nextBackoff Session.healthy
  by_cases hx : backoffResetAfter ≤ x.alive
  · simp [hx, doubled_zero]
  · simp only [hx, if_false, decide_false, Bool.false_eq_true]
    have hpow : 1 ≤ 2 ^ k := Nat.one_le_two_pow
    simp only [saturatingMul, doubled, durationMax, backoffBase, backoffMax, fromMillis, fromSecs, pow_succ]
    omega

/-- **`backoff` along a run**: it counts the short sessions since the last healthy one. -/
theorem backoffAfter_eq (xs : List Session) : backoffAfter xs = doubled (shortStreak xs) := by
  induction xs using List.reverseRecOn with
  | nil => exact doubled_zero.symm
  | append_singleton xs x ih => rw [backoffAfter_concat, ih, nextBackoff_doubled, shortStreak_concat]

/-! ### The actual length -/

theorem percent_bounds (entropy : UInt64) :
    80 ≤ (percent entropy).toNat ∧ (percent entropy).toNat ≤ 120 := by
  have hmod : (entropy % 41).toNat < 41 := by
    rw [UInt64.toNat_mod]
    exact Nat.mod_lt _ (by decide)
  have hsum : (percent entropy).toNat = 80 + (entropy % 41).toNat := by
    show (80 + entropy % 41).toNat = _
    rw [UInt64.toNat_add]
    exact Nat.mod_eq_of_lt (by simp only [UInt64.reduceToNat]; omega)
  omega

/-- No intermediate value of the loop is cut off: neither the doubling nor the product saturates or
wraps, and the microseconds fit into a `u64`. -/
structure Exact (nominal : ℕ) (entropy : UInt64) : Prop where
  doubling : nominal * 2 ≤ durationMax
  product : asMicros nominal * (percent entropy).toNat < 2 ^ 128
  micros : jitteredMicros nominal entropy < 2 ^ 64

/-- The actual sleep is within the bounds of its nominal length. -/
structure Within (nominal wait : ℕ) : Prop where
  lower : nominal * 80 ≤ wait * 100
  upper : wait * 100 ≤ nominal * 120
  cap : wait ≤ backoffMax

theorem exact_of_le {nominal : ℕ} (h : nominal ≤ backoffMax) (entropy : UInt64) :
    Exact nominal entropy := by
  obtain ⟨-, hp⟩ := percent_bounds entropy
  have hmax : nominal ≤ 30 * 10 ^ 9 := h
  have hmicros : asMicros nominal ≤ 30 * 10 ^ 6 := by unfold asMicros; omega
  have hprod : asMicros nominal * (percent entropy).toNat ≤ 30 * 10 ^ 6 * 120 := Nat.mul_le_mul hmicros hp
  refine ⟨?_, by omega, ?_⟩
  · unfold durationMax
    omega
  · unfold jitteredMicros
    rw [Nat.mod_eq_of_lt (by omega)]
    omega

/-- A whole number of milliseconds is jittered without a rounding below the bounds. -/
theorem within_jittered {m : ℕ} (hm : fromMillis m ≤ backoffMax) (entropy : UInt64) :
    Within (fromMillis m) (jittered (fromMillis m) entropy) := by
  obtain ⟨hlow, hhigh⟩ := percent_bounds entropy
  have hexact := exact_of_le hm entropy
  have hmicros : asMicros (fromMillis m) = m * 1000 := by unfold asMicros fromMillis; omega
  have hval : jitteredMicros (fromMillis m) entropy = m * 10 * (percent entropy).toNat := by
    unfold jitteredMicros
    rw [Nat.mod_eq_of_lt hexact.product, hmicros]
    have : m * 1000 * (percent entropy).toNat = m * 10 * (percent entropy).toNat * 100 := by ring
    omega
  have h80 : m * 10 * 80 ≤ m * 10 * (percent entropy).toNat := Nat.mul_le_mul_left _ hlow
  have h120 : m * 10 * (percent entropy).toNat ≤ m * 10 * 120 := Nat.mul_le_mul_left _ hhigh
  have hfit : m * 10 * (percent entropy).toNat < 2 ^ 64 := hval ▸ hexact.micros
  unfold jittered
  rw [hval, Nat.mod_eq_of_lt hfit]
  simp only [fromMillis, fromMicros, backoffMax, fromSecs] at hm ⊢
  constructor
  · omega
  · omega
  · exact min_le_right _ _

theorem doubled_eq_fromMillis (k : ℕ) : doubled k = fromMillis (min (500 * 2 ^ k) 30000) := by
  simp only [doubled, backoffBase, backoffMax, fromMillis, fromSecs]
  omega

/-! ### What the backoff promises -/

/-- The nominal length that is promised for the sleep after the session `x`: the base after a healthy one,
and after the `k`-th short one in a row the base doubled `k - 1` times. -/
def promised (before : List Session) (x : Session) : ℕ :=
  if x.healthy then backoffBase else doubled (shortStreak (before ++ [x]) - 1)

/-- Every sleep of the loop is as promised. -/
def Kept (sessions : List Session) : Prop :=
  ∀ i x, sessions[i]? = some x → ∃ sleep, (run sessions)[i]? = some sleep ∧
    sleep.nominal = promised (sessions.take i) x ∧ Within sleep.nominal sleep.wait ∧
    Exact sleep.nominal x.entropy

/-- No healthy session comes right after a short one. -/
def NoRecovery (sessions : List Session) : Prop :=
  ∀ i x y, sessions[i]? = some x → sessions[i + 1]? = some y → x.healthy = false → y.healthy = false

theorem backoffAfter_eq_promised_iff (before : List Session) (x : Session) :
    backoffAfter before = promised before x ↔ (x.healthy = true → shortStreak before = 0) := by
  rw [backoffAfter_eq, promised, shortStreak_concat]
  cases hx : x.healthy with
  | true => simp [doubled_eq_base_iff]
  | false => simp

/-- The streak before a session is empty iff it is the first one or comes after a healthy one. -/
theorem shortStreak_take_eq_zero_iff {sessions : List Session} {i : ℕ} {y : Session}
    (hy : sessions[i]? = some y) : shortStreak (sessions.take i) = 0 ↔
      ∀ j x, i = j + 1 → sessions[j]? = some x → x.healthy = true := by
  cases i with
  | zero => simp [shortStreak]
  | succ j =>
    have hj : j < sessions.length := by
      have := (List.getElem?_eq_some_iff.mp hy).1
      omega
    rw [List.take_add_one, List.getElem?_eq_getElem hj, Option.toList_some, shortStreak_concat]
    constructor
    · intro h k x hk hx
      have hkj : j = k := by omega
      subst hkj
      rw [List.getElem?_eq_getElem hj, Option.some.injEq] at hx
      subst hx
      by_contra hshort
      simp [hshort] at h
    · intro h
      simp [h j _ rfl (List.getElem?_eq_getElem hj)]

/-- **The reconnect backoff.** The sleeps of the loop are as promised, after every session, exactly if no
session of a minute or more comes right after a shorter one. -/
theorem backoff_kept_iff (sessions : List Session) : Kept sessions ↔ NoRecovery sessions := by
  have hnominal : ∀ i y, sessions[i]? = some y →
      (backoffAfter (sessions.take i) = promised (sessions.take i) y ↔
        (y.healthy = true → ∀ j x, i = j + 1 → sessions[j]? = some x → x.healthy = true)) := by
    intro i y hy
    rw [backoffAfter_eq_promised_iff, shortStreak_take_eq_zero_iff hy]
  constructor
  · intro h i x y hx hy hshort
    obtain ⟨sleep, hs, hprom, -⟩ := h (i + 1) y hy
    rw [getElem?_run, hy, Option.map_some, Option.some.injEq] at hs
    subst hs
    by_contra hhealthy
    have hx' := (hnominal (i + 1) y hy).mp hprom (by simpa using hhealthy) i x rfl hx
    rw [hshort] at hx'
    cases hx'
  · intro h i y hy
    refine ⟨_, by rw [getElem?_run, hy, Option.map_some], ?_, ?_, ?_⟩
    · refine (hnominal i y hy).mpr fun hhealthy j x hij hx => ?_
      by_contra hshort
      subst hij
      have := h j x y hx hy (by simpa using hshort)
      rw [hhealthy] at this
      cases this
    · dsimp only
      rw [backoffAfter_eq, doubled_eq_fromMillis]
      exact within_jittered (doubled_eq_fromMillis _ ▸ doubled_le _) _
    · dsimp only
      rw [backoffAfter_eq]
      exact exact_of_le (doubled_le _) _

/-- A session of a second and then one of a minute: the sleep after the second one has the nominal length
of a second, not of half a second. -/
theorem backoff_not_kept : ¬ Kept [⟨fromSecs 1, 0⟩, ⟨fromSecs 60, 0⟩] := by
  intro h
  obtain ⟨sleep, hs, hprom, -⟩ := h 1 ⟨fromSecs 60, 0⟩ rfl
  have hrun : (run [⟨fromSecs 1, 0⟩, ⟨fromSecs 60, 0⟩])[1]? = some ⟨fromSecs 1, fromMillis 800⟩ := by
    decide +kernel
  rw [hrun, Option.some.injEq] at hs
  subst hs
  exact absurd hprom (by decide)

end HomeLlmGateway.Agent.Backoff
