import HomeLlmGateway.Lib.Assoc
import HomeLlmGateway.Lib.TokenBucket
import Mathlib.Data.Rat.Floor

/-! # Rate limits

The two limiters of `gateway/src/ratelimit.rs`, over exact rationals: `RateLimiter`, with one quota for all
API keys and a sweep over idle buckets, and `TenantRateLimiter`, which is told the quota by each call. Both
keep a table of token buckets, made full when they are first asked for, and refill a bucket only when it is
asked for again.

On the calls for one key a limiter follows a meter (`follows_rateLimiter`, `follows_tenantRateLimiter`): the
level of a bucket that is not in the table is the capacity, so that a sweep, which drops full buckets only,
changes no level. `rate_limits_correct` says what comes of this. -/

namespace HomeLlmGateway.Gateway.RateLimit

open HomeLlmGateway.Lib.Assoc HomeLlmGateway.Lib.TokenBucket

/-! ### Buckets -/

/-- `Bucket`. Times are in seconds. -/
structure Bucket where
  tokens : ℚ
  updated : ℚ
  deriving DecidableEq

/-- The tokens at a later time. -/
def Bucket.refilled (b : Bucket) (capacity refillPerSec now : ℚ) : ℚ :=
  min (b.tokens + (now - b.updated) * refillPerSec) capacity

/-- A table of buckets. -/
abbrev Buckets := HashMap String Bucket

/-- What `try_acquire` of both limiters does to the bucket of the key. -/
def acquire (map : Buckets) (capacity refillPerSec : ℚ) (key : String) (now : ℚ) : Buckets × Bool :=
  let bucket := (map.lookup key).getD ⟨capacity, now⟩
  let tokens := bucket.refilled capacity refillPerSec now
  if 1 ≤ tokens then (map.insert key ⟨tokens - 1, now⟩, true) else (map.insert key ⟨tokens, now⟩, false)

/-! ### The limiter of the API keys -/

/-- `IDLE_BUCKET_TTL`. -/
def idleBucketTtl : ℚ := 10 * 60

/-- `SWEEP_PERIOD`. -/
def sweepPeriod : ℚ := 60

/-- `RateLimiter`. -/
structure RateLimiter where
  map : Buckets
  lastSweep : Option ℚ
  capacity : ℚ
  refillPerSec : ℚ

namespace RateLimiter

/-- `RateLimiter::new`. -/
def new (perMinute : UInt32) : Option RateLimiter :=
  if perMinute = 0 then none
  else some ⟨∅, none, perMinute.toNat, perMinute.toNat / 60⟩

/-- `Buckets::sweep`: only full buckets that are idle are dropped. -/
def sweep (l : RateLimiter) (now : ℚ) : RateLimiter :=
  { l with
    map := retain (fun _ b => now - b.updated < idleBucketTtl ||
      b.refilled l.capacity l.refillPerSec now < l.capacity) l.map
    lastSweep := some now }

/-- Whether `try_acquire` sweeps. -/
def sweepDue (l : RateLimiter) (now : ℚ) : Bool :=
  match l.lastSweep with
  | none => true
  | some t => sweepPeriod ≤ now - t

/-- `try_acquire` without the sweep. -/
def acquire (l : RateLimiter) (key : String) (now : ℚ) : RateLimiter × Bool :=
  let (map, allowed) := RateLimit.acquire l.map l.capacity l.refillPerSec key now
  ({ l with map := map }, allowed)

/-- `try_acquire`. -/
def tryAcquire (l : RateLimiter) (key : String) (now : ℚ) : RateLimiter × Bool :=
  let (l, allowed) := l.acquire key now
  (if l.sweepDue now then l.sweep now else l, allowed)

/-- `retry_after_secs`. -/
def retryAfterSecs (l : RateLimiter) : ℕ :=
  if l.refillPerSec ≤ 0 then 1 else max ⌈1 / l.refillPerSec⌉₊ 1

end RateLimiter

/-! ### The limiter of the tenants -/

/-- `TenantRateLimiter`. -/
structure TenantRateLimiter where
  map : Buckets

namespace TenantRateLimiter

/-- `TenantRateLimiter::new`. -/
def new : TenantRateLimiter := ⟨∅⟩

/-- `try_acquire`: without a quota there is no bucket. -/
def tryAcquire (l : TenantRateLimiter) (tenantId : String) (perMinute : UInt32) (now : ℚ) :
    TenantRateLimiter × Bool :=
  if perMinute = 0 then (l, true)
  else
    let (map, allowed) := RateLimit.acquire l.map perMinute.toNat (perMinute.toNat / 60) tenantId now
    (⟨map⟩, allowed)

/-- `retry_after_secs`. -/
def retryAfterSecs (perMinute : UInt32) : ℕ :=
  if perMinute = 0 then 1 else max ⌈(60 / perMinute.toNat : ℚ)⌉₊ 1

end TenantRateLimiter

/-! ### Levels -/

/-- The tokens that a key has at a time; a key without a bucket gets a full one. -/
def levelOf (map : Buckets) (capacity refillPerSec : ℚ) (key : String) (t : ℚ) : ℚ :=
  match map.lookup key with
  | none => capacity
  | some b => b.refilled capacity refillPerSec t

section levels

variable {map : Buckets} {capacity rate x now : ℚ} {key : String}

theorem levelOf_le (map : Buckets) (capacity rate : ℚ) (key : String) (t : ℚ) :
    levelOf map capacity rate key t ≤ capacity := by
  unfold levelOf
  split
  · exact le_rfl
  · exact min_le_right _ _

theorem levelOf_later (hrate : 0 ≤ rate) (hx : x ≤ now) (key : String) :
    levelOf map capacity rate key now = refill capacity rate (levelOf map capacity rate key x) (now - x) := by
  unfold levelOf
  split
  · exact (refill_full hrate (sub_nonneg.mpr hx)).symm
  · next b hb =>
    show refill capacity rate b.tokens (now - b.updated) =
      refill capacity rate (refill capacity rate b.tokens (x - b.updated)) (now - x)
    rw [refill_refill hrate (sub_nonneg.mpr hx)]
    congr 1
    ring

theorem levelOf_insert_self {tokens : ℚ} (h : tokens ≤ capacity) :
    levelOf (map.insert key ⟨tokens, now⟩) capacity rate key now = tokens := by
  simp [levelOf, Bucket.refilled, h]

theorem levelOf_insert_of_ne {k : String} (hk : k ≠ key) (b : Bucket) (t : ℚ) :
    levelOf (map.insert key b) capacity rate k t = levelOf map capacity rate k t := by
  simp [levelOf, hk]

/-- **A call**: it is admitted if its key has a token, and takes one. -/
theorem acquire_eq (map : Buckets) (capacity rate : ℚ) (key : String) (now : ℚ) :
    acquire map capacity rate key now =
      if 1 ≤ levelOf map capacity rate key now then
        (map.insert key ⟨levelOf map capacity rate key now - 1, now⟩, true)
      else (map.insert key ⟨levelOf map capacity rate key now, now⟩, false) := by
  have hfound : ((map.lookup key).getD ⟨capacity, now⟩).refilled capacity rate now =
      levelOf map capacity rate key now := by
    unfold levelOf
    cases map.lookup key with
    | none => simp [Bucket.refilled]
    | some b => rfl
  unfold acquire
  dsimp only
  rw [hfound]

/-- A call takes a token of its own key if it is admitted, and nothing otherwise. -/
theorem levelOf_acquire_self (map : Buckets) (capacity rate : ℚ) (key : String) (now : ℚ) :
    levelOf (acquire map capacity rate key now).1 capacity rate key now =
      levelOf map capacity rate key now - if (acquire map capacity rate key now).2 = true then 1 else 0 := by
  have hle := levelOf_le map capacity rate key now
  rw [acquire_eq]
  by_cases hone : 1 ≤ levelOf map capacity rate key now
  · simp only [if_pos hone, if_true]
    exact levelOf_insert_self (by linarith)
  · simp only [if_neg hone, Bool.false_eq_true, if_false, sub_zero]
    exact levelOf_insert_self hle

/-- It touches no other bucket. -/
theorem lookup_acquire_of_ne {k : String} (hk : k ≠ key) (c r : ℚ) :
    (acquire map c r key now).1.lookup k = map.lookup k := by
  rw [acquire_eq]
  split_ifs
  · exact AList.lookup_insert_ne hk
  · exact AList.lookup_insert_ne hk

theorem levelOf_acquire_of_ne {k : String} (hk : k ≠ key) (c r t : ℚ) :
    levelOf (acquire map c r key now).1 capacity rate k t = levelOf map capacity rate k t := by
  unfold levelOf
  rw [lookup_acquire_of_ne hk]

/-- A sweep changes no level. -/
theorem levelOf_sweep {l : RateLimiter} (hrate : 0 ≤ l.refillPerSec) (key : String) {t : ℚ} (ht : now ≤ t) :
    levelOf (l.sweep now).map l.capacity l.refillPerSec key t =
      levelOf l.map l.capacity l.refillPerSec key t := by
  have hnow : levelOf (l.sweep now).map l.capacity l.refillPerSec key now =
      levelOf l.map l.capacity l.refillPerSec key now := by
    simp only [levelOf, RateLimiter.sweep, lookup_retain]
    cases hl : l.map.lookup key with
    | none => rfl
    | some b =>
      rw [Option.filter_some]
      split_ifs with hkeep
      · rfl
      · -- the bucket that is dropped is full
        simp only [Bool.or_eq_true, decide_eq_true_eq, not_or, not_lt] at hkeep
        exact le_antisymm hkeep.2 (min_le_right _ _)
  rw [levelOf_later hrate ht, hnow, ← levelOf_later hrate ht]

end levels

/-! ### Following a meter -/

/-- From the time `x` on, the level of the key is that of the meter. -/
structure Tracks (capacity rate : ℚ) (key : String) (map : Buckets) (m : Meter ℚ) (x : ℚ) : Prop where
  time_le : m.time ≤ x
  level : levelOf map capacity rate key x = m.levelAt capacity rate x

section tracks

variable {map : Buckets} {capacity rate x now : ℚ} {key : String} {m : Meter ℚ}

theorem tracks_empty (h : 0 ≤ rate) (x : ℚ) : Tracks capacity rate key ∅ ⟨x, capacity⟩ x := by
  refine ⟨le_rfl, ?_⟩
  unfold Meter.levelAt
  rw [refill_full h (by simp)]
  rfl

theorem Tracks.later (h : Tracks capacity rate key map m x) (hrate : 0 ≤ rate) (hx : x ≤ now) :
    Tracks capacity rate key map m now := by
  refine ⟨h.time_le.trans hx, ?_⟩
  rw [levelOf_later hrate hx, h.level]
  unfold Meter.levelAt
  rw [refill_refill hrate (sub_nonneg.mpr hx)]
  congr 1
  ring

theorem Tracks.acquire (h : Tracks capacity rate key map m now) :
    (acquire map capacity rate key now).2 = (m.take capacity rate now).2 ∧
      Tracks capacity rate key (acquire map capacity rate key now).1 (m.take capacity rate now).1 now := by
  have hle := levelOf_le map capacity rate key now
  have hlevel := h.level
  rw [acquire_eq]
  unfold Meter.take
  rw [← hlevel]
  split_ifs with hone
  · have htaken : levelOf map capacity rate key now - 1 ≤ capacity := by linarith
    refine ⟨rfl, le_rfl, ?_⟩
    rw [levelOf_insert_self htaken]
    unfold Meter.levelAt
    rw [sub_self, refill_zero htaken]
  · refine ⟨rfl, le_rfl, ?_⟩
    rw [levelOf_insert_self hle]
    unfold Meter.levelAt
    rw [sub_self, refill_zero hle]

theorem Tracks.acquire_other (h : Tracks capacity rate key map m now) {k : String} (hk : k ≠ key)
    (c r : ℚ) : Tracks capacity rate key (RateLimit.acquire map c r k now).1 m now := by
  refine ⟨h.time_le, ?_⟩
  rw [levelOf_acquire_of_ne (Ne.symm hk), h.level]

end tracks

/-! ### The calls -/

/-- A call of `try_acquire` for a key or a tenant, with the time of it. -/
structure Call where
  key : String
  time : ℚ
  deriving DecidableEq

def RateLimiter.step (l : RateLimiter) (c : Call) : RateLimiter × Bool := l.tryAcquire c.key c.time

/-- A limiter that never sweeps. -/
def RateLimiter.stepUnswept (l : RateLimiter) (c : Call) : RateLimiter × Bool := l.acquire c.key c.time

/-- The tenants have constant quotas. -/
def TenantRateLimiter.step (quota : String → UInt32) (l : TenantRateLimiter) (c : Call) :
    TenantRateLimiter × Bool :=
  l.tryAcquire c.key (quota c.key) c.time

/-- The calls for a key. -/
def isFor (key : String) (c : Call) : Bool := c.key = key

section following

variable {capacity rate : ℚ}

theorem capacity_step (l : RateLimiter) (c : Call) :
    (l.step c).1.capacity = l.capacity ∧ (l.step c).1.refillPerSec = l.refillPerSec := by
  unfold RateLimiter.step RateLimiter.tryAcquire
  dsimp only
  split_ifs
  · exact ⟨rfl, rfl⟩
  · exact ⟨rfl, rfl⟩

theorem levelOf_step (l : RateLimiter) (hrate : 0 ≤ l.refillPerSec) (c : Call) (key : String) {t : ℚ}
    (ht : c.time ≤ t) : levelOf (l.step c).1.map l.capacity l.refillPerSec key t =
      levelOf (l.stepUnswept c).1.map l.capacity l.refillPerSec key t := by
  unfold RateLimiter.step RateLimiter.tryAcquire
  dsimp only
  split_ifs
  · exact levelOf_sweep (l := (l.stepUnswept c).1) hrate key ht
  · rfl

/-- The limiter has this quota, and from the time `x` on the level of the key is that of the meter. -/
def FollowsKey (capacity rate : ℚ) (key : String) (l : RateLimiter) (m : Meter ℚ) (x : ℚ) : Prop :=
  (l.capacity = capacity ∧ l.refillPerSec = rate) ∧ Tracks capacity rate key l.map m x

theorem followsKey_step (hrate : 0 ≤ rate) {key : String} {l : RateLimiter} {m : Meter ℚ} {c : Call}
    (hl : l.capacity = capacity ∧ l.refillPerSec = rate)
    (h : Tracks capacity rate key (l.stepUnswept c).1.map m c.time) :
    FollowsKey capacity rate key (l.step c).1 m c.time := by
  obtain ⟨rfl, rfl⟩ := hl
  refine ⟨capacity_step l c, h.time_le, ?_⟩
  rw [levelOf_step l hrate c key le_rfl]
  exact h.level

/-- The limiter follows a meter on the calls for one key. -/
theorem follows_rateLimiter (hrate : 0 ≤ rate) (key : String) :
    Follows RateLimiter.step Call.time (isFor key) capacity rate (FollowsKey capacity rate key) where
  time_le h := h.2.time_le
  metered := by
    rintro l m x c ⟨hl, h⟩ hx hkey
    have hkey : c.key = key := of_decide_eq_true hkey
    obtain ⟨hok, htracks⟩ := (h.later hrate hx).acquire
    obtain ⟨rfl, rfl⟩ := hl
    subst hkey
    exact ⟨hok, followsKey_step hrate ⟨rfl, rfl⟩ htracks⟩
  others := by
    rintro l m x c ⟨hl, h⟩ hx hkey
    have hkey : c.key ≠ key := of_decide_eq_false hkey
    exact followsKey_step hrate hl ((h.later hrate hx).acquire_other hkey _ _)

theorem follows_tenantRateLimiter {quota : String → UInt32} {tenantId : String}
    (hpos : quota tenantId ≠ 0) :
    Follows (TenantRateLimiter.step quota) Call.time (isFor tenantId) (quota tenantId).toNat
      ((quota tenantId).toNat / 60) fun l m x =>
        Tracks (quota tenantId).toNat ((quota tenantId).toNat / 60) tenantId l.map m x where
  time_le h := h.time_le
  metered := by
    intro l m x c h hx hkey
    have hkey : c.key = tenantId := of_decide_eq_true hkey
    subst hkey
    unfold TenantRateLimiter.step TenantRateLimiter.tryAcquire
    rw [if_neg hpos]
    exact (h.later (by positivity) hx).acquire
  others := by
    intro l m x c h hx hkey
    have hkey : c.key ≠ tenantId := of_decide_eq_false hkey
    have hlater := h.later (by positivity) hx
    unfold TenantRateLimiter.step TenantRateLimiter.tryAcquire
    split_ifs
    · exact hlater
    · exact hlater.acquire_other hkey _ _

/-- The two limiters have this quota, and from the time `x` on their levels are the same. -/
structure SameLevels (capacity rate : ℚ) (l l' : RateLimiter) (x : ℚ) : Prop where
  quota : l.capacity = capacity ∧ l.refillPerSec = rate
  quota' : l'.capacity = capacity ∧ l'.refillPerSec = rate
  level : ∀ key t, x ≤ t → levelOf l.map capacity rate key t = levelOf l'.map capacity rate key t

theorem acquire_congr {map map' : Buckets} {now : ℚ} (key : String)
    (h : ∀ k t, now ≤ t → levelOf map capacity rate k t = levelOf map' capacity rate k t) :
    (acquire map capacity rate key now).2 = (acquire map' capacity rate key now).2 ∧
      ∀ k t, now ≤ t → levelOf (acquire map capacity rate key now).1 capacity rate k t =
        levelOf (acquire map' capacity rate key now).1 capacity rate k t := by
  rw [acquire_eq, acquire_eq, h key now le_rfl]
  have hinsert : ∀ b k t, now ≤ t → levelOf (map.insert key b) capacity rate k t =
      levelOf (map'.insert key b) capacity rate k t := by
    intro b k t ht
    by_cases hk : k = key
    · subst hk
      simp [levelOf]
    · rw [levelOf_insert_of_ne hk, levelOf_insert_of_ne hk, h k t ht]
  split_ifs
  · exact ⟨rfl, hinsert _⟩
  · exact ⟨rfl, hinsert _⟩

theorem simulates_unswept (hrate : 0 ≤ rate) :
    Simulates RateLimiter.step RateLimiter.stepUnswept Call.time (SameLevels capacity rate) := by
  rintro l ⟨map', lastSweep', capacity', rate'⟩ x c ⟨⟨rfl, rfl⟩, ⟨hcap, hrefill⟩, hlevel⟩ hx
  dsimp only at hcap hrefill
  subst hcap hrefill
  obtain ⟨hok, hnext⟩ := acquire_congr c.key fun k t ht => hlevel k t (hx.trans ht)
  refine ⟨hok, capacity_step l c, ⟨rfl, rfl⟩, fun key t ht => ?_⟩
  rw [levelOf_step l hrate c key ht]
  exact hnext key t ht

end following

/-! ### The promises -/

/-- The bound over every window of time, for the calls of a key with the quota `perMinute`. -/
def WindowBound (perMinute : UInt32) (key : String) (os : List (Call × Bool)) : Prop :=
  ∀ a b : ℚ, a ≤ b →
    (admitted Call.time (isFor key) a b os : ℚ) ≤ perMinute.toNat + perMinute.toNat / 60 * (b - a)

/-- A call for a key that comes `w` seconds after a refused one, with none for the key in between, is
admitted. -/
def RetryKept (w : ℕ) (key : String) (os : List (Call × Bool)) : Prop :=
  ∀ (i j : ℕ) (t t' : ℚ) (ok : Bool), os[i]? = some (⟨key, t⟩, false) →
    os[j]? = some (⟨key, t'⟩, ok) → i < j →
    (∀ (n : ℕ) (p : Call × Bool), i < n → n < j → os[n]? = some p → p.1.key ≠ key) →
    t + w ≤ t' → ok = true

section promises

variable {σ : Type*} {step : σ → Call → σ × Bool} {R : σ → Meter ℚ → ℚ → Prop} {s : σ}
  {perMinute : UInt32} {key : String} {calls : List Call}

theorem windowBound_of_follows
    (h : Follows step Call.time (isFor key) perMinute.toNat (perMinute.toNat / 60) R)
    (hinit : ∀ x, R s ⟨x, perMinute.toNat⟩ x) (hord : InOrder Call.time calls) :
    WindowBound perMinute key (outcomes step s calls) := by
  intro a b hab
  obtain ⟨x, hx⟩ := exists_from hord
  have hcap : (0 : ℚ) ≤ perMinute.toNat := by positivity
  have hle := h.admitted_window_le hcap (by positivity) hab (hinit x) hcap hx hord
  rw [mul_comm (b - a)] at hle
  exact hle

theorem retryKept_of_follows (hpos : perMinute ≠ 0) {w : ℕ} (hw : (60 : ℚ) / perMinute.toNat ≤ w)
    (h : Follows step Call.time (isFor key) perMinute.toNat (perMinute.toNat / 60) R)
    (hinit : ∀ x, R s ⟨x, perMinute.toNat⟩ x) (hord : InOrder Call.time calls) :
    RetryKept w key (outcomes step s calls) := by
  intro i j t t' ok hi hj hij hother hwait
  obtain ⟨x, hx⟩ := exists_from hord
  have hone : (1 : ℚ) ≤ perMinute.toNat := by
    have hne : perMinute.toNat ≠ 0 := fun h0 => hpos (UInt32.toNat_inj.mp h0)
    exact_mod_cast Nat.one_le_iff_ne_zero.mpr hne
  have htoken : 1 ≤ (w : ℚ) * (perMinute.toNat / 60) := by
    rw [div_le_iff₀ (by linarith)] at hw
    linarith
  refine h.admitted_after_wait hone (by positivity) htoken (hinit x) (zero_le_one.trans hone) hx hord hi
    hj hij
    (by simp [isFor]) (by simp [isFor]) (fun n d hn hnj hd => ?_) hwait
  have hget : (outcomes step s calls)[n]? = some (d, (step (after step s (calls.take n)) d).2) := by
    rw [getElem?_outcomes, hd]
    rfl
  simpa [isFor] using hother n _ hn hnj hget

end promises

theorem le_retryAfterSecs {perMinute : UInt32} {l : RateLimiter} (h : RateLimiter.new perMinute = some l) :
    (60 : ℚ) / perMinute.toNat ≤ l.retryAfterSecs := by
  unfold RateLimiter.new at h
  split_ifs at h with hpos
  cases h
  have hrate : ¬ (perMinute.toNat : ℚ) / 60 ≤ 0 := by
    have hne : 0 < perMinute.toNat := Nat.pos_of_ne_zero fun h0 => hpos (UInt32.toNat_inj.mp h0)
    have : (0 : ℚ) < perMinute.toNat := by exact_mod_cast hne
    rw [not_le]
    positivity
  unfold RateLimiter.retryAfterSecs
  rw [if_neg hrate, one_div_div, Nat.cast_max]
  exact (Nat.le_ceil _).trans (le_max_left _ _)

theorem le_tenant_retryAfterSecs {perMinute : UInt32} (hpos : perMinute ≠ 0) :
    (60 : ℚ) / perMinute.toNat ≤ TenantRateLimiter.retryAfterSecs perMinute := by
  unfold TenantRateLimiter.retryAfterSecs
  rw [if_neg hpos, Nat.cast_max]
  exact (Nat.le_ceil _).trans (le_max_left _ _)

/-- **Rate limits.** For any calls in the order of their times: in a window of time a key is admitted at most
as often as its quota and the refill of the window allow; the sweeps change no outcome; and whoever waits as
long as a refusal tells is admitted. The same bound and the same promise hold of the tenants, each with a
constant quota. -/
theorem rate_limits_correct :
    (∀ perMinute l, RateLimiter.new perMinute = some l → ∀ calls, InOrder Call.time calls →
      (∀ key, WindowBound perMinute key (outcomes RateLimiter.step l calls)) ∧
      outcomes RateLimiter.step l calls = outcomes RateLimiter.stepUnswept l calls ∧
      ∀ key, RetryKept l.retryAfterSecs key (outcomes RateLimiter.step l calls)) ∧
    ∀ (quota : String → UInt32) (tenantId : String), quota tenantId ≠ 0 →
      ∀ calls, InOrder Call.time calls →
        WindowBound (quota tenantId) tenantId
          (outcomes (TenantRateLimiter.step quota) TenantRateLimiter.new calls) ∧
        RetryKept (TenantRateLimiter.retryAfterSecs (quota tenantId)) tenantId
          (outcomes (TenantRateLimiter.step quota) TenantRateLimiter.new calls) := by
  constructor
  · intro perMinute l hnew calls hord
    have hretry := le_retryAfterSecs hnew
    unfold RateLimiter.new at hnew
    split_ifs at hnew with hpos
    cases hnew
    have hrate : (0 : ℚ) ≤ perMinute.toNat / 60 := by positivity
    have hfollows : ∀ key, Follows RateLimiter.step Call.time (isFor key) perMinute.toNat (perMinute.toNat / 60)
        (FollowsKey perMinute.toNat (perMinute.toNat / 60) key) := follows_rateLimiter hrate
    have hinit : ∀ key x, FollowsKey perMinute.toNat (perMinute.toNat / 60) key
        ⟨∅, none, perMinute.toNat, perMinute.toNat / 60⟩ ⟨x, perMinute.toNat⟩ x :=
      fun key x => ⟨⟨rfl, rfl⟩, tracks_empty hrate x⟩
    obtain ⟨x, hx⟩ := exists_from hord
    exact ⟨fun key => windowBound_of_follows (hfollows key) (hinit key) hord,
      (simulates_unswept hrate).outcomes_eq ⟨⟨rfl, rfl⟩, ⟨rfl, rfl⟩, fun _ _ _ => rfl⟩ hx hord,
      fun key => retryKept_of_follows hpos hretry (hfollows key) (hinit key) hord⟩
  · intro quota tenantId hpos calls hord
    have hfollows := follows_tenantRateLimiter hpos
    have hinit : ∀ x, Tracks (quota tenantId).toNat ((quota tenantId).toNat / 60) tenantId
        TenantRateLimiter.new.map ⟨x, (quota tenantId).toNat⟩ x := fun x => tracks_empty (by positivity) x
    exact ⟨windowBound_of_follows hfollows hinit hord,
      retryKept_of_follows hpos (le_tenant_retryAfterSecs hpos) hfollows hinit hord⟩

/-- Calls for two keys. -/
def someCalls : List Call := [⟨"a", 0⟩, ⟨"a", 10⟩, ⟨"b", 20⟩, ⟨"a", 70⟩]

/-- With a quota of one call a minute, the second call of the key `a` is refused, and the third comes a minute
later. -/
theorem rate_limits_retry : ∃ l, RateLimiter.new 1 = some l ∧
    outcomes RateLimiter.step l someCalls =
      [(⟨"a", 0⟩, true), (⟨"a", 10⟩, false), (⟨"b", 20⟩, true), (⟨"a", 70⟩, true)] ∧
    l.retryAfterSecs = 60 ∧ WindowBound 1 "a" (outcomes RateLimiter.step l someCalls) ∧
    outcomes RateLimiter.step l someCalls = outcomes RateLimiter.stepUnswept l someCalls ∧
    RetryKept 60 "a" (outcomes RateLimiter.step l someCalls) := by
  have hord : InOrder Call.time someCalls := by
    unfold InOrder someCalls
    decide
  obtain ⟨hwindow, hsame, hretry⟩ := rate_limits_correct.1 1 _ rfl someCalls hord
  have hsecs : (⟨∅, none, (1 : UInt32).toNat, (1 : UInt32).toNat / 60⟩ : RateLimiter).retryAfterSecs = 60 := by
    decide +kernel
  exact ⟨_, rfl, by decide +kernel, hsecs, hwindow "a", hsame, hsecs ▸ hretry "a"⟩

end HomeLlmGateway.Gateway.RateLimit
