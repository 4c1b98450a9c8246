import Mathlib.Algebra.Order.Field.Basic
import Mathlib.Data.List.Basic
import Mathlib.Tactic

/-! # Token buckets

The level of a meter rises at a constant rate up to a capacity; a call is admitted if the level is at least
one, and takes one off it. A limiter has many keys, and *follows* a meter on some of its calls (those for one
key) if it gives them the outcomes of the meter, whatever it does about the other calls (`Follows`). What such
a limiter promises, of any calls in the order of their times:

* `Follows.admitted_window_le`: in a window of time it admits at most as many of the calls as the capacity
  and what is refilled during the window allow.
* `Follows.admitted_after_wait`: a call that waits for the time of one token is admitted. -/

namespace HomeLlmGateway.Lib.TokenBucket

variable {ι α σ τ : Type*}

/-! ### Refilling -/

section refill

variable [Field α] [LinearOrder α] {cap rate level d d' : α}

/-- A level after the time `d`. -/
def refill (cap rate level d : α) : α := min (level + d * rate) cap

theorem refill_le (cap rate level d : α) : refill cap rate level d ≤ cap := min_le_right _ _

theorem refill_le_add (cap rate level d : α) : refill cap rate level d ≤ level + d * rate := min_le_left _ _

theorem refill_zero (h : level ≤ cap) : refill cap rate level 0 = level := by
  simp [refill, h]

variable [IsStrictOrderedRing α]

theorem refill_full (hrate : 0 ≤ rate) (hd : 0 ≤ d) : refill cap rate cap d = cap := by
  have hmul : 0 ≤ d * rate := mul_nonneg hd hrate
  exact min_eq_right (by linarith)

theorem refill_refill (hrate : 0 ≤ rate) (hd' : 0 ≤ d') :
    refill cap rate (refill cap rate level d) d' = refill cap rate level (d + d') := by
  have hmul : 0 ≤ d' * rate := mul_nonneg hd' hrate
  unfold refill
  rcases le_total (level + d * rate) cap with h | h
  · rw [min_eq_left h]
    congr 1
    ring
  · rw [min_eq_right h, min_eq_right (by linarith), min_eq_right (by linarith)]

theorem refill_nonneg (hcap : 0 ≤ cap) (hrate : 0 ≤ rate) (hlevel : 0 ≤ level) (hd : 0 ≤ d) :
    0 ≤ refill cap rate level d :=
  le_min (add_nonneg hlevel (mul_nonneg hd hrate)) hcap

theorem one_le_refill (hcap : 1 ≤ cap) (hlevel : 0 ≤ level) (hd : 1 ≤ d * rate) :
    1 ≤ refill cap rate level d :=
  le_min (by linarith) hcap

end refill

/-! ### Calls and their outcomes -/

/-- The calls are in the order of their times. -/
def InOrder [LE α] (time : ι → α) (calls : List ι) : Prop := calls.Pairwise fun c c' => time c ≤ time c'

/-- No call comes before the time `x`. -/
def From [LE α] (time : ι → α) (x : α) (calls : List ι) : Prop := ∀ c ∈ calls, x ≤ time c

/-- The state after some calls. -/
def after (step : σ → ι → σ × Bool) : σ → List ι → σ
  | s, [] => s
  | s, c :: calls => after step (step s c).1 calls

/-- Each call with its outcome. -/
def outcomes (step : σ → ι → σ × Bool) : σ → List ι → List (ι × Bool)
  | _, [] => []
  | s, c :: calls => (c, (step s c).2) :: outcomes step (step s c).1 calls

/-- How many of the calls in `mine` were admitted between the times `a` and `b`. -/
def admitted [LinearOrder α] (time : ι → α) (mine : ι → Bool) (a b : α) (os : List (ι × Bool)) : ℕ :=
  os.countP fun p => p.2 && mine p.1 && a ≤ time p.1 && time p.1 ≤ b

section outcomes

variable {step : σ → ι → σ × Bool} {time : ι → α} {mine : ι → Bool}

theorem exists_from [Preorder α] [Inhabited α] {calls : List ι} (h : InOrder time calls) :
    ∃ x, From time x calls := by
  cases calls with
  | nil => exact ⟨default, fun c hc => (by cases hc)⟩
  | cons c calls =>
    refine ⟨time c, fun c' hc' => ?_⟩
    rcases List.mem_cons.mp hc' with rfl | hc'
    · exact le_rfl
    · exact (List.pairwise_cons.mp h).1 c' hc'

theorem inOrder_cons [LE α] {c : ι} {calls : List ι} :
    InOrder time (c :: calls) ↔ From time (time c) calls ∧ InOrder time calls := List.pairwise_cons

theorem inOrder_append [LE α] {as bs : List ι} : InOrder time (as ++ bs) ↔
    InOrder time as ∧ InOrder time bs ∧ ∀ c ∈ as, ∀ c' ∈ bs, time c ≤ time c' :=
  List.pairwise_append

theorem after_append : ∀ (as bs : List ι) (s : σ),
    after step s (as ++ bs) = after step (after step s as) bs
  | [], _, _ => rfl
  | c :: as, bs, s => after_append as bs (step s c).1

theorem getElem?_outcomes : ∀ (calls : List ι) (s : σ) (i : ℕ),
    (outcomes step s calls)[i]? = calls[i]?.map fun c => (c, (step (after step s (calls.take i)) c).2)
  | [], _, _ => by simp [outcomes]
  | _ :: _, _, 0 => by simp [outcomes, after]
  | c :: calls, s, i + 1 => by simpa [outcomes, after] using getElem?_outcomes calls (step s c).1 i

theorem mem_of_mem_outcomes : ∀ {calls : List ι} {s : σ} {p : ι × Bool},
    p ∈ outcomes step s calls → p.1 ∈ calls
  | [], _, _, h => by cases h
  | c :: calls, s, p, h => by
    rcases List.mem_cons.mp h with rfl | h
    · exact List.mem_cons_self
    · exact List.mem_cons_of_mem _ (mem_of_mem_outcomes h)

variable [LinearOrder α]

theorem admitted_cons (a b : α) (c : ι) (ok : Bool) (os : List (ι × Bool)) :
    admitted time mine a b ((c, ok) :: os) =
      (if ok = true ∧ mine c = true ∧ a ≤ time c ∧ time c ≤ b then 1 else 0) +
        admitted time mine a b os := by
  unfold admitted
  rw [List.countP_cons, add_comm]
  simp [and_assoc]

theorem admitted_eq_zero {a b : α} {c : ι} {calls : List ι} {s : σ} (hc : b < time c)
    (hnext : From time (time c) calls) :
    admitted time mine a b (outcomes step s (c :: calls)) = 0 := by
  unfold admitted
  rw [List.countP_eq_zero]
  intro p hp
  have hlt : b < time p.1 := by
    rcases List.mem_cons.mp (mem_of_mem_outcomes hp) with h | h
    · rw [h]
      exact hc
    · exact lt_of_lt_of_le hc (hnext _ h)
  simp [not_le.mpr hlt]

end outcomes

/-! ### The meter -/

/-- A level at a time. -/
structure Meter (α : Type*) where
  time : α
  level : α

namespace Meter

variable [Field α] [LinearOrder α] {cap rate : α} {m : Meter α} {t : α}

/-- The level at a later time. -/
def levelAt (cap rate : α) (m : Meter α) (t : α) : α := refill cap rate m.level (t - m.time)

/-- A call. -/
def take (cap rate : α) (m : Meter α) (t : α) : Meter α × Bool :=
  if 1 ≤ m.levelAt cap rate t then (⟨t, m.levelAt cap rate t - 1⟩, true)
  else (⟨t, m.levelAt cap rate t⟩, false)

/-- The level is not negative. -/
def Valid (m : Meter α) : Prop := 0 ≤ m.level

theorem take_time (m : Meter α) (t : α) : (m.take cap rate t).1.time = t := by
  unfold take
  split_ifs
  · rfl
  · rfl

theorem level_take (m : Meter α) (t : α) : (m.take cap rate t).1.level =
    m.levelAt cap rate t - if (m.take cap rate t).2 = true then 1 else 0 := by
  unfold take
  split_ifs with hone hk hk
  · rfl
  · exact absurd rfl hk
  · cases hk
  · simp

theorem admits_iff (m : Meter α) (t : α) :
    (m.take cap rate t).2 = true ↔ 1 ≤ m.levelAt cap rate t := by
  unfold take
  split_ifs with h
  · simp [h]
  · simp [h]

variable [IsStrictOrderedRing α]

theorem valid_take (hcap : 0 ≤ cap) (hrate : 0 ≤ rate) (hm : m.Valid) (ht : m.time ≤ t) :
    (m.take cap rate t).1.Valid := by
  have hnonneg : 0 ≤ m.levelAt cap rate t := refill_nonneg hcap hrate hm (sub_nonneg.mpr ht)
  unfold Valid
  rw [level_take]
  split_ifs with hk
  · rw [admits_iff] at hk
    linarith
  · linarith

end Meter

/-! ### Limiters that follow a meter -/

section follows

variable [Field α] [LinearOrder α]

/-- On the calls in `mine`, the step function follows a meter. `R` relates its states to those of the meter
from some time on. -/
structure Follows (step : σ → ι → σ × Bool) (time : ι → α) (mine : ι → Bool) (cap rate : α)
    (R : σ → Meter α → α → Prop) : Prop where
  time_le : ∀ {s m x}, R s m x → m.time ≤ x
  metered : ∀ {s m x c}, R s m x → x ≤ time c → mine c = true →
    (step s c).2 = (m.take cap rate (time c)).2 ∧ R (step s c).1 (m.take cap rate (time c)).1 (time c)
  others : ∀ {s m x c}, R s m x → x ≤ time c → mine c = false → R (step s c).1 m (time c)

variable [IsStrictOrderedRing α] {step : σ → ι → σ × Bool} {time : ι → α} {mine : ι → Bool}
  {cap rate : α} {R : σ → Meter α → α → Prop}

theorem Follows.admitted_le (h : Follows step time mine cap rate R) (hcap : 0 ≤ cap) (hrate : 0 ≤ rate)
    (a : α) {b : α} : ∀ {calls : List ι} {s : σ} {m : Meter α} {x : α}, R s m x → m.Valid →
      From time x calls → InOrder time calls → x ≤ b →
      (admitted time mine a b (outcomes step s calls) : α) ≤ m.level + (b - m.time) * rate
  | [], s, m, x, hR, hm, _, _, hb => by
    have hmul : 0 ≤ (b - m.time) * rate :=
      mul_nonneg (sub_nonneg.mpr ((h.time_le hR).trans hb)) hrate
    have hlevel : 0 ≤ m.level := hm
    simp only [outcomes, admitted, List.countP_nil, Nat.cast_zero]
    linarith
  | c :: calls, s, m, x, hR, hm, hfrom, hord, hb => by
    obtain ⟨hnext, htail⟩ := inOrder_cons.mp hord
    have hx : x ≤ time c := hfrom c List.mem_cons_self
    have hmx := h.time_le hR
    rcases lt_or_ge b (time c) with hcb | hcb
    · have hmul : 0 ≤ (b - m.time) * rate := mul_nonneg (sub_nonneg.mpr (hmx.trans hb)) hrate
      have hlevel : 0 ≤ m.level := hm
      rw [admitted_eq_zero hcb hnext, Nat.cast_zero]
      linarith
    · simp only [outcomes, admitted_cons, Nat.cast_add]
      cases hmine : mine c with
      | true =>
        obtain ⟨hok, hR'⟩ := h.metered hR hx hmine
        have ih := h.admitted_le hcap hrate a hR' (Meter.valid_take hcap hrate hm (hmx.trans hx)) hnext
          htail hcb
        rw [Meter.take_time, Meter.level_take, ← hok] at ih
        have hlevel : m.levelAt cap rate (time c) ≤ m.level + (time c - m.time) * rate :=
          refill_le_add _ _ _ _
        have hcount : ((if (step s c).2 = true ∧ true = true ∧ a ≤ time c ∧ time c ≤ b then 1
            else 0 : ℕ) : α) ≤ if (step s c).2 = true then 1 else 0 := by
          split_ifs with h1 h2
          · simp
          · exact absurd h1.1 h2
          · simp
          · simp
        have hsplit : (time c - m.time) * rate + (b - time c) * rate = (b - m.time) * rate := by ring
        linarith
      | false =>
        have ih := h.admitted_le hcap hrate a (h.others hR hx hmine) hm hnext htail hcb
        simpa using ih

/-- **The bound over a window**: in a time of length `b - a` at most `cap` calls are admitted, and one more
for each token that is refilled in that time. -/
theorem Follows.admitted_window_le (h : Follows step time mine cap rate R) (hcap : 0 ≤ cap)
    (hrate : 0 ≤ rate) {a b : α} (hab : a ≤ b) : ∀ {calls : List ι} {s : σ} {m : Meter α} {x : α},
      R s m x → m.Valid → From time x calls → InOrder time calls →
      (admitted time mine a b (outcomes step s calls) : α) ≤ cap + (b - a) * rate
  | [], _, _, _, _, _, _, _ => by
    have hmul : 0 ≤ (b - a) * rate := mul_nonneg (sub_nonneg.mpr hab) hrate
    simp only [outcomes, admitted, List.countP_nil, Nat.cast_zero]
    linarith
  | c :: calls, s, m, x, hR, hm, hfrom, hord => by
    obtain ⟨hnext, htail⟩ := inOrder_cons.mp hord
    have hx : x ≤ time c := hfrom c List.mem_cons_self
    have hmx := h.time_le hR
    cases hmine : mine c with
    | false =>
      have ih := h.admitted_window_le hcap hrate hab (h.others hR hx hmine) hm hnext htail
      simp only [outcomes, admitted_cons, hmine]
      simpa using ih
    | true =>
      obtain ⟨hok, hR'⟩ := h.metered hR hx hmine
      have hvalid := Meter.valid_take hcap hrate hm (hmx.trans hx)
      rcases lt_or_ge (time c) a with hca | hca
      · -- the call is before the window
        have ih := h.admitted_window_le hcap hrate hab hR' hvalid hnext htail
        simp only [outcomes, admitted_cons, not_le.mpr hca, false_and, and_false, if_false, zero_add]
        exact ih
      · rcases lt_or_ge b (time c) with hcb | hcb
        · have hmul : 0 ≤ (b - a) * rate := mul_nonneg (sub_nonneg.mpr hab) hrate
          rw [admitted_eq_zero hcb hnext, Nat.cast_zero]
          linarith
        · -- the first call in the window finds at most a full bucket
          have htail_le := h.admitted_le hcap hrate a hR' hvalid hnext htail hcb
          rw [Meter.take_time, Meter.level_take, ← hok] at htail_le
          have hlevel : m.levelAt cap rate (time c) ≤ cap := refill_le _ _ _ _
          have hmul : (b - time c) * rate ≤ (b - a) * rate :=
            mul_le_mul_of_nonneg_right (by linarith) hrate
          simp only [outcomes, admitted_cons, hmine, hca, hcb, and_true, Nat.cast_add, Nat.cast_ite,
            Nat.cast_one, Nat.cast_zero]
          linarith

/-! ### The wait for a token -/

omit [IsStrictOrderedRing α] in
theorem Follows.after_others (h : Follows step time mine cap rate R) {m : Meter α} :
    ∀ {calls : List ι} {s : σ} {x : α}, R s m x → From time x calls → InOrder time calls →
      (∀ c ∈ calls, mine c = false) →
      ∃ x', R (after step s calls) m x' ∧ ∀ t, x ≤ t → (∀ c ∈ calls, time c ≤ t) → x' ≤ t
  | [], s, x, hR, _, _, _ => ⟨x, hR, fun _ ht _ => ht⟩
  | c :: calls, s, x, hR, hfrom, hord, hother => by
    obtain ⟨hnext, htail⟩ := inOrder_cons.mp hord
    obtain ⟨x', hR', hx'⟩ := h.after_others
      (h.others hR (hfrom c List.mem_cons_self) (hother c List.mem_cons_self)) hnext htail
      fun d hd => hother d (List.mem_cons_of_mem _ hd)
    exact ⟨x', hR', fun t _ ht => hx' t (ht c List.mem_cons_self)
      fun d hd => ht d (List.mem_cons_of_mem _ hd)⟩

theorem Follows.after (h : Follows step time mine cap rate R) (hcap : 0 ≤ cap) (hrate : 0 ≤ rate) :
    ∀ {calls : List ι} {s : σ} {m : Meter α} {x : α}, R s m x → m.Valid → From time x calls →
      InOrder time calls → ∃ m' x', R (after step s calls) m' x' ∧ m'.Valid ∧
        ∀ t, x ≤ t → (∀ c ∈ calls, time c ≤ t) → x' ≤ t
  | [], s, m, x, hR, hm, _, _ => ⟨m, x, hR, hm, fun _ ht _ => ht⟩
  | c :: calls, s, m, x, hR, hm, hfrom, hord => by
    obtain ⟨hnext, htail⟩ := inOrder_cons.mp hord
    have hx : x ≤ time c := hfrom c List.mem_cons_self
    have hstep : ∃ m', R (step s c).1 m' (time c) ∧ m'.Valid := by
      cases hmine : mine c with
      | true =>
        exact ⟨_, (h.metered hR hx hmine).2, Meter.valid_take hcap hrate hm ((h.time_le hR).trans hx)⟩
      | false => exact ⟨m, h.others hR hx hmine, hm⟩
    obtain ⟨m1, hR1, hm1⟩ := hstep
    obtain ⟨m', x', hR', hm', hx'⟩ := h.after hcap hrate hR1 hm1 hnext htail
    exact ⟨m', x', hR', hm', fun t _ ht => hx' t (ht c List.mem_cons_self)
      fun d hd => ht d (List.mem_cons_of_mem _ hd)⟩

/-- **The wait**: a call, then others that are not in `mine`, then one that comes the time of a token later
than the first: it is admitted. -/
theorem Follows.admits_after_wait (h : Follows step time mine cap rate R) (hcap : 1 ≤ cap)
    (hrate : 0 ≤ rate) {w : α} (hw : 1 ≤ w * rate) {s : σ} {m : Meter α} {x : α} (hR : R s m x)
    (hm : m.Valid) {before between : List ι} {c c' : ι}
    (hfrom : From time x (before ++ c :: (between ++ [c'])))
    (hord : InOrder time (before ++ c :: (between ++ [c']))) (hother : ∀ d ∈ between, mine d = false)
    (hc : mine c = true) (hc' : mine c' = true) (hwait : time c + w ≤ time c') :
    (step (TokenBucket.after step s (before ++ c :: between)) c').2 = true := by
  have hcap0 : 0 ≤ cap := by linarith
  obtain ⟨hbefore, htail, hpre⟩ := inOrder_append.mp hord
  obtain ⟨hnext, htail⟩ := inOrder_cons.mp htail
  obtain ⟨hbetween, -, hlast⟩ := inOrder_append.mp htail
  obtain ⟨m1, x1, hR1, hm1, hx1⟩ :=
    h.after hcap0 hrate hR hm (fun d hd => hfrom d (List.mem_append_left _ hd)) hbefore
  have hxc : x1 ≤ time c := hx1 _ (hfrom c (by simp)) fun d hd => hpre d hd c (by simp)
  obtain ⟨-, hR2⟩ := h.metered hR1 hxc hc
  have hm2 := Meter.valid_take hcap0 hrate hm1 ((h.time_le hR1).trans hxc)
  obtain ⟨x3, hR3, hx3⟩ := h.after_others hR2 (fun d hd => hnext d (by simp [hd])) hbetween hother
  have hxc' : x3 ≤ time c' := hx3 _ (hnext c' (by simp)) fun d hd => hlast d hd c' (by simp)
  rw [after_append]
  show (step (TokenBucket.after step (step (TokenBucket.after step s before) c).1 between) c').2 = true
  rw [(h.metered hR3 hxc' hc').1, Meter.admits_iff]
  unfold Meter.levelAt
  rw [Meter.take_time]
  refine one_le_refill hcap hm2 (le_trans hw ?_)
  exact mul_le_mul_of_nonneg_right (by linarith) hrate

/-- The wait, in the outcomes of a whole run. -/
theorem Follows.admitted_after_wait (h : Follows step time mine cap rate R) (hcap : 1 ≤ cap)
    (hrate : 0 ≤ rate) {w : α} (hw : 1 ≤ w * rate) {s : σ} {m : Meter α} {x : α} (hR : R s m x)
    (hm : m.Valid) {calls : List ι} (hfrom : From time x calls) (hord : InOrder time calls) {i j : ℕ}
    {c c' : ι} {ok ok' : Bool} (hi : (outcomes step s calls)[i]? = some (c, ok))
    (hj : (outcomes step s calls)[j]? = some (c', ok')) (hij : i < j) (hc : mine c = true)
    (hc' : mine c' = true) (hother : ∀ n d, i < n → n < j → calls[n]? = some d → mine d = false)
    (hwait : time c + w ≤ time c') : ok' = true := by
  rw [getElem?_outcomes, Option.map_eq_some_iff] at hi hj
  obtain ⟨c1, hi, heq⟩ := hi
  cases heq
  obtain ⟨c2, hj, heq⟩ := hj
  cases heq
  obtain ⟨hjlen, hjget⟩ := List.getElem?_eq_some_iff.mp hj
  obtain ⟨hilen, higet⟩ := List.getElem?_eq_some_iff.mp hi
  -- the calls until `j`, cut at `i`
  have hcut : calls.take j = calls.take i ++ c :: (calls.take j).drop (i + 1) := by
    calc calls.take j = (calls.take j).take i ++ (calls.take j).drop i := (List.take_append_drop _ _).symm
      _ = calls.take i ++ c :: (calls.take j).drop (i + 1) := by
        rw [List.take_take, min_eq_left hij.le, List.drop_eq_getElem_cons (by simp; omega)]
        simp [higet]
  obtain ⟨between, hbetween⟩ : ∃ ds, ds = (calls.take j).drop (i + 1) := ⟨_, rfl⟩
  rw [← hbetween] at hcut
  have hall : calls.take (j + 1) = calls.take i ++ c :: (between ++ [c']) := by
    rw [List.take_add_one, hj, hcut]
    simp
  have hsub : (calls.take (j + 1)).Sublist calls := List.take_sublist _ _
  rw [hcut]
  refine h.admits_after_wait hcap hrate hw hR hm (fun d hd => hfrom d ?_) ?_ (fun d hd => ?_) hc hc' hwait
  · rw [← hall] at hd
    exact hsub.subset hd
  · rw [← hall]
    exact List.Pairwise.sublist hsub hord
  · rw [hbetween] at hd
    obtain ⟨n, hn⟩ := List.mem_iff_getElem?.mp hd
    rw [List.getElem?_drop, List.getElem?_take] at hn
    split_ifs at hn with hlt
    exact hother (i + 1 + n) d (by omega) hlt hn

end follows

/-! ### Simulation -/

/-- The two step functions give the same outcome and keep `R`, whenever the call is not before the time of
`R`. -/
def Simulates [LE α] (step : σ → ι → σ × Bool) (step' : τ → ι → τ × Bool) (time : ι → α)
    (R : σ → τ → α → Prop) : Prop :=
  ∀ s t x c, R s t x → x ≤ time c → (step s c).2 = (step' t c).2 ∧ R (step s c).1 (step' t c).1 (time c)

/-- **Simulation**: the outcomes of any calls in order are the same. -/
theorem Simulates.outcomes_eq [LE α] {step : σ → ι → σ × Bool} {step' : τ → ι → τ × Bool}
    {time : ι → α} {R : σ → τ → α → Prop} (h : Simulates step step' time R) :
    ∀ {calls : List ι} {s : σ} {t : τ} {x : α}, R s t x → From time x calls → InOrder time calls →
      outcomes step s calls = outcomes step' t calls
  | [], _, _, _, _, _, _ => rfl
  | c :: calls, s, t, x, hR, hfrom, hord => by
    obtain ⟨hnext, htail⟩ := inOrder_cons.mp hord
    obtain ⟨hok, hR'⟩ := h s t x c hR (hfrom c List.mem_cons_self)
    simp only [outcomes, hok, h.outcomes_eq hR' hnext htail]

end HomeLlmGateway.Lib.TokenBucket
