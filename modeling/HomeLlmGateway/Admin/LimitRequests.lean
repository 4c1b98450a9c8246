import HomeLlmGateway.Admin.Handlers
import HomeLlmGateway.Gateway.RateLimit
import HomeLlmGateway.Gateway.TenantLimits
import HomeLlmGateway.Storage.Revocation

/-! # Limits of a tenant, as requested

From the numbers in the body of `create_tenant` or `update_tenant` to the two limiters that enforce them.
The bodies have 64-bit numbers, the records 32-bit ones, and `as u32` drops the upper half: a number is
enforced modulo `2 ^ 32`. What comes out smaller still keeps below what was asked for; what comes out as 0
is no limit at all (`limits_as_requested_iff`). A number 0 in a body asks for no limit. -/

namespace HomeLlmGateway.Admin.LimitRequests

open HomeLlmGateway.Lib.Runs HomeLlmGateway.Lib.Assoc HomeLlmGateway.Lib.TokenBucket
open HomeLlmGateway.Gateway HomeLlmGateway.Access.Rbac HomeLlmGateway.Storage
open HomeLlmGateway.Storage.Keys (Config)
open HomeLlmGateway.Storage.Tenants (TenantRecord TenantPatch)
open HomeLlmGateway.Admin.Handlers

/-! ### The limit on concurrent requests -/

/-- The request holds a slot of the tenant, taken under the limit since its last eviction but `epoch`. -/
def heldUnder (limit : UInt32) (tenant : String) (epoch : ℕ) (q : TenantLimits.Request) : Bool :=
  q.holding && q.tenant = tenant && q.limit = limit && q.epoch = epoch

/-- In no run do more than `v` requests of a tenant hold their slots at once under the limit. -/
def BoundsConcurrency (limit : UInt32) (v : ℕ) : Prop :=
  ∀ ls s, run TenantLimits.step TenantLimits.init ls = some s →
    ∀ tenant epoch, countVal (heldUnder limit tenant epoch) s.requests ≤ v

section concurrency

open HomeLlmGateway.Gateway.TenantLimits

variable {limit : UInt32} {s s' : TenantLimits.State} {l : TenantLimits.Label}

theorem heldUnder_of_not_holding {q : TenantLimits.Request} (h : q.holding = false) (limit : UInt32)
    (tenant : String) (epoch : ℕ) : heldUnder limit tenant epoch q = false := by
  simp [heldUnder, h]

/-- **A step** keeps the bound. -/
theorem heldUnder_step (hpos : 0 < limit) (hc : Counted s) (tenant : String) (epoch : ℕ)
    (h : countVal (heldUnder limit tenant epoch) s.requests ≤ limit.toNat)
    (hs : TenantLimits.step s l = some s') :
    countVal (heldUnder limit tenant epoch) s'.requests ≤ limit.toNat := by
  have hfewer : ∀ {i : ℕ} {r r' : TenantLimits.Request}, s.requests.lookup i = some r →
      heldUnder limit tenant epoch r' = false →
      countVal (heldUnder limit tenant epoch) (s.requests.insert i r') ≤ limit.toNat := by
    intro i r r' hi hr'
    have hstep := countVal_step (heldUnder limit tenant epoch) hi r'
    rw [hr', Bool.toNat_false] at hstep
    omega
  rcases step_cases hs with ⟨limits, rfl⟩ | ⟨t, rfl⟩ | ⟨i, t, limit', hi, rfl⟩ | ⟨i, r, hi, hr⟩
  · exact h
  · exact h
  · rw [countVal_insert_of_none _ _ hi, heldUnder_of_not_holding rfl]
    exact h
  · rcases hr with ⟨st, rfl, hst⟩ | ⟨-, -, rfl⟩ | ⟨c, hstage, rfl⟩ | ⟨c, -, rfl⟩
    · refine hfewer hi ?_
      rcases hst with ⟨-, hzero, rfl⟩ | ⟨-, rfl⟩ | ⟨c, -, -, rfl⟩
      · -- a slot without a limit
        have hne : ¬ (0 : UInt32) = limit := fun h0 => by simp [← h0] at hpos
        simp [heldUnder, hzero, hne]
      · exact heldUnder_of_not_holding rfl _ _ _
      · refine heldUnder_of_not_holding ?_ _ _ _
        unfold TenantLimits.Request.holding observe
        split_ifs <;> rfl
    · exact hfewer hi (heldUnder_of_not_holding rfl _ _ _)
    · have hcr : r.counter = some c := by simp [TenantLimits.Request.counter, hstage]
      have hstep := countVal_step (heldUnder limit tenant epoch) hi { r with stage := .admitted (some c) }
      cases hheld : heldUnder limit tenant epoch { r with stage := .admitted (some c) } with
      | false => exact hfewer hi hheld
      | true =>
        obtain ⟨⟨rfl, rfl⟩, rfl⟩ : (r.tenant = tenant ∧ r.limit = limit) ∧ r.epoch = epoch := by
          simpa [heldUnder, TenantLimits.Request.holding] using hheld
        -- what is held under this limit is held under a limit
        have hmono : countVal (heldUnder r.limit r.tenant r.epoch) s.requests ≤
            countVal (countsFor r.tenant r.epoch) s.requests := by
          refine countVal_mono (fun q hq => ?_) _
          simp only [heldUnder, Bool.and_eq_true, decide_eq_true_eq] at hq
          have hne : r.limit ≠ 0 := UInt32.pos_iff_ne_zero.mp hpos
          simp [countsFor, hq.1.1.1, hq.1.1.2, hq.1.2, hq.2, hne]
        have hcounter := countsFor_le_counter hc hi hcr
        have hbelow := (hc.fits i r hi).2.2 c _ hstage
        rw [UInt32.lt_iff_toNat_lt] at hbelow
        rw [hheld, Bool.toNat_true] at hstep
        show countVal _ (s.requests.insert i _) ≤ _
        omega
    · exact hfewer hi (heldUnder_of_not_holding rfl _ _ _)

theorem boundsConcurrency (hpos : 0 < limit) : BoundsConcurrency limit limit.toNat := by
  intro ls s h tenant epoch
  have hrun := run_invariant (I := fun s =>
      Counted s ∧ countVal (heldUnder limit tenant epoch) s.requests ≤ limit.toNat)
    (fun s l s' hI hs => ⟨counted_step hI.1 hs, heldUnder_step hpos hI.1 tenant epoch hI.2 hs⟩)
    ⟨counted_init, Nat.zero_le _⟩ ⟨ls, h⟩
  exact hrun.2

/-- The requests up to `n` of a tenant without a limit come, and are let in. -/
def unlimited : ℕ → List TenantLimits.Label
  | 0 => [.setLimit "t" 0]
  | n + 1 => unlimited n ++ [.enter n "t", .go n false]

theorem run_unlimited : ∀ n, ∃ s, run TenantLimits.step TenantLimits.init (unlimited n) = some s ∧
    s.limits.lookup "t" = some 0 ∧ (∀ i, n ≤ i → s.requests.lookup i = none) ∧
    countVal (heldUnder 0 "t" 0) s.requests = n
  | 0 => ⟨_, rfl, rfl, fun _ _ => rfl, rfl⟩
  | n + 1 => by
    obtain ⟨s, hs, hlimit, hnew, hcount⟩ := run_unlimited n
    let start : TenantLimits.Request := ⟨"t", 0, .start, 0⟩
    let s1 : TenantLimits.State := { s with requests := s.requests.insert n start }
    have henter : TenantLimits.step s (.enter n "t") = some s1 := by
      simp only [TenantLimits.step, hnew n le_rfl, hlimit]
      rfl
    let s2 : TenantLimits.State := { s1 with
      requests := s1.requests.insert n { start with stage := .admitted none } }
    have hgo : TenantLimits.step s1 (.go n false) = some s2 := by
      simp [TenantLimits.step, s1, s2, start, tryEnterStep]
    refine ⟨s2, ?_, hlimit, fun i hi => ?_, ?_⟩
    · show run TenantLimits.step TenantLimits.init (unlimited n ++ [_, _]) = _
      rw [run_append, hs]
      exact run_cons_eq_some.mpr ⟨s1, henter, run_cons_eq_some.mpr ⟨s2, hgo, rfl⟩⟩
    · have hne : i ≠ n := by omega
      simp only [s2, s1, lookup_insert, if_neg hne]
      exact hnew i (by omega)
    · have hfirst : countVal (heldUnder 0 "t" 0) s1.requests = n := by
        rw [countVal_insert_of_none _ _ (hnew n le_rfl), hcount]
        rfl
      have hstep := countVal_step (heldUnder 0 "t" 0) (m := s1.requests) (k := n) (v := start)
        (by simp [s1]) { start with stage := .admitted none }
      rw [hfirst] at hstep
      exact hstep

/-- The limit 0 bounds nothing. -/
theorem not_boundsConcurrency_zero (v : ℕ) : ¬ BoundsConcurrency 0 v := by
  intro h
  obtain ⟨s, hs, -, -, hcount⟩ := run_unlimited (v + 1)
  have hle := h _ s hs "t" 0
  omega

end concurrency

/-! ### The rate limit -/

/-- A call of `try_acquire` with the quota that its caller has read. -/
def acquireStep (l : RateLimit.TenantRateLimiter) (c : RateLimit.Call × UInt32) :
    RateLimit.TenantRateLimiter × Bool :=
  l.tryAcquire c.1.key c.2 c.1.time

/-- Whatever calls the limiter has served before the time `x`, with whatever quotas: from then on, of the
calls for the tenant that come with the limit no more are admitted than a limit of `v` would admit. -/
def BoundsRate (limit : UInt32) (v : ℕ) : Prop :=
  ∀ (before : List (RateLimit.Call × UInt32)) (x : ℚ), InOrder (fun c => c.1.time) before →
    (∀ c ∈ before, c.1.time ≤ x) → ∀ (quota : String → UInt32) (tenantId : String),
    quota tenantId = limit → ∀ calls, From RateLimit.Call.time x calls → InOrder RateLimit.Call.time calls →
    ∀ a b : ℚ, a ≤ b →
      (admitted RateLimit.Call.time (RateLimit.isFor tenantId) a b
        (outcomes (RateLimit.TenantRateLimiter.step quota)
          (after acquireStep RateLimit.TenantRateLimiter.new before) calls) : ℚ) ≤ v + v / 60 * (b - a)

section rate

open HomeLlmGateway.Gateway.RateLimit

variable {limit : UInt32} {l : TenantRateLimiter} {x : ℚ}

/-- No bucket is overdrawn, or filled later than `x`. -/
def Sound (l : TenantRateLimiter) (x : ℚ) : Prop :=
  ∀ key b, l.map.lookup key = some b → 0 ≤ b.tokens ∧ b.updated ≤ x

theorem Sound.later (h : Sound l x) {y : ℚ} (hxy : x ≤ y) : Sound l y :=
  fun key b hb => ⟨(h key b hb).1, (h key b hb).2.trans hxy⟩

theorem Sound.levelOf_nonneg (h : Sound l x) (key : String) {capacity rate : ℚ} (hcap : 0 ≤ capacity)
    (hrate : 0 ≤ rate) : 0 ≤ levelOf l.map capacity rate key x := by
  unfold levelOf
  split
  · exact hcap
  · next b hb =>
    obtain ⟨htokens, hupdated⟩ := h key b hb
    exact refill_nonneg hcap hrate htokens (sub_nonneg.mpr hupdated)

theorem sound_acquireStep {c : RateLimit.Call × UInt32} (h : Sound l c.1.time) :
    Sound (acquireStep l c).1 c.1.time := by
  have hlevel : 0 ≤ levelOf l.map c.2.toNat (c.2.toNat / 60) c.1.key c.1.time :=
    h.levelOf_nonneg c.1.key (by positivity) (by positivity)
  unfold acquireStep TenantRateLimiter.tryAcquire
  split_ifs
  · exact h
  · rw [acquire_eq]
    have hinsert : ∀ tokens : ℚ, 0 ≤ tokens →
        Sound ⟨l.map.insert c.1.key ⟨tokens, c.1.time⟩⟩ c.1.time := by
      intro tokens htokens key b hb
      rw [lookup_insert] at hb
      split_ifs at hb
      · cases hb
        exact ⟨htokens, le_rfl⟩
      · exact h key b hb
    split_ifs with hone
    · exact hinsert _ (sub_nonneg.mpr hone)
    · exact hinsert _ hlevel

theorem sound_after {y : ℚ} : ∀ {before : List (RateLimit.Call × UInt32)} {l : TenantRateLimiter} {x : ℚ},
    Sound l x → x ≤ y → From (fun c => c.1.time) x before → InOrder (fun c => c.1.time) before →
    (∀ c ∈ before, c.1.time ≤ y) → Sound (after acquireStep l before) y
  | [], _, _, h, hxy, _, _, _ => h.later hxy
  | c :: before, l, x, h, _, hfrom, hord, hle => by
    obtain ⟨hnext, htail⟩ := inOrder_cons.mp hord
    have hc := sound_acquireStep (h.later (hfrom c List.mem_cons_self))
    have hafter : Sound (after acquireStep (acquireStep l c).1 before) y :=
      sound_after hc (hle c List.mem_cons_self) hnext htail fun d hd => hle d (List.mem_cons_of_mem c hd)
    exact hafter

theorem boundsRate (hpos : limit ≠ 0) : BoundsRate limit limit.toNat := by
  intro before x hbefore hx quota tenantId hquota calls hfrom hord a b hab
  subst hquota
  have hcap : (0 : ℚ) ≤ (quota tenantId).toNat := by positivity
  have hrate : (0 : ℚ) ≤ (quota tenantId).toNat / 60 := by positivity
  have hsound : Sound (after acquireStep TenantRateLimiter.new before) x := by
    obtain ⟨y, hy⟩ := exists_from hbefore
    exact sound_after (x := min y x) (fun key b hb => by cases hb) (min_le_right _ _)
      (fun c hc => (min_le_left _ _).trans (hy c hc)) hbefore hx
  generalize after acquireStep TenantRateLimiter.new before = l at hsound
  have hle := levelOf_le l.map (quota tenantId).toNat ((quota tenantId).toNat / 60) tenantId x
  have htracks : Tracks (quota tenantId).toNat ((quota tenantId).toNat / 60) tenantId l.map
      ⟨x, levelOf l.map (quota tenantId).toNat ((quota tenantId).toNat / 60) tenantId x⟩ x := by
    refine ⟨le_rfl, ?_⟩
    unfold Meter.levelAt
    rw [sub_self, refill_zero hle]
  have hbound := (follows_tenantRateLimiter hpos).admitted_window_le hcap hrate hab htracks
    (hsound.levelOf_nonneg tenantId hcap hrate) hfrom hord
  rw [mul_comm (b - a)] at hbound
  exact hbound

theorem outcomes_unlimited (quota : String → UInt32) {c : RateLimit.Call} (h : quota c.key = 0)
    (l : TenantRateLimiter) : ∀ n, outcomes (TenantRateLimiter.step quota) l (List.replicate n c) =
      List.replicate n (c, true)
  | 0 => rfl
  | n + 1 => by
    have hstep : TenantRateLimiter.step quota l c = (l, true) := by
      simp [TenantRateLimiter.step, TenantRateLimiter.tryAcquire, h]
    rw [List.replicate_succ, List.replicate_succ]
    show (c, (TenantRateLimiter.step quota l c).2) :: outcomes _ (TenantRateLimiter.step quota l c).1 _ = _
    rw [hstep, outcomes_unlimited quota h l n]

theorem not_boundsRate_zero (v : ℕ) : ¬ BoundsRate 0 v := by
  intro h
  let c : RateLimit.Call := ⟨"t", 0⟩
  have hle := h [] 0 List.Pairwise.nil (fun c hc => by cases hc) (fun _ => 0) "t" rfl
    (List.replicate (v + 1) c) (fun d hd => by rw [List.eq_of_mem_replicate hd])
    (List.pairwise_replicate.mpr (Or.inr le_rfl)) 0 0 le_rfl
  rw [outcomes_unlimited (fun _ => 0) (c := c) rfl] at hle
  have hall : admitted RateLimit.Call.time (isFor "t") 0 0 (List.replicate (v + 1) (c, true)) = v + 1 := by
    simp [admitted, List.countP_replicate, isFor, c]
  rw [hall] at hle
  push_cast at hle
  linarith

end rate

/-! ### Narrowing -/

section narrowing

theorem BoundsConcurrency.mono {limit : UInt32} {v w : ℕ} (h : BoundsConcurrency limit v) (hvw : v ≤ w) :
    BoundsConcurrency limit w :=
  fun ls s hs tenant epoch => (h ls s hs tenant epoch).trans hvw

theorem BoundsRate.mono {limit : UInt32} {v w : ℕ} (h : BoundsRate limit v) (hvw : v ≤ w) :
    BoundsRate limit w := by
  intro before x hbefore hx quota tenantId hquota calls hfrom hord a b hab
  have hcast : (v : ℚ) ≤ w := by exact_mod_cast hvw
  have hwait : (0 : ℚ) ≤ b - a := sub_nonneg.mpr hab
  have hrefill : (v : ℚ) / 60 * (b - a) ≤ w / 60 * (b - a) := by gcongr
  exact (h before x hbefore hx quota tenantId hquota calls hfrom hord a b hab).trans
    (add_le_add hcast hrefill)

theorem toNat_narrowed_le (v : ℕ) : (UInt32.ofNat v).toNat ≤ v := by
  rw [UInt32.toNat_ofNat']
  exact Nat.mod_le _ _

theorem narrowed_eq_zero {v : ℕ} : UInt32.ofNat v = 0 ↔ v % 2 ^ 32 = 0 := by
  rw [← UInt32.toNat_inj, UInt32.toNat_ofNat']
  rfl

/-- A number that is enforced modulo `2 ^ 32` bounds as it was asked to, unless it becomes 0. -/
theorem boundsConcurrency_iff (v : ℕ) : BoundsConcurrency (UInt32.ofNat v) v ↔ v % 2 ^ 32 ≠ 0 := by
  constructor
  · intro h hzero
    rw [narrowed_eq_zero.mpr hzero] at h
    exact not_boundsConcurrency_zero v h
  · intro hne
    have hpos : 0 < UInt32.ofNat v := UInt32.pos_iff_ne_zero.mpr fun h0 => hne (narrowed_eq_zero.mp h0)
    exact (boundsConcurrency hpos).mono (toNat_narrowed_le v)

@[inherit_doc boundsConcurrency_iff]
theorem boundsRate_iff (v : ℕ) : BoundsRate (UInt32.ofNat v) v ↔ v % 2 ^ 32 ≠ 0 := by
  constructor
  · intro h hzero
    rw [narrowed_eq_zero.mpr hzero] at h
    exact not_boundsRate_zero v h
  · intro hne
    exact (boundsRate fun h0 => hne (narrowed_eq_zero.mp h0)).mono (toNat_narrowed_le v)

end narrowing

/-! ### What the store keeps -/

/-- The request of a call. -/
def requestOf : Tenants.Call → Tenants.Request
  | .createTenant name max rpm _ => .createTenant name max rpm
  | .updateTenant id patch _ => .updateTenant id patch
  | .deleteTenant id _ => .deleteTenant id
  | .rotateAgentToken id _ => .rotateAgentToken id

/-- The limits that a request sets. -/
def setBy : Tenants.Request → Option UInt32 × Option UInt32
  | .createTenant _ max rpm => (some max, some rpm)
  | .updateTenant _ patch => (patch.maxConcurrentRequests, patch.requestsPerMinute)
  | _ => (none, none)

/-- The record has these limits. -/
def HasLimits (limits : Option UInt32 × Option UInt32) (t : TenantRecord) : Prop :=
  (∀ limit, limits.1 = some limit → t.maxConcurrentRequests = limit) ∧
    ∀ limit, limits.2 = some limit → t.requestsPerMinute = limit

/-- The record that a call has written. -/
def written : Tenants.Call → Option TenantRecord
  | .createTenant _ _ _ (.publishing t _) | .createTenant _ _ _ (.done (.ok (t, _)))
  | .updateTenant _ _ (.publishing t) | .updateTenant _ _ (.done (.ok t)) => some t
  | _ => none

/-- The record that it has put into memory, under its id. -/
def published : Tenants.Call → Option (String × TenantRecord)
  | .createTenant _ _ _ (.done (.ok (t, _))) => some (t.id, t)
  | .updateTenant id _ (.done (.ok t)) => some (id, t)
  | _ => none

/-- A call for the request: what it has written has the limits of the request. -/
structure Serves (q : Tenants.Request) (x : Tenants.Store × Tenants.Call) : Prop where
  request : requestOf x.2 = q
  limits : ∀ t, written x.2 = some t → HasLimits (setBy q) t
  kept : ∀ id t, published x.2 = some (id, t) → x.1.tenants.lookup id = some t

section serves

variable {cfg : Config} {st st' : Tenants.Store} {a : Tenants.Answer} {c c' : Tenants.Call}
  {q : Tenants.Request}

theorem serves_start (q : Tenants.Request) (st : Tenants.Store) : Serves q (st, q.call) := by
  refine ⟨?_, fun t ht => ?_, fun id t ht => ?_⟩
  · cases q <;> rfl
  · cases q <;> cases ht
  · cases q <;> cases ht

theorem Serves.unwritten {x : Tenants.Store × Tenants.Call} (h : requestOf x.2 = q)
    (hw : written x.2 = none) (hp : published x.2 = none) : Serves q x := by
  refine ⟨h, fun t ht => ?_, fun id t ht => ?_⟩
  · rw [hw] at ht
    cases ht
  · rw [hp] at ht
    cases ht

theorem hasLimits_updatedRecord (current : TenantRecord) (id name : String) (patch : TenantPatch) :
    HasLimits (setBy (.updateTenant id patch)) (Tenants.updatedRecord current patch name) := by
  refine ⟨fun limit h => ?_, fun limit h => ?_⟩
  · have h : patch.maxConcurrentRequests = some limit := h
    simp [Tenants.updatedRecord, h]
  · have h : patch.requestsPerMinute = some limit := h
    simp [Tenants.updatedRecord, h]

theorem serves_createTenant {name : String} {max rpm : UInt32} {pc pc' : Tenants.CreatePc}
    (h : Serves q (st, .createTenant name max rpm pc))
    (hs : Tenants.createTenantStep cfg st a name max rpm pc = some (st', pc')) :
    Serves q (st', .createTenant name max rpm pc') := by
  have hq : Tenants.Request.createTenant name max rpm = q := h.request
  cases pc with
  | start =>
    simp only [Tenants.createTenantStep] at hs
    split at hs
    · cases hs
      exact .unwritten hq rfl rfl
    · split_ifs at hs <;> cases hs
      · exact .unwritten hq rfl rfl
      · exact .unwritten hq rfl rfl
  | inserting name' =>
    simp only [Tenants.createTenantStep] at hs
    split at hs
    · split_ifs at hs <;> cases hs
      · exact .unwritten hq rfl rfl
      · refine ⟨hq, fun t ht => ?_, fun id t ht => by cases ht⟩
        cases ht
        subst hq
        exact ⟨fun limit hl => Option.some.inj hl, fun limit hl => Option.some.inj hl⟩
    · cases hs
      exact .unwritten hq rfl rfl
    · cases hs
  | publishing record token =>
    cases hs
    refine ⟨hq, fun t ht => h.limits t ht, fun id t ht => ?_⟩
    cases ht
    exact AList.lookup_insert _
  | done result => cases hs

theorem serves_updateTenant {id : String} {patch : TenantPatch} {pc pc' : Tenants.UpdatePc}
    (h : Serves q (st, .updateTenant id patch pc))
    (hs : Tenants.updateTenantStep st a id patch pc = some (st', pc')) :
    Serves q (st', .updateTenant id patch pc') := by
  have hq : Tenants.Request.updateTenant id patch = q := h.request
  cases pc with
  | start =>
    simp only [Tenants.updateTenantStep] at hs
    split at hs
    · cases hs
      exact .unwritten hq rfl rfl
    · split at hs
      · cases hs
        exact .unwritten hq rfl rfl
      · split_ifs at hs <;> cases hs
        · exact .unwritten hq rfl rfl
        · exact .unwritten hq rfl rfl
  | checking current name =>
    simp only [Tenants.updateTenantStep] at hs
    split_ifs at hs <;> cases hs
    · exact .unwritten hq rfl rfl
    · exact .unwritten hq rfl rfl
  | updatingRow current name =>
    simp only [Tenants.updateTenantStep] at hs
    split at hs
    · split_ifs at hs <;> cases hs
      · exact .unwritten hq rfl rfl
      · refine ⟨hq, fun t ht => ?_, fun id t ht => by cases ht⟩
        cases ht
        subst hq
        exact hasLimits_updatedRecord current id name patch
    · cases hs
      exact .unwritten hq rfl rfl
    · cases hs
  | publishing updated =>
    cases hs
    refine ⟨hq, fun t ht => h.limits t ht, fun id t ht => ?_⟩
    cases ht
    exact AList.lookup_insert _
  | done result => cases hs

theorem serves_step (h : Serves q (st, c)) (hs : Tenants.callStep cfg st a c = some (st', c')) :
    Serves q (st', c') := by
  cases c with
  | createTenant name max rpm pc =>
    simp only [Tenants.callStep, Option.map_eq_some_iff] at hs
    obtain ⟨⟨st1, pc'⟩, hstep, he⟩ := hs
    cases he
    exact serves_createTenant h hstep
  | updateTenant id patch pc =>
    simp only [Tenants.callStep, Option.map_eq_some_iff] at hs
    obtain ⟨⟨st1, pc'⟩, hstep, he⟩ := hs
    cases he
    exact serves_updateTenant h hstep
  | deleteTenant id pc =>
    simp only [Tenants.callStep, Option.map_eq_some_iff] at hs
    obtain ⟨⟨st1, pc'⟩, -, he⟩ := hs
    cases he
    exact .unwritten h.request rfl rfl
  | rotateAgentToken id pc =>
    simp only [Tenants.callStep, Option.map_eq_some_iff] at hs
    obtain ⟨⟨st1, pc'⟩, -, he⟩ := hs
    cases he
    exact .unwritten h.request rfl rfl

theorem serves_runTenants {answers : List Tenants.Answer}
    (h : runTenants cfg st q answers = some (st', c')) : Serves q (st', c') := by
  obtain ⟨hrun, -⟩ := Option.filter_eq_some_iff.mp h
  exact run_invariant (I := Serves q) (fun x a x' hx hs => serves_step hx hs) (serves_start q st) ⟨_, hrun⟩

end serves

/-! ### The handlers -/

/-- The body with the limits. -/
def limitsBody : Handlers.Request → Option TenantBody
  | .createTenant body | .updateTenant _ body => some body
  | _ => none

/-- The tenant that was created or updated, as the reply shows it. -/
def changedTenant (request : Handlers.Request) (json : TenantJson) : String :=
  match request with
  | .updateTenant id _ => id
  | _ => json.id

/-- The limits in the record are enforced as the body requested; 0 requests nothing. -/
def AsRequested (body : TenantBody) (t : TenantRecord) : Prop :=
  (∀ v, body.maxConcurrentRequests = some v → v ≠ 0 → BoundsConcurrency t.maxConcurrentRequests v) ∧
    ∀ v, body.requestsPerMinute = some v → v ≠ 0 → BoundsRate t.requestsPerMinute v

/-- No number in the body is a multiple of `2 ^ 32`, besides 0. -/
def FitsWord (body : TenantBody) : Prop :=
  ∀ v, body.maxConcurrentRequests = some v ∨ body.requestsPerMinute = some v → v = 0 ∨ v % 2 ^ 32 ≠ 0

section handlers

variable {cfg : Config} {s s' : Handlers.State} {l : Handlers.Label} {resp : Response} {body : TenantBody}
  {json : TenantJson}

theorem asRequested_iff {t : TenantRecord}
    (h : HasLimits (body.maxConcurrentRequests.map UInt32.ofNat, body.requestsPerMinute.map UInt32.ofNat) t) :
    AsRequested body t ↔ FitsWord body := by
  have hmax : ∀ v, body.maxConcurrentRequests = some v → t.maxConcurrentRequests = UInt32.ofNat v :=
    fun v hv => h.1 _ (congrArg (Option.map UInt32.ofNat) hv)
  have hrpm : ∀ v, body.requestsPerMinute = some v → t.requestsPerMinute = UInt32.ofNat v :=
    fun v hv => h.2 _ (congrArg (Option.map UInt32.ofNat) hv)
  constructor
  · rintro ⟨hc, hr⟩ v (hv | hv)
    · refine or_iff_not_imp_left.mpr fun hne => (boundsConcurrency_iff v).mp ?_
      rw [← hmax v hv]
      exact hc v hv hne
    · refine or_iff_not_imp_left.mpr fun hne => (boundsRate_iff v).mp ?_
      rw [← hrpm v hv]
      exact hr v hv hne
  · intro hfit
    refine ⟨fun v hv hne => ?_, fun v hv hne => ?_⟩
    · rw [hmax v hv]
      exact (boundsConcurrency_iff v).mpr ((hfit v (Or.inl hv)).resolve_left hne)
    · rw [hrpm v hv]
      exact (boundsRate_iff v).mpr ((hfit v (Or.inr hv)).resolve_left hne)

theorem tenantCreated_body {c : Tenants.Call} (h : (tenantCreated c).body = .tenant json) :
    ∃ t, written c = some t ∧ published c = some (json.id, t) := by
  unfold tenantCreated at h
  split at h
  · next t token =>
    cases h
    exact ⟨t, rfl, rfl⟩
  · cases h
  · cases h

theorem tenantUpdated_body {c : Tenants.Call} {id : String} {patch : TenantPatch}
    (hq : requestOf c = .updateTenant id patch) (h : (tenantUpdated c).body = .tenant json) :
    ∃ t, written c = some t ∧ published c = some (id, t) := by
  unfold tenantUpdated at h
  split at h
  · next t =>
    cases hq
    exact ⟨t, rfl, rfl⟩
  · cases h
  · cases h

theorem createTenant_cases (p : Principal) (body : TenantBody) :
    (∃ e, createTenant p body = .error (rbacResponse e)) ∨
      createTenant p body = .ok (.tenants (.createTenant (body.name.getD "")
        (UInt32.ofNat (body.maxConcurrentRequests.getD 0)) (UInt32.ofNat (body.requestsPerMinute.getD 0)))
        tenantCreated) := by
  unfold createTenant
  cases authorize p .tenantWrite none with
  | error e => exact Or.inl ⟨e, rfl⟩
  | ok _ => exact Or.inr rfl

theorem updateTenant_cases (s : Handlers.State) (p : Principal) (id : String) (body : TenantBody) :
    (∃ e, updateTenant s p id body = .error (rbacResponse e)) ∨
      updateTenant s p id body = .error (errorResponse 404 "tenant not found") ∨
      updateTenant s p id body = .ok (.tenants (.updateTenant id ⟨body.name, body.enabled,
        body.maxConcurrentRequests.map UInt32.ofNat, body.requestsPerMinute.map UInt32.ofNat⟩)
        tenantUpdated) := by
  unfold updateTenant existing
  cases authorize p .tenantWrite (some id) with
  | error e => exact Or.inl ⟨e, rfl⟩
  | ok _ =>
    cases hid : (s.tenant id).isSome with
    | false => exact Or.inr (Or.inl rfl)
    | true => exact Or.inr (Or.inr rfl)

/-- A number that the body has is the one that `create_tenant` goes on with. -/
theorem hasLimits_of_create {t : TenantRecord} (h : HasLimits (some (UInt32.ofNat
      (body.maxConcurrentRequests.getD 0)), some (UInt32.ofNat (body.requestsPerMinute.getD 0))) t) :
    HasLimits (body.maxConcurrentRequests.map UInt32.ofNat,
      body.requestsPerMinute.map UInt32.ofNat) t := by
  refine ⟨fun limit hl => ?_, fun limit hl => ?_⟩
  · obtain ⟨v, hv, rfl⟩ := Option.map_eq_some_iff.mp hl
    exact h.1 _ (by simp [hv])
  · obtain ⟨v, hv, rfl⟩ := Option.map_eq_some_iff.mp hl
    exact h.2 _ (by simp [hv])

/-- The limits of a tenant after it was created or updated are those of the body, narrowed. -/
theorem stored_limits (h : serve cfg s l = some (s', resp)) (hbody : limitsBody l.request = some body)
    (hjson : resp.body = .tenant json) :
    ∃ t, s'.tenant (changedTenant l.request json) = some t ∧
      HasLimits (body.maxConcurrentRequests.map UInt32.ofNat,
        body.requestsPerMinute.map UInt32.ofNat) t := by
  obtain ⟨p, request, accountAnswers, answers⟩ := l
  unfold serve at h
  cases request with
  | createTenant body' =>
    cases hbody
    rcases createTenant_cases p body with ⟨e, he⟩ | he
    · simp only [handle, he] at h
      cases h
      cases hjson
    · simp only [handle, he, Option.map_eq_some_iff] at h
      obtain ⟨⟨st, c⟩, hrun, h⟩ := h
      cases h
      have hserves := serves_runTenants hrun
      obtain ⟨t, hw, hp⟩ := tenantCreated_body hjson
      exact ⟨t, hserves.kept _ t hp, hasLimits_of_create (hserves.limits t hw)⟩
  | updateTenant id body' =>
    cases hbody
    rcases updateTenant_cases s p id body with ⟨e, he⟩ | he | he
    · simp only [handle, he] at h
      cases h
      cases hjson
    · simp only [handle, he] at h
      cases h
      cases hjson
    · simp only [handle, he, Option.map_eq_some_iff] at h
      obtain ⟨⟨st, c⟩, hrun, h⟩ := h
      cases h
      have hserves := serves_runTenants hrun
      obtain ⟨t, hw, hp⟩ := tenantUpdated_body hserves.request hjson
      exact ⟨t, hserves.kept _ t hp, hserves.limits t hw⟩
  | _ => cases hbody

/-- **Limits as requested.** When a tenant was created or updated, its limits are enforced as the body
requested if and only if no number of the body is a multiple of `2 ^ 32` besides 0. -/
theorem limits_as_requested_iff (h : serve cfg s l = some (s', resp))
    (hbody : limitsBody l.request = some body) (hjson : resp.body = .tenant json) :
    (∃ t, s'.tenant (changedTenant l.request json) = some t ∧ AsRequested body t) ↔ FitsWord body := by
  obtain ⟨t, ht, hlimits⟩ := stored_limits h hbody hjson
  constructor
  · rintro ⟨t', ht', hreq⟩
    rw [ht] at ht'
    cases ht'
    exact (asRequested_iff hlimits).mp hreq
  · intro hfit
    exact ⟨t, ht, (asRequested_iff hlimits).mpr hfit⟩

end handlers

/-! ### A number beyond the word -/

/-- The tenant `default`, and nothing else. -/
def exampleState : Handlers.State := ⟨Accounts.init, Tenants.init.store, fun _ => 0⟩

/-- A body with one number for both limits. -/
def exampleBody (name : Option String) (v : ℕ) : TenantBody := ⟨name, none, some v, some v⟩

/-- The tenant `t1` is created. -/
def exampleCreate (v : ℕ) : Handlers.Label :=
  ⟨Principal.breakGlass, .createTenant (exampleBody (some "acme") v), [], [.silent, .written "t1" "tok" 7, .silent]⟩

/-- The tenant `default` is updated. -/
def exampleUpdate (v : ℕ) : Handlers.Label :=
  ⟨Principal.breakGlass, .updateTenant "default" (exampleBody none v), [], [.silent, .written "" "" 0, .silent]⟩

/-- A number of more than 32 bits, whose lower 32 are not 0. -/
theorem limits_as_requested_large : ∃ s' resp json,
    serve Revocation.exampleConfig exampleState (exampleCreate (2 ^ 32 + 5)) = some (s', resp) ∧
      resp.body = .tenant json ∧
      ∃ t, s'.tenant "t1" = some t ∧ AsRequested (exampleBody (some "acme") (2 ^ 32 + 5)) t := by
  have hserve : (serve Revocation.exampleConfig exampleState (exampleCreate (2 ^ 32 + 5))).map Prod.snd =
      some ⟨201, .tenant ⟨"t1", "acme", 7, true, 5, 5, some "tok"⟩⟩ := by
    decide +kernel
  obtain ⟨⟨s', resp⟩, hs, rfl⟩ := Option.map_eq_some_iff.mp hserve
  have hfit : FitsWord (exampleBody (some "acme") (2 ^ 32 + 5)) := by
    rintro v (hv | hv) <;> cases hv <;> right <;> decide
  exact ⟨s', _, _, hs, rfl, (limits_as_requested_iff hs rfl rfl).mpr hfit⟩

/-- The number `2 ^ 32`, for a new tenant and for one that is there: either has no limit then. -/
theorem limits_not_as_requested :
    (∃ s' resp json t, serve Revocation.exampleConfig exampleState (exampleCreate (2 ^ 32)) = some (s', resp) ∧
      resp.body = .tenant json ∧ s'.tenant "t1" = some t ∧
      ¬ BoundsConcurrency t.maxConcurrentRequests (2 ^ 32) ∧ ¬ BoundsRate t.requestsPerMinute (2 ^ 32)) ∧
    ∃ s' resp json t, serve Revocation.exampleConfig exampleState (exampleUpdate (2 ^ 32)) = some (s', resp) ∧
      resp.body = .tenant json ∧ s'.tenant "default" = some t ∧
      ¬ BoundsConcurrency t.maxConcurrentRequests (2 ^ 32) ∧ ¬ BoundsRate t.requestsPerMinute (2 ^ 32) := by
  have hnone : ∀ {s' : Handlers.State} {id : String} {resp : Response} {json : TenantJson} {l : Handlers.Label},
      serve Revocation.exampleConfig exampleState l = some (s', resp) → resp.body = .tenant json →
      (s'.tenant id).map (fun t => (t.maxConcurrentRequests, t.requestsPerMinute)) = some (0, 0) →
      ∃ s' resp json t, serve Revocation.exampleConfig exampleState l = some (s', resp) ∧
        resp.body = .tenant json ∧ s'.tenant id = some t ∧
        ¬ BoundsConcurrency t.maxConcurrentRequests (2 ^ 32) ∧ ¬ BoundsRate t.requestsPerMinute (2 ^ 32) := by
    intro s' id resp json l hs hbody ht
    obtain ⟨t, ht, hlimits⟩ := Option.map_eq_some_iff.mp ht
    obtain ⟨hmax, hrpm⟩ := Prod.mk.inj hlimits
    refine ⟨s', resp, json, t, hs, hbody, ht, ?_, ?_⟩
    · rw [hmax]
      exact not_boundsConcurrency_zero _
    · rw [hrpm]
      exact not_boundsRate_zero _
  constructor
  · have hserve : (serve Revocation.exampleConfig exampleState (exampleCreate (2 ^ 32))).map (fun x =>
        (x.2.body, (x.1.tenant "t1").map fun t => (t.maxConcurrentRequests, t.requestsPerMinute))) =
        some (.tenant ⟨"t1", "acme", 7, true, 0, 0, some "tok"⟩, some (0, 0)) := by
      decide +kernel
    obtain ⟨⟨s', resp⟩, hs, hx⟩ := Option.map_eq_some_iff.mp hserve
    obtain ⟨hbody, ht⟩ := Prod.mk.inj hx
    exact hnone hs hbody ht
  · have hserve : (serve Revocation.exampleConfig exampleState (exampleUpdate (2 ^ 32))).map (fun x =>
        (x.2.body, (x.1.tenant "default").map fun t => (t.maxConcurrentRequests, t.requestsPerMinute))) =
        some (.tenant ⟨"default", "default", 0, true, 0, 0, none⟩, some (0, 0)) := by
      decide +kernel
    obtain ⟨⟨s', resp⟩, hs, hx⟩ := Option.map_eq_some_iff.mp hserve
    obtain ⟨hbody, ht⟩ := Prod.mk.inj hx
    exact hnone hs hbody ht

end HomeLlmGateway.Admin.LimitRequests
