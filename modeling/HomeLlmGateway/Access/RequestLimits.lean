import HomeLlmGateway.Gateway.RateLimit
import HomeLlmGateway.Gateway.TenantLimits
import HomeLlmGateway.Storage.Tenants
import Mathlib.Logic.Relation

/-! # The limits of a request

How a request with an API key gets past its limits: `authenticate` (`gateway/src/access/api_key.rs`) asks the
limiter of the tenants and then that of the keys, and `prepare` (`gateway/src/proxy/prepare.rs`) asks for a
slot of the tenant. Each limiter charges for the request when it admits it, and none has a way to give a
token back: what a request that is refused in the end has cost is in `refused_charges`. -/

namespace HomeLlmGateway.Access.RequestLimits

open HomeLlmGateway.Lib.Assoc
open HomeLlmGateway.Storage.Cache (KeyRecord)
open HomeLlmGateway.Storage.Tenants (TenantRecord)
open HomeLlmGateway.Gateway.RateLimit
open HomeLlmGateway.Gateway.TenantLimits (TenantLimiter tryEnterStep)

/-! ### Rejections -/

/-- The status, the message and the header `Retry-After` of an error response. -/
structure ErrorResponse where
  status : ℕ
  message : String
  retryAfter : Option ℕ
  deriving DecidableEq

/-- `AuthRejection`. -/
inductive AuthRejection where
  | invalidKey
  | rateLimited (retryAfterSecs : ℕ)
  | tenantDisabled
  | tenantRateLimited (retryAfterSecs : ℕ)
  deriving DecidableEq

/-- `AuthRejection::into_response`. -/
def AuthRejection.intoResponse : AuthRejection → ErrorResponse
  | .invalidKey => ⟨401, "invalid or missing API key", none⟩
  | .rateLimited retryAfterSecs => ⟨429, "rate limit exceeded", some retryAfterSecs⟩
  | .tenantDisabled => ⟨403, "tenant disabled", none⟩
  | .tenantRateLimited retryAfterSecs => ⟨429, "tenant rate limit exceeded", some retryAfterSecs⟩

/-- `AuthenticatedKey`. -/
structure AuthenticatedKey where
  keyId : String
  keyName : String
  tenantId : String
  tenantName : String
  deriving DecidableEq

/-! ### The way of a request -/

/-- What the limits read and change of the gateway. -/
structure Limits where
  /-- the tenants in memory -/
  tenants : HashMap String TenantRecord
  tenantRateLimiter : TenantRateLimiter
  rateLimiter : Option RateLimiter
  tenantLimiter : TenantLimiter

/-- A request: the record that `verify_api_key` has found for its key, and the times at which the two rate
limiters are asked. -/
structure Arrival where
  key : Option KeyRecord
  tenantNow : ℚ
  keyNow : ℚ

/-- `authenticate`. -/
def authenticate (s : Limits) (r : Arrival) : Limits × Except AuthRejection AuthenticatedKey :=
  match r.key with
  | none => (s, .error .invalidKey)
  | some key =>
    match s.tenants.lookup key.tenantId with
    | none => (s, .error .tenantDisabled)
    | some tenant =>
      if !tenant.enabled then (s, .error .tenantDisabled)
      else
        match s.tenantRateLimiter.tryAcquire tenant.id tenant.requestsPerMinute r.tenantNow with
        | (trl, false) =>
          ({ s with tenantRateLimiter := trl },
            .error (.tenantRateLimited (TenantRateLimiter.retryAfterSecs tenant.requestsPerMinute)))
        | (trl, true) =>
          match s.rateLimiter with
          | none =>
            ({ s with tenantRateLimiter := trl }, .ok ⟨key.id, key.name, tenant.id, tenant.name⟩)
          | some rl =>
            match rl.tryAcquire key.id r.keyNow with
            | (rl', false) =>
              ({ s with tenantRateLimiter := trl, rateLimiter := some rl' },
                .error (.rateLimited rl.retryAfterSecs))
            | (rl', true) =>
              ({ s with tenantRateLimiter := trl, rateLimiter := some rl' },
                .ok ⟨key.id, key.name, tenant.id, tenant.name⟩)

/-- `TenantLimiter::try_enter`, with nothing in between: the slot is the counter to give it back to. -/
def tryEnter (m : TenantLimiter) (tenant : String) (limit : UInt32) : TenantLimiter × Option (Option ℕ) :=
  if limit = 0 then (m, some none)
  else
    let (m, c) := m.counter tenant
    if m.counters c < limit then
      ({ m with counters := Function.update m.counters c (m.counters c + 1) }, some (some c))
    else (m, none)

/-- `prepare`, up to the slot of the tenant. -/
def prepare (s : Limits) (r : Arrival) : Limits × Except ErrorResponse (AuthenticatedKey × Option ℕ) :=
  match authenticate s r with
  | (s, .error e) => (s, .error e.intoResponse)
  | (s, .ok key) =>
    match s.tenants.lookup key.tenantId with
    | none => (s, .error ⟨403, "tenant disabled", none⟩)
    | some tenant =>
      match tryEnter s.tenantLimiter tenant.id tenant.maxConcurrentRequests with
      | (m, some slot) => ({ s with tenantLimiter := m }, .ok (key, slot))
      | (m, none) => ({ s with tenantLimiter := m }, .error ⟨429, "tenant concurrency limit reached", none⟩)

/-- The steps of `try_enter` when no other request takes one in between. -/
def EntersAlone (x y : TenantLimiter × Gateway.TenantLimits.Request) : Prop :=
  Relation.ReflTransGen (fun x y => tryEnterStep x.1 x.2 false = some y) x y

theorem entersAlone_step {m m' : TenantLimiter} {q q' : Gateway.TenantLimits.Request}
    {y : TenantLimiter × Gateway.TenantLimits.Request} (h : tryEnterStep m q false = some (m', q'))
    (hrest : EntersAlone (m', q') y) : EntersAlone (m, q) y :=
  Relation.ReflTransGen.head h hrest

theorem tryEnter_entersAlone (m : TenantLimiter) (tenant : String) (limit : UInt32) :
    ∃ q, EntersAlone (m, ⟨tenant, limit, .start, 0⟩) ((tryEnter m tenant limit).1, q) ∧
      q.stage = match (tryEnter m tenant limit).2 with
        | some slot => .admitted slot
        | none => .refused := by
  unfold tryEnter
  split_ifs with hlimit
  · refine ⟨⟨tenant, limit, .admitted none, 0⟩, entersAlone_step ?_ .refl, rfl⟩
    simp [tryEnterStep, hlimit]
  · dsimp only
    set c := (m.counter tenant).2 with hc
    set m' := (m.counter tenant).1 with hm
    have hfind : tryEnterStep m ⟨tenant, limit, .start, 0⟩ false =
        some (m', ⟨tenant, limit, .found c, m.evictions tenant⟩) := by
      simp [tryEnterStep, hlimit, hc, hm]
    split_ifs with hlt
    · have hlook : tryEnterStep m' ⟨tenant, limit, .found c, m.evictions tenant⟩ false =
          some (m', ⟨tenant, limit, .trying c (m'.counters c), m.evictions tenant⟩) := by
        simp [tryEnterStep, Gateway.TenantLimits.observe, hlt]
      refine ⟨⟨tenant, limit, .admitted (some c), m.evictions tenant⟩,
        entersAlone_step hfind (entersAlone_step hlook (entersAlone_step ?_ .refl)), rfl⟩
      simp [tryEnterStep]
    · have hlook : tryEnterStep m' ⟨tenant, limit, .found c, m.evictions tenant⟩ false =
          some (m', ⟨tenant, limit, .refused, m.evictions tenant⟩) := by
        simp [tryEnterStep, Gateway.TenantLimits.observe, hlt]
      exact ⟨_, entersAlone_step hfind (entersAlone_step hlook .refl), rfl⟩

/-- A refusal comes from a counter that is there, and leaves it as it is. -/
theorem eq_of_tryEnter_refused {m m' : TenantLimiter} {tenant : String} {limit : UInt32}
    (h : tryEnter m tenant limit = (m', none)) : m' = m := by
  unfold tryEnter at h
  split_ifs at h with hlimit
  · cases h
  · cases hfind : m.table.lookup tenant with
    | some c =>
      simp only [TenantLimiter.counter, hfind] at h
      split_ifs at h
      · cases h
      · exact (Prod.mk.inj h).1.symm
    | none =>
      -- the counter is new, so it is below the limit
      have hlt : (0 : UInt32) < limit := UInt32.pos_iff_ne_zero.mpr hlimit
      simp only [TenantLimiter.counter, hfind, Function.update_self, if_pos hlt] at h
      cases h

/-! ### What a request costs -/

/-- The limits, in the order in which they are asked. -/
inductive Limit where
  | tenantRate
  | keyRate
  | tenantConcurrency
  deriving DecidableEq

/-- The message of a request that the limit has refused. -/
def Limit.message : Limit → String
  | .tenantRate => "tenant rate limit exceeded"
  | .keyRate => "rate limit exceeded"
  | .tenantConcurrency => "tenant concurrency limit reached"

/-- The tokens of a tenant with its present quota, at a time. -/
def tenantLevel (s : Limits) (tenant : TenantRecord) (t : ℚ) : ℚ :=
  levelOf s.tenantRateLimiter.map tenant.requestsPerMinute.toNat (tenant.requestsPerMinute.toNat / 60)
    tenant.id t

/-- The tokens of a key. -/
def keyLevel (l : RateLimiter) (key : String) (t : ℚ) : ℚ := levelOf l.map l.capacity l.refillPerSec key t

/-- What the request of a key of the tenant has cost when the limit has refused it. -/
structure Charged (limit : Limit) (key : KeyRecord) (tenant : TenantRecord) (r : Arrival) (s s' : Limits) :
    Prop where
  /-- the bucket of no other tenant is touched -/
  tenants : ∀ id, id ≠ tenant.id → s'.tenantRateLimiter.map.lookup id = s.tenantRateLimiter.map.lookup id
  /-- the tenant has lost a token if its own rate limit has let the request through -/
  tenant : tenantLevel s' tenant r.tenantNow = tenantLevel s tenant r.tenantNow -
    if limit = .tenantRate ∨ tenant.requestsPerMinute = 0 then 0 else 1
  /-- no other key has lost one; the key has, if the rate limit of the keys has let the request through -/
  keys : ∀ l, s.rateLimiter = some l → ∃ l', s'.rateLimiter = some l' ∧ l'.capacity = l.capacity ∧
    l'.refillPerSec = l.refillPerSec ∧
    (∀ k t, k ≠ key.id → r.keyNow ≤ t → keyLevel l' k t = keyLevel l k t) ∧
    keyLevel l' key.id r.keyNow = keyLevel l key.id r.keyNow - if limit = .tenantConcurrency then 1 else 0
  /-- no counter is made or changed, of any tenant -/
  slots : s'.tenantLimiter = s.tenantLimiter

section charges

variable {s : Limits} {r : Arrival} {now : ℚ}

theorem tenantRate_tryAcquire {l l' : TenantRateLimiter} {id : String} {perMinute : UInt32} {ok : Bool}
    (h : l.tryAcquire id perMinute now = (l', ok)) :
    (∀ k, k ≠ id → l'.map.lookup k = l.map.lookup k) ∧
      levelOf l'.map perMinute.toNat (perMinute.toNat / 60) id now =
        levelOf l.map perMinute.toNat (perMinute.toNat / 60) id now -
          if ok = false ∨ perMinute = 0 then 0 else 1 := by
  unfold TenantRateLimiter.tryAcquire at h
  split_ifs at h with hzero
  · cases h
    refine ⟨fun k _ => rfl, ?_⟩
    rw [if_pos (Or.inr hzero), sub_zero]
  · have hself := levelOf_acquire_self l.map perMinute.toNat (perMinute.toNat / 60) id now
    have hothers : ∀ k, k ≠ id →
        (acquire l.map perMinute.toNat (perMinute.toNat / 60) id now).1.lookup k = l.map.lookup k :=
      fun k hk => lookup_acquire_of_ne hk _ _
    generalize acquire l.map perMinute.toNat (perMinute.toNat / 60) id now = p at h hself hothers
    cases h
    refine ⟨hothers, ?_⟩
    rw [hself]
    congr 1
    cases p.2 <;> simp [hzero]

theorem keyRate_tryAcquire {l l' : RateLimiter} {id : String} {ok : Bool} (hrate : 0 ≤ l.refillPerSec)
    (h : l.tryAcquire id now = (l', ok)) :
    l'.capacity = l.capacity ∧ l'.refillPerSec = l.refillPerSec ∧
      (∀ k t, k ≠ id → now ≤ t → keyLevel l' k t = keyLevel l k t) ∧
      keyLevel l' id now = keyLevel l id now - if ok = true then 1 else 0 := by
  have hl' : l' = (l.step ⟨id, now⟩).1 := (congrArg Prod.fst h).symm
  have hok : ok = (acquire l.map l.capacity l.refillPerSec id now).2 :=
    (congrArg Prod.snd h).symm
  obtain ⟨hcap, hrefill⟩ := capacity_step l ⟨id, now⟩
  have hlevel : ∀ k t, now ≤ t → keyLevel l' k t =
      levelOf (acquire l.map l.capacity l.refillPerSec id now).1 l.capacity
        l.refillPerSec k t := by
    intro k t ht
    unfold keyLevel
    rw [hl', hcap, hrefill]
    exact levelOf_step l hrate ⟨id, now⟩ k ht
  refine ⟨by rw [hl', hcap], by rw [hl', hrefill], fun k t hk ht => ?_, ?_⟩
  · rw [hlevel k t ht]
    exact levelOf_acquire_of_ne hk _ _ _
  · rw [hlevel id now le_rfl, hok]
    exact levelOf_acquire_self _ _ _ _ _

variable {s' : Limits} {key : KeyRecord} {tenant : TenantRecord} {limit : Limit}

theorem charged {trl : TenantRateLimiter} {okT : Bool}
    (htrl : s.tenantRateLimiter.tryAcquire tenant.id tenant.requestsPerMinute r.tenantNow = (trl, okT))
    (hs' : s'.tenantRateLimiter = trl) (hokT : okT = false ↔ limit = .tenantRate)
    (hkeys : ∀ l, s.rateLimiter = some l → ∃ l', s'.rateLimiter = some l' ∧
      ((limit = .tenantRate ∧ l' = l) ∨
        (0 ≤ l.refillPerSec → ∃ okK, l.tryAcquire key.id r.keyNow = (l', okK) ∧
          (okK = true ↔ limit = .tenantConcurrency))))
    (hrate : ∀ l, s.rateLimiter = some l → 0 ≤ l.refillPerSec)
    (hslots : s'.tenantLimiter = s.tenantLimiter) :
    Charged limit key tenant r s s' := by
  obtain ⟨hothers, hown⟩ := tenantRate_tryAcquire htrl
  refine ⟨?_, ?_, fun l hl => ?_, hslots⟩
  · rw [hs']
    exact hothers
  · simp only [← hokT]
    unfold tenantLevel
    rw [hs']
    exact hown
  · obtain ⟨l', hl', ⟨rfl, rfl⟩ | hasked⟩ := hkeys l hl
    · refine ⟨l', hl', rfl, rfl, fun _ _ _ _ => rfl, ?_⟩
      simp
    · obtain ⟨okK, hacquire, hokK⟩ := hasked (hrate l hl)
      obtain ⟨hcap, hrefill, hkeys', hkey⟩ := keyRate_tryAcquire (hrate l hl) hacquire
      refine ⟨l', hl', hcap, hrefill, hkeys', ?_⟩
      simp only [← hokK]
      exact hkey

theorem authenticate_cases (s : Limits) (r : Arrival)
    (hrate : ∀ l, s.rateLimiter = some l → 0 ≤ l.refillPerSec) :
    (∃ e, authenticate s r = (s, .error e) ∧ (e = .invalidKey ∨ e = .tenantDisabled)) ∨
    ∃ key tenant s', r.key = some key ∧ s.tenants.lookup key.tenantId = some tenant ∧
      ((∃ n, authenticate s r = (s', .error (.tenantRateLimited n)) ∧
          Charged .tenantRate key tenant r s s') ∨
        (∃ n, authenticate s r = (s', .error (.rateLimited n)) ∧ Charged .keyRate key tenant r s s') ∨
        (authenticate s r = (s', .ok ⟨key.id, key.name, tenant.id, tenant.name⟩) ∧
          Charged .tenantConcurrency key tenant r s s')) := by
  unfold authenticate
  split
  · exact Or.inl ⟨_, rfl, Or.inl rfl⟩
  · next key hkey =>
    split
    · exact Or.inl ⟨_, rfl, Or.inr rfl⟩
    · next tenant htenant =>
      split_ifs with henabled
      · exact Or.inl ⟨_, rfl, Or.inr rfl⟩
      · refine Or.inr ⟨key, tenant, ?_⟩
        split
        · next trl htrl =>
          refine ⟨_, hkey, htenant, Or.inl ⟨_, rfl, charged htrl rfl (by simp) (fun l hl => ?_) hrate
            rfl⟩⟩
          exact ⟨l, hl, Or.inl ⟨rfl, rfl⟩⟩
        · next trl htrl =>
          split
          · next hnone =>
            refine ⟨_, hkey, htenant, Or.inr (Or.inr ⟨rfl, charged htrl rfl (by simp) (fun l hl => ?_) hrate
              rfl⟩)⟩
            rw [hnone] at hl
            cases hl
          · next rl hrl =>
            split
            · next rl' hrl' =>
              refine ⟨_, hkey, htenant, Or.inr (Or.inl ⟨_, rfl, charged htrl rfl (by simp) (fun l hl => ?_)
                hrate rfl⟩)⟩
              rw [hrl] at hl
              cases hl
              exact ⟨rl', rfl, Or.inr fun _ => ⟨_, hrl', by simp⟩⟩
            · next rl' hrl' =>
              refine ⟨_, hkey, htenant, Or.inr (Or.inr ⟨rfl, charged htrl rfl (by simp) (fun l hl => ?_)
                hrate rfl⟩)⟩
              rw [hrl] at hl
              cases hl
              exact ⟨rl', rfl, Or.inr fun _ => ⟨_, hrl', by simp⟩⟩

end charges

/-- **What a refused request costs.** A request that ends with a 429 has lost no token of the limit that
refused it, of a limit that was not asked yet, or of another tenant or key. It has lost one token of each
rate limit that had let it through before. -/
theorem refused_charges {s s' : Limits} {r : Arrival} {resp : ErrorResponse}
    (hrate : ∀ l, s.rateLimiter = some l → 0 ≤ l.refillPerSec) (h : prepare s r = (s', .error resp))
    (h429 : resp.status = 429) :
    ∃ limit key tenant, r.key = some key ∧ s.tenants.lookup key.tenantId = some tenant ∧
      resp.message = limit.message ∧ Charged limit key tenant r s s' := by
  unfold prepare at h
  rcases authenticate_cases s r hrate with ⟨e, he, hkind⟩ | ⟨key, tenant, s1, hkey, htenant, hcase⟩
  · rw [he] at h
    cases h
    rcases hkind with rfl | rfl <;> cases h429
  · rcases hcase with ⟨n, he, hc⟩ | ⟨n, he, hc⟩ | ⟨he, hc⟩
    · rw [he] at h
      cases h
      exact ⟨.tenantRate, key, tenant, hkey, htenant, rfl, hc⟩
    · rw [he] at h
      cases h
      exact ⟨.keyRate, key, tenant, hkey, htenant, rfl, hc⟩
    · rw [he] at h
      dsimp only at h
      split at h
      · cases h
        cases h429
      · split at h
        · cases h
        · next m henter =>
          cases h
          exact ⟨.tenantConcurrency, key, tenant, hkey, htenant, rfl, hc.tenants, hc.tenant, hc.keys,
            (eq_of_tryEnter_refused henter).trans hc.slots⟩

/-! ### A key over its limit -/

/-- A tenant with two requests a minute, and its keys with one each. -/
def exampleTenant : TenantRecord := ⟨"t", "acme", 0, true, 0, 2, ""⟩

def exampleKey (id : String) : KeyRecord := ⟨id, "", id, id, 0, true, 0, "t", none⟩

def exampleLimits : Limits where
  tenants := (∅ : HashMap String TenantRecord).insert "t" exampleTenant
  tenantRateLimiter := .new
  rateLimiter := RateLimiter.new 1
  tenantLimiter := ⟨∅, fun _ => 0, 0, fun _ => 0⟩

/-- A request with the key, at the time 0. -/
def exampleArrival (id : String) : Arrival := ⟨some (exampleKey id), 0, 0⟩

/-- After the first request of the key `k1`. -/
def afterFirst : Limits := (prepare exampleLimits (exampleArrival "k1")).1

/-- After its second request. -/
def afterSecond : Limits := (prepare afterFirst (exampleArrival "k1")).1

/-- The second request of `k1` is over the limit of the key, and takes the tenant's last token, so that the
first request of `k2` is refused for the tenant. -/
theorem refused_key_spends_tenant :
    (prepare afterFirst (exampleArrival "k1")).2 = .error ⟨429, "rate limit exceeded", some 60⟩ ∧
      tenantLevel afterSecond exampleTenant 0 < tenantLevel afterFirst exampleTenant 0 ∧
      (prepare afterSecond (exampleArrival "k2")).2 =
        .error ⟨429, "tenant rate limit exceeded", some 30⟩ := by
  decide +kernel

/-- What it has cost. -/
theorem refused_charges_second : ∃ limit key tenant, (exampleArrival "k1").key = some key ∧
    afterFirst.tenants.lookup key.tenantId = some tenant ∧ limit.message = "rate limit exceeded" ∧
    Charged limit key tenant (exampleArrival "k1") afterFirst afterSecond := by
  have hrate : ∀ l, afterFirst.rateLimiter = some l → 0 ≤ l.refillPerSec := by
    intro l hl
    have hall : afterFirst.rateLimiter.all (fun l => 0 ≤ l.refillPerSec) = true := by decide +kernel
    rw [hl] at hall
    simpa using hall
  have hresp : (prepare afterFirst (exampleArrival "k1")).2 = .error ⟨429, "rate limit exceeded", some 60⟩ := by
    decide +kernel
  have hprepare : prepare afterFirst (exampleArrival "k1") =
      (afterSecond, .error ⟨429, "rate limit exceeded", some 60⟩) := Prod.ext rfl hresp
  obtain ⟨limit, key, tenant, hkey, htenant, hmessage, hc⟩ := refused_charges hrate hprepare rfl
  exact ⟨limit, key, tenant, hkey, htenant, hmessage.symm, hc⟩

end HomeLlmGateway.Access.RequestLimits
