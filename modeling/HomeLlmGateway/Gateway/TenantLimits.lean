import HomeLlmGateway.Lib.Runs
import HomeLlmGateway.Lib.Assoc

/-! # Tenant concurrency limits

`TenantLimiter` (`gateway/src/tenant_limits.rs`): a table of counters, one for each tenant that was let in
under a limit, and slots that give back what they took when they are dropped. `prepare` takes the slot with
the limit of the record it has read (`gateway/src/proxy/prepare.rs`), the admin API changes the limits, and
deletes and evicts a tenant (`gateway/src/http/admin/tenants.rs`); each of these is a step of its own, as is
each look at a counter.

A slot counts on the counter that its request has found in the table. With limit 0 there is no counter, and
a request that comes after an eviction finds a new one; among the requests that have found the same counter
the limit holds (`admitted_below_limit`), and those left out are not bounded (`limit_forgets`). -/

namespace HomeLlmGateway.Gateway.TenantLimits

open HomeLlmGateway.Lib.Runs HomeLlmGateway.Lib.Assoc

/-! ### The limiter -/

/-- `TenantLimiter`. A counter is told by its address. -/
structure TenantLimiter where
  table : HashMap String ℕ
  counters : ℕ → UInt32
  /-- the next address -/
  next : ℕ
  /-- how often a tenant was evicted so far -/
  evictions : String → ℕ

/-- The entry of a tenant, made if there is none. -/
def TenantLimiter.counter (m : TenantLimiter) (tenant : String) : TenantLimiter × ℕ :=
  match m.table.lookup tenant with
  | some c => (m, c)
  | none =>
    ({ m with
        table := m.table.insert tenant m.next
        counters := Function.update m.counters m.next 0
        next := m.next + 1 }, m.next)

/-- `evict`. -/
def TenantLimiter.evict (m : TenantLimiter) (tenant : String) : TenantLimiter :=
  { m with
    table := m.table.erase tenant
    evictions := Function.update m.evictions tenant (m.evictions tenant + 1) }

/-! ### A request -/

/-- Where `try_enter`, or the slot it has returned, stands. -/
inductive Stage where
  | start
  /-- the counter is found -/
  | found (counter : ℕ)
  /-- in the loop of `fetch_update`, with the value observed last; it is below the limit -/
  | trying (counter : ℕ) (current : UInt32)
  /-- `Ok`: the slot is held -/
  | admitted (counter : Option ℕ)
  /-- `TenantAtCapacity` -/
  | refused
  /-- the slot is dropped -/
  | gone
  deriving DecidableEq

/-- A request that has read the record of its tenant. -/
structure Request where
  tenant : String
  limit : UInt32
  stage : Stage
  /-- how often its tenant was evicted when it looked up the counter -/
  epoch : ℕ
  deriving DecidableEq

/-- The test of `fetch_update`. -/
def observe (r : Request) (c : ℕ) (n : UInt32) : Stage := if n < r.limit then .trying c n else .refused

/-- One step of `try_enter`. `spurious` says that the exchange fails for no reason. -/
def tryEnterStep (m : TenantLimiter) (r : Request) (spurious : Bool) :
    Option (TenantLimiter × Request) :=
  match r.stage with
  | .start =>
    if r.limit = 0 then some (m, { r with stage := .admitted none })
    else some ((m.counter r.tenant).1,
      { r with stage := .found (m.counter r.tenant).2, epoch := m.evictions r.tenant })
  | .found c => some (m, { r with stage := observe r c (m.counters c) })
  | .trying c n =>
    if m.counters c = n ∧ spurious = false then
      some ({ m with counters := Function.update m.counters c (n + 1) },
        { r with stage := .admitted (some c) })
    else some (m, { r with stage := observe r c (m.counters c) })
  | .admitted _ | .refused | .gone => none

/-- `TenantSlot::drop`. -/
def dropSlot (m : TenantLimiter) (r : Request) : Option (TenantLimiter × Request) :=
  match r.stage with
  | .admitted none => some (m, { r with stage := .gone })
  | .admitted (some c) =>
    some ({ m with counters := Function.update m.counters c (m.counters c - 1) },
      { r with stage := .gone })
  | _ => none

/-! ### The system -/

structure State where
  /-- `max_concurrent_requests` of the tenants -/
  limits : HashMap String UInt32
  limiter : TenantLimiter
  requests : HashMap ℕ Request

def init : State := ⟨∅, ⟨∅, fun _ => 0, 0, fun _ => 0⟩, ∅⟩

inductive Label where
  /-- a tenant is created, or its limit changed -/
  | setLimit (tenant : String) (limit : UInt32)
  | deleteTenant (tenant : String)
  | evict (tenant : String)
  /-- the request `i` reads the record of its tenant -/
  | enter (i : ℕ) (tenant : String)
  | go (i : ℕ) (spurious : Bool)
  /-- the request ends -/
  | leave (i : ℕ)
  deriving DecidableEq

def step (s : State) : Label → Option State
  | .setLimit tenant limit => some { s with limits := s.limits.insert tenant limit }
  | .deleteTenant tenant => some { s with limits := s.limits.erase tenant }
  | .evict tenant => some { s with limiter := s.limiter.evict tenant }
  | .enter i tenant =>
    match s.requests.lookup i, s.limits.lookup tenant with
    | none, some limit => some { s with requests := s.requests.insert i ⟨tenant, limit, .start, 0⟩ }
    | _, _ => none
  | .go i spurious =>
    (s.requests.lookup i).bind fun r => (tryEnterStep s.limiter r spurious).map fun p =>
      { s with limiter := p.1, requests := s.requests.insert i p.2 }
  | .leave i =>
    (s.requests.lookup i).bind fun r => (dropSlot s.limiter r).map fun p =>
      { s with limiter := p.1, requests := s.requests.insert i p.2 }

variable {s s' : State} {l : Label} {m m' : TenantLimiter} {r r' : Request}

/-! ### Counters and slots -/

/-- The counter that a request has found. -/
def Request.counter (r : Request) : Option ℕ :=
  match r.stage with
  | .found c | .trying c _ => some c
  | .admitted c => c
  | .start | .refused | .gone => none

/-- The request is admitted and has its slot. -/
def Request.holding (r : Request) : Bool :=
  match r.stage with
  | .admitted _ => true
  | _ => false

/-- Its slot is one of the counter `c`. -/
def Request.holds (c : ℕ) (r : Request) : Bool := r.stage = .admitted (some c)

/-- Only a request with a limit looks for a counter, and what it has observed is below the limit. -/
def Request.Fits (r : Request) : Prop :=
  (r.counter ≠ none → 0 < r.limit) ∧ (r.stage = .admitted none → r.limit = 0) ∧
    ∀ c n, r.stage = .trying c n → n < r.limit

theorem counter_of_holds {c : ℕ} (h : r.holds c = true) : r.counter = some c := by
  have hst : r.stage = .admitted (some c) := by simpa [Request.holds] using h
  simp [Request.counter, hst]

/-- What a step of the system is: the limits change, a tenant is evicted, a request arrives, moves without
touching its counter, finds it, takes a slot of it or gives it back. -/
theorem step_cases (h : step s l = some s') :
    (∃ limits, s' = { s with limits := limits }) ∨
    (∃ tenant, s' = { s with limiter := s.limiter.evict tenant }) ∨
    (∃ i tenant limit, s.requests.lookup i = none ∧
      s' = { s with requests := s.requests.insert i ⟨tenant, limit, .start, 0⟩ }) ∨
    ∃ i r, s.requests.lookup i = some r ∧
      ((∃ st, s' = { s with requests := s.requests.insert i { r with stage := st } } ∧
          ((r.stage = .start ∧ r.limit = 0 ∧ st = .admitted none) ∨
            (r.stage = .admitted none ∧ st = .gone) ∨
            ∃ c, r.counter = some c ∧ r.holding = false ∧ st = observe r c (s.limiter.counters c))) ∨
        (r.stage = .start ∧ r.limit ≠ 0 ∧
          s' = { s with
            limiter := (s.limiter.counter r.tenant).1
            requests := s.requests.insert i { r with
              stage := .found (s.limiter.counter r.tenant).2
              epoch := s.limiter.evictions r.tenant } }) ∨
        (∃ c, r.stage = .trying c (s.limiter.counters c) ∧
          s' = { s with
            limiter := { s.limiter with
              counters := Function.update s.limiter.counters c (s.limiter.counters c + 1) }
            requests := s.requests.insert i { r with stage := .admitted (some c) } }) ∨
        ∃ c, r.stage = .admitted (some c) ∧
          s' = { s with
            limiter := { s.limiter with
              counters := Function.update s.limiter.counters c (s.limiter.counters c - 1) }
            requests := s.requests.insert i { r with stage := .gone } }) := by
  rcases l with ⟨tenant, limit⟩ | ⟨tenant⟩ | ⟨tenant⟩ | ⟨i, tenant⟩ | ⟨i, spurious⟩ | ⟨i⟩
  · cases h
    exact Or.inl ⟨_, rfl⟩
  · cases h
    exact Or.inl ⟨_, rfl⟩
  · cases h
    exact Or.inr (Or.inl ⟨tenant, rfl⟩)
  · simp only [step] at h
    split at h
    · next limit hi hl =>
      cases h
      exact Or.inr (Or.inr (Or.inl ⟨i, tenant, limit, hi, rfl⟩))
    · cases h
  · simp only [step, Option.bind_eq_some_iff, Option.map_eq_some_iff] at h
    obtain ⟨r, hi, ⟨m', r'⟩, hst, rfl⟩ := h
    refine Or.inr (Or.inr (Or.inr ⟨i, r, hi, ?_⟩))
    unfold tryEnterStep at hst
    split at hst
    · next hstage =>
      split_ifs at hst with hlimit <;> cases hst
      · exact Or.inl ⟨_, rfl, Or.inl ⟨hstage, hlimit, rfl⟩⟩
      · exact Or.inr (Or.inl ⟨hstage, hlimit, rfl⟩)
    · next c hstage =>
      cases hst
      exact Or.inl ⟨_, rfl, Or.inr (Or.inr ⟨c, by simp [Request.counter, hstage],
        by simp [Request.holding, hstage], rfl⟩)⟩
    · next c n hstage =>
      split_ifs at hst with hc <;> cases hst
      · obtain ⟨rfl, -⟩ := hc
        exact Or.inr (Or.inr (Or.inl ⟨c, hstage, rfl⟩))
      · exact Or.inl ⟨_, rfl, Or.inr (Or.inr ⟨c, by simp [Request.counter, hstage],
          by simp [Request.holding, hstage], rfl⟩)⟩
    all_goals cases hst
  · simp only [step, Option.bind_eq_some_iff, Option.map_eq_some_iff] at h
    obtain ⟨r, hi, ⟨m', r'⟩, hst, rfl⟩ := h
    refine Or.inr (Or.inr (Or.inr ⟨i, r, hi, ?_⟩))
    unfold dropSlot at hst
    split at hst
    · next hstage =>
      cases hst
      exact Or.inl ⟨_, rfl, Or.inr (Or.inl ⟨hstage, rfl⟩)⟩
    · next c hstage =>
      cases hst
      exact Or.inr (Or.inr (Or.inr ⟨c, hstage, rfl⟩))
    · cases hst

/-! ### The accounts -/

/-- Each counter is the number of slots taken from it and not given back. Requests that looked up the
counter of a tenant with no eviction in between have found the same one. -/
structure Counted (s : State) : Prop where
  fits : ∀ i r, s.requests.lookup i = some r → r.Fits
  exact : ∀ c, (s.limiter.counters c).toNat = countVal (Request.holds c) s.requests
  fresh : ∀ i r, s.requests.lookup i = some r → ∀ c, r.counter = some c → c < s.limiter.next
  known : ∀ t c, s.limiter.table.lookup t = some c → c < s.limiter.next
  past : ∀ i r, s.requests.lookup i = some r → ∀ c, r.counter = some c →
    r.epoch ≤ s.limiter.evictions r.tenant
  current : ∀ i r, s.requests.lookup i = some r → ∀ c, r.counter = some c →
    r.epoch = s.limiter.evictions r.tenant → s.limiter.table.lookup r.tenant = some c
  one : ∀ i j r r' c c', s.requests.lookup i = some r → s.requests.lookup j = some r' →
    r.counter = some c → r'.counter = some c' → r.tenant = r'.tenant → r.epoch = r'.epoch → c = c'

theorem counted_init : Counted init where
  fits i r h := by cases h
  exact c := rfl
  fresh i r h := by cases h
  known t c h := by cases h
  past i r h := by cases h
  current i r h := by cases h
  one i j r r' c c' h := by cases h

theorem forall_insert {P : ℕ → Request → Prop} {i : ℕ} (hnew : P i r')
    (hold : ∀ j r, s.requests.lookup j = some r → P j r) :
    ∀ j r, (s.requests.insert i r').lookup j = some r → P j r := by
  intro j r hj
  rw [lookup_insert] at hj
  split_ifs at hj with hji
  · cases hj
    rw [hji]
    exact hnew
  · exact hold j r hj

/-- A step of a request that leaves the table alone, and finds no counter: what it does to its counter is
what it takes or gives back. -/
theorem counted_move (h : Counted s) {i : ℕ} (hi : s.requests.lookup i = some r)
    {counters : ℕ → UInt32} {st : Stage} (hfits : Request.Fits { r with stage := st })
    (hc : ∀ c, Request.counter { r with stage := st } = some c → r.counter = some c)
    (hcount : ∀ c, (counters c).toNat + (r.holds c).toNat =
      (s.limiter.counters c).toNat + (Request.holds c { r with stage := st }).toNat) :
    Counted { s with
      limiter := { s.limiter with counters := counters }
      requests := s.requests.insert i { r with stage := st } } where
  fits := forall_insert hfits h.fits
  exact c := by
    have hstep := countVal_step (Request.holds c) hi { r with stage := st }
    have hold := h.exact c
    have hnew := hcount c
    show (counters c).toNat = countVal (Request.holds c) (s.requests.insert i { r with stage := st })
    omega
  fresh := by
    refine forall_insert (fun c hq => ?_) h.fresh
    exact h.fresh i r hi c (hc c hq)
  known := h.known
  past := by
    refine forall_insert (fun c hq => ?_) h.past
    exact h.past i r hi c (hc c hq)
  current := by
    refine forall_insert (fun c hq he => ?_) h.current
    exact h.current i r hi c (hc c hq) he
  one := by
    intro j k q q' c c' hj hk hq hq' ht he
    have hback : ∀ j q c, (s.requests.insert i { r with stage := st }).lookup j = some q →
        q.counter = some c → ∃ q0, s.requests.lookup j = some q0 ∧ q0.counter = some c ∧
          q0.tenant = q.tenant ∧ q0.epoch = q.epoch := by
      intro j q c hj hq
      rw [lookup_insert] at hj
      split_ifs at hj with hji
      · cases hj
        exact ⟨r, hji ▸ hi, hc c hq, rfl, rfl⟩
      · exact ⟨q, hj, hq, rfl, rfl⟩
    obtain ⟨q0, hj0, hq0, ht0, he0⟩ := hback j q c hj hq
    obtain ⟨q1, hk1, hq1, ht1, he1⟩ := hback k q' c' hk hq'
    exact h.one j k q0 q1 c c' hj0 hk1 hq0 hq1 (by rw [ht0, ht1, ht]) (by rw [he0, he1, he])

theorem counter_cases (m : TenantLimiter) (tenant : String) :
    (m.table.lookup tenant = some (m.counter tenant).2 ∧ (m.counter tenant).1 = m) ∨
      (m.table.lookup tenant = none ∧ (m.counter tenant).2 = m.next ∧ (m.counter tenant).1 = { m with
        table := m.table.insert tenant m.next
        counters := Function.update m.counters m.next 0
        next := m.next + 1 }) := by
  unfold TenantLimiter.counter
  cases m.table.lookup tenant with
  | some c => exact Or.inl ⟨rfl, rfl⟩
  | none => exact Or.inr ⟨rfl, rfl, rfl⟩

/-- No slot was taken from a counter that is not made yet. -/
theorem Counted.unused (h : Counted s) : s.limiter.counters s.limiter.next = 0 := by
  have hzero : countVal (Request.holds s.limiter.next) s.requests = 0 := by
    refine Nat.eq_zero_of_not_pos fun hpos => ?_
    obtain ⟨i, r, hi, hr⟩ := countVal_pos.mp hpos
    exact Nat.lt_irrefl _ (h.fresh i r hi _ (counter_of_holds hr))
  exact UInt32.toNat_inj.mp ((h.exact _).trans hzero)

theorem counted_found (h : Counted s) {i c : ℕ} (hi : s.requests.lookup i = some r)
    (hstage : r.stage = .start) (hlimit : r.limit ≠ 0)
    (hc : s.limiter.table.lookup r.tenant = some c) :
    Counted { s with
      requests := s.requests.insert i { r with
        stage := .found c
        epoch := s.limiter.evictions r.tenant } } where
  fits := by
    refine forall_insert ⟨fun _ => ?_, fun hn => ?_, fun _ _ hn => ?_⟩ h.fits
    · exact UInt32.pos_iff_ne_zero.mpr hlimit
    · cases hn
    · cases hn
  exact d := by
    rw [countVal_replace _ hi (by simp [Request.holds, hstage])]
    exact h.exact d
  fresh := by
    refine forall_insert (fun d hd => ?_) h.fresh
    cases hd
    exact h.known _ _ hc
  known := h.known
  past := forall_insert (fun _ _ => le_rfl) h.past
  current := by
    refine forall_insert (fun d hd _ => ?_) h.current
    cases hd
    exact hc
  one := by
    have hsame : ∀ j q d, s.requests.lookup j = some q → q.counter = some d → q.tenant = r.tenant →
        q.epoch = s.limiter.evictions r.tenant → d = c := by
      intro j q d hj hd ht he
      have hcur := h.current j q hj d hd (by rw [ht]; exact he)
      rw [ht, hc] at hcur
      exact (Option.some.inj hcur).symm
    intro j k q q' d d' hj hk hd hd' ht he
    rw [lookup_insert] at hj hk
    split_ifs at hj hk
    · cases hj
      cases hk
      exact Option.some.inj (hd.symm.trans hd')
    · cases hj
      cases hd
      exact (hsame k q' d' hk hd' ht.symm he.symm).symm
    · cases hk
      cases hd'
      exact hsame j q d hj hd ht he
    · exact h.one j k q q' d d' hj hk hd hd' ht he

theorem counted_make (h : Counted s) {tenant : String} (hnone : s.limiter.table.lookup tenant = none) :
    Counted { s with
      limiter := { s.limiter with
        table := s.limiter.table.insert tenant s.limiter.next
        counters := Function.update s.limiter.counters s.limiter.next 0
        next := s.limiter.next + 1 } } where
  fits := h.fits
  exact c := by
    by_cases hc : c = s.limiter.next
    · subst hc
      rw [← h.exact, h.unused]
      simp
    · simp only [Function.update_of_ne hc]
      exact h.exact c
  fresh i r hi c hc := Nat.lt_succ_of_lt (h.fresh i r hi c hc)
  known t c ht := by
    rw [lookup_insert] at ht
    split_ifs at ht
    · cases ht
      exact Nat.lt_succ_self _
    · exact Nat.lt_succ_of_lt (h.known t c ht)
  past := h.past
  current i r hi c hc he := by
    have hcur := h.current i r hi c hc he
    have hne : r.tenant ≠ tenant := by
      intro ht
      rw [ht, hnone] at hcur
      cases hcur
    simp only [lookup_insert, if_neg hne]
    exact hcur
  one := h.one

theorem counted_evict (h : Counted s) (tenant : String) :
    Counted { s with limiter := s.limiter.evict tenant } where
  fits := h.fits
  exact := h.exact
  fresh := h.fresh
  known t c ht := by
    simp only [TenantLimiter.evict, lookup_erase] at ht
    split_ifs at ht
    exact h.known t c ht
  past i r hi c hc := by
    have hle := h.past i r hi c hc
    simp only [TenantLimiter.evict, Function.update_apply]
    split_ifs with ht
    · rw [ht] at hle
      omega
    · exact hle
  current i r hi c hc he := by
    have hle := h.past i r hi c hc
    simp only [TenantLimiter.evict, Function.update_apply] at he
    split_ifs at he with ht
    · rw [ht] at hle
      omega
    · simp only [TenantLimiter.evict, lookup_erase, if_neg ht]
      exact h.current i r hi c hc he
  one := h.one

theorem counted_enter (h : Counted s) {i : ℕ} (hi : s.requests.lookup i = none) (tenant : String)
    (limit : UInt32) :
    Counted { s with requests := s.requests.insert i ⟨tenant, limit, .start, 0⟩ } where
  fits := by
    refine forall_insert ⟨fun hn => absurd rfl hn, fun hn => ?_, fun _ _ hn => ?_⟩ h.fits
    · cases hn
    · cases hn
  exact c := by
    rw [countVal_insert_of_none _ _ hi]
    exact h.exact c
  fresh := forall_insert (fun c hc => by cases hc) h.fresh
  known := h.known
  past := forall_insert (fun c hc => by cases hc) h.past
  current := forall_insert (fun c hc => by cases hc) h.current
  one j k q q' c c' hj hk hc hc' := by
    rw [lookup_insert] at hj hk
    split_ifs at hj hk
    · cases hj
      cases hc
    · cases hj
      cases hc
    · cases hk
      cases hc'
    · exact h.one j k q q' c c' hj hk hc hc'

theorem fits_observe (hr : r.Fits) {c : ℕ} (hc : r.counter = some c) (n : UInt32) :
    Request.Fits { r with stage := observe r c n } := by
  have hpos : 0 < r.limit := hr.1 (by rw [hc]; simp)
  unfold observe
  split_ifs with hlt
  · refine ⟨fun _ => hpos, fun hn => (by cases hn), fun d k hd => ?_⟩
    cases hd
    exact hlt
  · exact ⟨fun _ => hpos, fun hn => (by cases hn), fun _ _ hn => (by cases hn)⟩

theorem counter_observe {c : ℕ} (hc : r.counter = some c) (n : UInt32) (d : ℕ)
    (h : Request.counter { r with stage := observe r c n } = some d) : r.counter = some d := by
  unfold observe at h
  split_ifs at h
  · rw [hc]
    exact h
  · cases h

theorem holds_observe (c d : ℕ) (n : UInt32) :
    Request.holds d { r with stage := observe r c n } = false := by
  unfold observe Request.holds
  split_ifs <;> rfl

/-- **One step** keeps the accounts. -/
theorem counted_step (h : Counted s) (hs : step s l = some s') : Counted s' := by
  rcases step_cases hs with ⟨limits, rfl⟩ | ⟨tenant, rfl⟩ | ⟨i, tenant, limit, hi, rfl⟩ | ⟨i, r, hi, hr⟩
  · exact ⟨h.fits, h.exact, h.fresh, h.known, h.past, h.current, h.one⟩
  · exact counted_evict h tenant
  · exact counted_enter h hi tenant limit
  · have hfits := h.fits i r hi
    rcases hr with ⟨st, rfl, hst⟩ | ⟨hstage, hlimit, rfl⟩ | ⟨c, hstage, rfl⟩ | ⟨c, hstage, rfl⟩
    · rcases hst with ⟨hstage, hlimit, rfl⟩ | ⟨hstage, rfl⟩ | ⟨c, hc, hnot, rfl⟩
      · refine counted_move h hi ⟨fun hn => absurd rfl hn, fun _ => hlimit, fun _ _ hn => ?_⟩
          (fun c hc => ?_) fun c => ?_
        · cases hn
        · cases hc
        · simp [Request.holds, hstage]
      · refine counted_move h hi ⟨fun hn => absurd rfl hn, fun hn => ?_, fun _ _ hn => ?_⟩
          (fun c hc => ?_) fun c => ?_
        · cases hn
        · cases hn
        · cases hc
        · simp [Request.holds, hstage]
      · refine counted_move h hi (fits_observe hfits hc _) (counter_observe hc _) fun d => ?_
        have hold : r.holds d = false := by
          unfold Request.holding at hnot
          unfold Request.holds
          revert hnot
          cases r.stage <;> simp
        rw [hold, holds_observe]
    · rcases counter_cases s.limiter r.tenant with ⟨hfound, hm⟩ | ⟨hnone, hnext, hm⟩
      · rw [hm]
        exact counted_found h hi hstage hlimit hfound
      · have hmade := counted_found (counted_make h hnone) (c := s.limiter.next) hi hstage hlimit
          (AList.lookup_insert _)
        rw [hm, hnext]
        exact hmade
    · have hlt : s.limiter.counters c < r.limit := hfits.2.2 c _ hstage
      have hpos : 0 < r.limit := hfits.1 (by simp [Request.counter, hstage])
      refine counted_move h hi ⟨fun _ => hpos, fun hn => ?_, fun _ _ hn => ?_⟩ (fun d hd => ?_)
        fun d => ?_
      · cases hn
      · cases hn
      · cases hd
        simp [Request.counter, hstage]
      · by_cases hd : d = c
        · subst hd
          have hone : (s.limiter.counters d + 1).toNat = (s.limiter.counters d).toNat + 1 := by
            have hle := UInt32.toNat_lt r.limit
            rw [UInt32.lt_iff_toNat_lt] at hlt
            rw [UInt32.toNat_add]
            exact Nat.mod_eq_of_lt (by simp; omega)
          simp [Request.holds, hstage, hone]
        · have hdc : ¬ c = d := fun he => hd he.symm
          simp [Request.holds, hstage, Function.update_of_ne hd, hdc]
    · refine counted_move h hi ⟨fun hn => absurd rfl hn, fun hn => ?_, fun _ _ hn => ?_⟩
        (fun d hd => ?_) fun d => ?_
      · cases hn
      · cases hn
      · cases hd
      · by_cases hd : d = c
        · subst hd
          have hpos : 0 < countVal (Request.holds d) s.requests :=
            countVal_pos.mpr ⟨i, r, hi, by simp [Request.holds, hstage]⟩
          rw [← h.exact d] at hpos
          have hone : (s.limiter.counters d - 1).toNat = (s.limiter.counters d).toNat - 1 := by
            refine UInt32.toNat_sub_of_le _ _ ?_
            rw [UInt32.le_iff_toNat_le]
            exact hpos
          simp only [Function.update_self, hone]
          simp [Request.holds, hstage]
          omega
        · have hdc : ¬ c = d := fun he => hd he.symm
          simp [Request.holds, hstage, Function.update_of_ne hd, hdc]

theorem counted_run {ls : List Label} (h : run step init ls = some s) : Counted s :=
  run_invariant (I := Counted) (fun _ _ _ hi hs => counted_step hi hs) counted_init ⟨ls, h⟩

/-! ### Admission -/

/-- The request `i` is admitted in the step from `s` to `s'`; `r` is the request then. -/
def Admits (s s' : State) (i : ℕ) (r : Request) : Prop :=
  s'.requests.lookup i = some r ∧ r.holding = true ∧
    ∀ r0, s.requests.lookup i = some r0 → r0.holding = false

instance (s s' : State) (i : ℕ) (r : Request) : Decidable (Admits s s' i r) :=
  match h : s.requests.lookup i with
  | none => decidable_of_iff (s'.requests.lookup i = some r ∧ r.holding = true) (by simp [Admits, h])
  | some r0 => decidable_of_iff (s'.requests.lookup i = some r ∧ r.holding = true ∧ r0.holding = false)
      (by simp [Admits, h])

/-- The slot of the request `q` counts for a request of the tenant `tenant` that has looked up its counter
in the epoch `epoch`. -/
def countsFor (tenant : String) (epoch : ℕ) (q : Request) : Bool :=
  q.holding && q.tenant = tenant && q.limit ≠ 0 && q.epoch = epoch

theorem take_of_admits (hs : step s l = some s') {i : ℕ} (ha : Admits s s' i r)
    (hlimit : 0 < r.limit) : ∃ r0 c, s.requests.lookup i = some r0 ∧
      r0.stage = .trying c (s.limiter.counters c) ∧ r = { r0 with stage := .admitted (some c) } := by
  obtain ⟨hr, hholding, hbefore⟩ := ha
  have hstill : s.requests.lookup i ≠ some r := by
    intro hi
    rw [hbefore r hi] at hholding
    cases hholding
  rcases step_cases hs with ⟨limits, rfl⟩ | ⟨tenant, rfl⟩ | ⟨j, tenant, limit, hj, rfl⟩ | ⟨j, q, hj, hq⟩
  · exact absurd hr hstill
  · exact absurd hr hstill
  · simp only [lookup_insert] at hr
    split_ifs at hr
    · cases hr
      cases hholding
    · exact absurd hr hstill
  · rcases hq with ⟨st, rfl, hst⟩ | ⟨hstage, hne, rfl⟩ | ⟨c, hstage, rfl⟩ | ⟨c, hstage, rfl⟩ <;>
      simp only [lookup_insert] at hr <;> split_ifs at hr with hij
    case neg | neg | neg | neg => exact absurd hr hstill
    · cases hr
      rcases hst with ⟨-, hzero, rfl⟩ | ⟨-, rfl⟩ | ⟨c, -, -, rfl⟩
      · rw [hzero] at hlimit
        cases hlimit
      · cases hholding
      · unfold Request.holding observe at hholding
        split_ifs at hholding
    · cases hr
      cases hholding
    · exact ⟨q, c, hij ▸ hj, hstage, (Option.some.inj hr).symm⟩
    · cases hr
      cases hholding

/-- The slots under a limit are all taken from the counter that the request has found. -/
theorem countsFor_le_counter (h : Counted s) {i c : ℕ} (hi : s.requests.lookup i = some r)
    (hc : r.counter = some c) :
    countVal (countsFor r.tenant r.epoch) s.requests ≤ (s.limiter.counters c).toNat := by
  rw [h.exact c]
  refine countVal_le fun j q hj hq => ?_
  simp only [countsFor, Bool.and_eq_true, decide_eq_true_eq] at hq
  obtain ⟨⟨⟨hholding, htenant⟩, hpos⟩, hepoch⟩ := hq
  have hfits := h.fits j q hj
  -- a slot without a counter was taken without a limit
  cases hst : q.stage with
  | admitted o =>
    cases o with
    | none => exact absurd (hfits.2.1 hst) hpos
    | some d =>
      have hd : d = c := h.one j i q r d c hj hi (by simp [Request.counter, hst]) hc htenant hepoch
      simp [Request.holds, hst, hd]
  | _ => simp [Request.holding, hst] at hholding

/-- **Tenant concurrency limit.** In every run, a request is admitted under a limit `L > 0` only if fewer
than `L` requests of its tenant still hold a slot that they took under a limit, with no eviction of the
tenant between their look at the table and its own. -/
theorem admitted_below_limit {ls : List Label} {i : ℕ} (h : run step init ls = some s)
    (hs : step s l = some s') (ha : Admits s s' i r) (hlimit : 0 < r.limit) :
    countVal (countsFor r.tenant r.epoch) s.requests < r.limit.toNat := by
  have hcounted := counted_run h
  obtain ⟨r0, c, hi, hstage, rfl⟩ := take_of_admits hs ha hlimit
  have hbelow : s.limiter.counters c < r0.limit := (hcounted.fits i r0 hi).2.2 c _ hstage
  have hsame := countsFor_le_counter hcounted hi (c := c) (by simp [Request.counter, hstage])
  rw [UInt32.lt_iff_toNat_lt] at hbelow
  exact lt_of_le_of_lt hsame hbelow

/-- The request `i` goes through `try_enter`, up to the exchange. -/
def entering (i : ℕ) : List Label := [.go i false, .go i false]

/-- A tenant with the limit 2 has one request; a second one is admitted. -/
theorem admitted_below_limit_second : ∃ s s' r,
    run step init ([.setLimit "t" 2, .enter 0 "t"] ++ entering 0 ++ [.go 0 false, .enter 1 "t"] ++
      entering 1) = some s ∧ step s (.go 1 false) = some s' ∧ Admits s s' 1 r ∧ r.limit = 2 ∧
      countVal (countsFor r.tenant r.epoch) s.requests < r.limit.toNat := by
  let ls : List Label := [.setLimit "t" 2, .enter 0 "t"] ++ entering 0 ++ [.go 0 false, .enter 1 "t"] ++
    entering 1
  let r : Request := ⟨"t", 2, .admitted (some 0), 0⟩
  obtain ⟨s, hs, hp⟩ := exists_run step init ls
    (fun s => (step s (.go 1 false)).any (fun s' => Admits s s' 1 r) = true) (by decide)
  obtain ⟨s', hs', ha⟩ := (Option.any_eq_true _ _).mp hp
  have hadm : Admits s s' 1 r := of_decide_eq_true ha
  exact ⟨s, s', r, hs, hs', hadm, rfl, admitted_below_limit hs hs' hadm (by decide)⟩

/-- Slots taken without a limit are not counted, nor are those from before an eviction: in the first run,
without evictions, and in the second, where no limit is 0, a request is admitted under the limit 1 while
another one of its tenant has its slot. -/
theorem limit_forgets :
    (∃ ls s l s' i r, run step init ls = some s ∧ step s l = some s' ∧ Admits s s' i r ∧ 0 < r.limit ∧
      (∀ t, Label.evict t ∉ ls) ∧
      ¬ countVal (fun q => q.holding && q.tenant = r.tenant) s.requests < r.limit.toNat) ∧
    ∃ ls s l s' i r, run step init ls = some s ∧ step s l = some s' ∧ Admits s s' i r ∧ 0 < r.limit ∧
      (∀ t, Label.setLimit t 0 ∉ ls) ∧
      ¬ countVal (fun q => q.holding && q.tenant = r.tenant) s.requests < r.limit.toNat := by
  constructor
  · let ls : List Label :=
      [.setLimit "t" 0, .enter 0 "t", .go 0 false, .setLimit "t" 1, .enter 1 "t"] ++ entering 1
    let r : Request := ⟨"t", 1, .admitted (some 0), 0⟩
    obtain ⟨s, hs, hp, hcount⟩ := exists_run step init ls
      (fun s => (step s (.go 1 false)).any (fun s' => Admits s s' 1 r) = true ∧
        ¬ countVal (fun q => q.holding && q.tenant = r.tenant) s.requests < r.limit.toNat) (by decide)
    obtain ⟨s', hs', ha⟩ := (Option.any_eq_true _ _).mp hp
    exact ⟨ls, s, _, s', 1, r, hs, hs', of_decide_eq_true ha, by decide, by simp [ls, entering], hcount⟩
  · let ls : List Label :=
      [.setLimit "t" 1, .enter 0 "t"] ++ entering 0 ++
        [.go 0 false, .enter 1 "t", .deleteTenant "t", .evict "t"] ++ entering 1
    let r : Request := ⟨"t", 1, .admitted (some 1), 1⟩
    obtain ⟨s, hs, hp, hcount⟩ := exists_run step init ls
      (fun s => (step s (.go 1 false)).any (fun s' => Admits s s' 1 r) = true ∧
        ¬ countVal (fun q => q.holding && q.tenant = r.tenant) s.requests < r.limit.toNat) (by decide)
    obtain ⟨s', hs', ha⟩ := (Option.any_eq_true _ _).mp hp
    exact ⟨ls, s, _, s', 1, r, hs, hs', of_decide_eq_true ha, by decide, by simp [ls, entering], hcount⟩

end HomeLlmGateway.Gateway.TenantLimits
