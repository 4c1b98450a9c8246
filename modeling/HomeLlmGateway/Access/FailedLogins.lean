import HomeLlmGateway.Access.RequestLimits
import HomeLlmGateway.Lib.Runs
import HomeLlmGateway.Storage.Users

/-! # Failed logins

`LoginLimiter` (`gateway/src/login_limiter.rs`) and the handler `login` (`gateway/src/access/session.rs`), with
any number of logins under way. A login is checked against the windows of its username and of all usernames,
its password is verified, and its failure is recorded, each in a step of its own; the clock goes on in
between. The store's answers are inputs of the steps.

The check looks at what is recorded, not at the logins that are past it and not recorded yet. A window keeps
its bound if there is always room for them (`failures_bounded`), and without it does not
(`failures_unbounded`). -/

namespace HomeLlmGateway.Access.FailedLogins

open HomeLlmGateway.Lib.Runs HomeLlmGateway.Lib.Assoc
open HomeLlmGateway.Proto.Http (trim toAsciiLowercase)
open HomeLlmGateway.Storage.Users (UserRecord)
open HomeLlmGateway.Storage.Tenants (TenantRecord)
open HomeLlmGateway.Access.RequestLimits (ErrorResponse)

/-! ### The limiter -/

/-- `USER_WINDOW_SECS`. -/
def userWindowSecs : ℕ := 60

/-- `USER_LIMIT`. -/
def userLimit : ℕ := 5

/-- `GLOBAL_WINDOW_SECS`. -/
def globalWindowSecs : ℕ := 60

/-- `GLOBAL_LIMIT`. -/
def globalLimit : ℕ := 60

/-- `Window`. -/
structure Window where
  count : ℕ
  resetAt : ℕ
  deriving DecidableEq

namespace Window

def fresh (now window : ℕ) : Window := ⟨0, now + window⟩

def active (w : Window) (now : ℕ) : Bool := now < w.resetAt

def blocked (w : Window) (now limit : ℕ) : Bool := w.active now && limit ≤ w.count

def retryAfter (w : Window) (now : ℕ) : ℕ := max (w.resetAt - now) 1

/-- One failure more, in a new window if there is none or it is over. The count has 32 bits and stops at
the last one. -/
def recorded (o : Option Window) (now window : ℕ) : Window :=
  let w := o.getD (fresh now window)
  let w := if w.active now then w else fresh now window
  { w with count := min (w.count + 1) (2 ^ 32 - 1) }

end Window

/-- `LoginLimiter`. -/
structure LoginLimiter where
  users : HashMap String Window
  global : Option Window

/-- `normalize`. -/
def normalize (username : String) : String := toAsciiLowercase (String.ofList (trim username.toList))

namespace LoginLimiter

/-- `LoginLimiter::new`. -/
def new : LoginLimiter := ⟨∅, none⟩

/-- The seconds to wait, if the window is full. -/
def refusal (o : Option Window) (now limit : ℕ) : Option ℕ :=
  (o.filter fun w => w.blocked now limit).map fun w => w.retryAfter now

/-- `check`. -/
def check (l : LoginLimiter) (username : String) (now : ℕ) : Except ℕ Unit :=
  match refusal l.global now globalLimit with
  | some retry => .error retry
  | none =>
    match refusal (l.users.lookup (normalize username)) now userLimit with
    | some retry => .error retry
    | none => .ok ()

/-- `record_failure`. -/
def recordFailure (l : LoginLimiter) (username : String) (now : ℕ) : LoginLimiter where
  users := l.users.insert (normalize username)
    (.recorded (l.users.lookup (normalize username)) now userWindowSecs)
  global := some (.recorded l.global now globalWindowSecs)

/-- `record_success`. -/
def recordSuccess (l : LoginLimiter) (username : String) : LoginLimiter :=
  { l with users := l.users.erase (normalize username) }

end LoginLimiter

/-! ### A login -/

/-- Where a login stands. -/
inductive Stage where
  | start
  /-- past the check -/
  | verifying
  /-- verified with a failure, which it records next, and then answers -/
  | failed (response : ErrorResponse)
  /-- verified with success; the session is being made -/
  | opening
  /-- the session is made; it records its success next -/
  | opened
  /-- answered, with an error or the session -/
  | done (response : Option ErrorResponse)
  deriving DecidableEq

structure Login where
  username : String
  stage : Stage
  deriving DecidableEq

/-- `rate_limited`. -/
def rateLimited (retryAfterSecs : ℕ) : ErrorResponse := ⟨429, "too many login attempts", some retryAfterSecs⟩

/-- `unauthorized`, for any reason. -/
def unauthorized : ErrorResponse := ⟨401, "invalid username or password", none⟩

/-- What the handler makes of the verification: the user it has found and whether the password was right,
or nothing if the task has failed; and the tenant of the user, if it is there. -/
def judge (result : Option (Option UserRecord × Bool)) (tenant : Option TenantRecord) : Stage :=
  match result with
  | none => .done (some ⟨500, "login failed", none⟩)
  | some (none, _) => .failed unauthorized
  | some (some user, passwordOk) =>
    if !passwordOk || !user.enabled then .failed unauthorized
    else
      match user.tenantId, tenant with
      | none, _ => .opening
      | some _, none => .failed unauthorized
      | some _, some tenant => if tenant.enabled then .opening else .failed ⟨403, "tenant disabled", none⟩

/-! ### The system -/

structure State where
  /-- `now_secs` -/
  clock : ℕ
  limiter : LoginLimiter
  logins : HashMap ℕ Login

/-- What a login does next, with what it learns from the store. -/
inductive Action where
  | check
  /-- `verify_password` returns, and the handler goes on to the next record -/
  | verify (result : Option (Option UserRecord × Bool)) (tenant : Option TenantRecord)
  | recordFailure
  /-- `create_session` returns, with the response to its error or without one -/
  | createSession (error : Option ErrorResponse)
  | recordSuccess
  deriving DecidableEq

inductive Label where
  /-- a second passes -/
  | tick
  /-- the login `i` arrives -/
  | arrive (i : ℕ) (username : String)
  | go (i : ℕ) (a : Action)
  deriving DecidableEq

/-- The gateway starts at some time. -/
def init (clock : ℕ) : State := ⟨clock, .new, ∅⟩

/-- The next stage of a login. -/
def next (s : State) (q : Login) : Action → Option Stage
  | .check =>
    if q.stage = .start then
      match s.limiter.check q.username s.clock with
      | .error retry => some (.done (some (rateLimited retry)))
      | .ok () => some .verifying
    else none
  | .verify result tenant => if q.stage = .verifying then some (judge result tenant) else none
  | .recordFailure =>
    match q.stage with
    | .failed response => some (.done (some response))
    | _ => none
  | .createSession error =>
    if q.stage = .opening then some (error.elim .opened fun e => .done (some e)) else none
  | .recordSuccess => if q.stage = .opened then some (.done none) else none

/-- The limiter after a step of a login. -/
def limiterAfter (s : State) (q : Login) : Action → LoginLimiter
  | .recordFailure => s.limiter.recordFailure q.username s.clock
  | .recordSuccess => s.limiter.recordSuccess q.username
  | _ => s.limiter

def step (s : State) : Label → Option State
  | .tick => some { s with clock := s.clock + 1 }
  | .arrive i username =>
    match s.logins.lookup i with
    | none => some { s with logins := s.logins.insert i ⟨normalize username, .start⟩ }
    | some _ => none
  | .go i a =>
    (s.logins.lookup i).bind fun q => (next s q a).map fun stage =>
      { s with limiter := limiterAfter s q a, logins := s.logins.insert i { q with stage := stage } }

/-! ### Windows -/

/-- A window of the limiter: that of a username, or that of all. -/
inductive Scope where
  | name (username : String)
  | everyone
  deriving DecidableEq

namespace Scope

/-- Whether the failures of a login count in the window. -/
def covers : Scope → Login → Bool
  | .name username, q => normalize q.username = username
  | .everyone, _ => true

def window : Scope → LoginLimiter → Option Window
  | .name username, l => l.users.lookup username
  | .everyone, l => l.global

def limit : Scope → ℕ
  | .name _ => userLimit
  | .everyone => globalLimit

end Scope

/-- The failures in the window, if it is not over. -/
def counted (o : Option Window) (now : ℕ) : ℕ := (o.filter fun w => w.active now).elim 0 Window.count

/-- The login is past the check, and its failure, if it is one, is not recorded. -/
def Login.underWay (q : Login) : Bool :=
  match q.stage with
  | .verifying | .failed _ => true
  | _ => false

/-- The login has failed, and records it next. -/
def Login.failing (q : Login) : Bool :=
  match q.stage with
  | .failed _ => true
  | _ => false

/-- The logins under way that the window is for. -/
def underWay (scope : Scope) (s : State) : ℕ := countVal (fun q => q.underWay && scope.covers q) s.logins

/-- How many failures were recorded since the window was opened. -/
def recordedIn (scope : Scope) (n : ℕ) (s : State) : Label → ℕ
  | .go i .recordFailure =>
    if (s.logins.lookup i).any scope.covers then
      if (scope.window s.limiter).any (fun w => w.active s.clock) then n + 1 else 1
    else n
  | _ => n

/-- The failed verifications that were carried out in a window, until the run along `ls` has led to the state:
those that were recorded since the window was opened, by a failure after any success, and those that are to
be recorded. -/
def failures (scope : Scope) (clock : ℕ) (ls : List Label) (s : State) : ℕ :=
  (if (scope.window s.limiter).any (fun w => w.active s.clock) then
    foldAlong (recordedIn scope) step 0 (init clock) ls else 0) +
  countVal (fun q => q.failing && scope.covers q) s.logins

/-- The windows that count the failures of a login. -/
def scopesOf (q : Login) : List Scope := [.name (normalize q.username), .everyone]

/-- A login that gets past the check has room: with the failures in the window and the logins under way, it
is still within the limit. -/
def Room (s : State) : Label → Prop
  | .go i .check => ∀ q ∈ s.logins.lookup i, s.limiter.check q.username s.clock = .ok () →
    ∀ scope ∈ scopesOf q, counted (scope.window s.limiter) s.clock + underWay scope s < scope.limit
  | _ => True

instance (s : State) : ∀ l, Decidable (Room s l)
  | .go i .check => inferInstanceAs (Decidable (∀ q ∈ s.logins.lookup i,
      s.limiter.check q.username s.clock = .ok () →
      ∀ scope ∈ scopesOf q, counted (scope.window s.limiter) s.clock + underWay scope s < scope.limit))
  | .tick | .arrive _ _ | .go _ (.verify _ _) | .go _ .recordFailure | .go _ (.createSession _)
  | .go _ .recordSuccess => isTrue trivial

variable {s s' : State} {l : Label} {q : Login} {a : Action} {scope : Scope} {stage : Stage}

theorem mem_scopesOf : scope ∈ scopesOf q ↔ scope.covers q = true := by
  cases scope with
  | name username => simp [scopesOf, Scope.covers, eq_comm]
  | everyone => simp [scopesOf, Scope.covers]

/-! ### What a step does -/

theorem step_cases (h : step s l = some s') :
    (l = .tick ∧ s' = { s with clock := s.clock + 1 }) ∨
    (∃ i username, l = .arrive i username ∧ s.logins.lookup i = none ∧
      s' = { s with logins := s.logins.insert i ⟨normalize username, .start⟩ }) ∨
    ∃ i a q stage, l = .go i a ∧ s.logins.lookup i = some q ∧ next s q a = some stage ∧
      s' = { s with
        limiter := limiterAfter s q a
        logins := s.logins.insert i { q with stage := stage } } := by
  cases l with
  | tick =>
    cases h
    exact Or.inl ⟨rfl, rfl⟩
  | arrive i username =>
    simp only [step] at h
    split at h
    · next hi =>
      cases h
      exact Or.inr (Or.inl ⟨i, username, rfl, hi, rfl⟩)
    · cases h
  | go i a =>
    simp only [step, Option.bind_eq_some_iff, Option.map_eq_some_iff] at h
    obtain ⟨q, hi, stage, hnext, rfl⟩ := h
    exact Or.inr (Or.inr ⟨i, a, q, stage, rfl, hi, hnext, rfl⟩)

/-- A login comes under way by passing the check, and stops by recording its failure, or because it has not
failed. -/
theorem next_cases (h : next s q a = some stage) :
    (a = .check ∧ s.limiter.check q.username s.clock = .ok () ∧ q.underWay = false ∧
      stage = .verifying) ∨
    (a = .recordFailure ∧ q.underWay = true ∧ Login.underWay { q with stage := stage } = false) ∨
    (a ≠ .recordFailure ∧ (Login.underWay { q with stage := stage } = true → q.underWay = true)) := by
  cases a with
  | check =>
    simp only [next] at h
    split_ifs at h with hstage
    split at h
    · cases h
      exact Or.inr (Or.inr ⟨by simp, fun hu => by cases hu⟩)
    · next hok =>
      cases h
      exact Or.inl ⟨rfl, hok, by simp [Login.underWay, hstage], rfl⟩
  | verify result tenant =>
    simp only [next] at h
    split_ifs at h with hstage
    exact Or.inr (Or.inr ⟨by simp, fun _ => by simp [Login.underWay, hstage]⟩)
  | recordFailure =>
    simp only [next] at h
    split at h
    · next response hstage =>
      cases h
      exact Or.inr (Or.inl ⟨rfl, by simp [Login.underWay, hstage], rfl⟩)
    · cases h
  | createSession error =>
    simp only [next] at h
    split_ifs at h
    cases h
    refine Or.inr (Or.inr ⟨by simp, fun hu => ?_⟩)
    cases error <;> cases hu
  | recordSuccess =>
    simp only [next] at h
    split_ifs at h
    cases h
    exact Or.inr (Or.inr ⟨by simp, fun hu => by cases hu⟩)

/-! ### What becomes of a window -/

theorem counted_some (w : Window) (now : ℕ) :
    counted (some w) now = if w.active now = true then w.count else 0 := by
  unfold counted
  rw [Option.filter_some]
  split_ifs <;> rfl

theorem counted_of_active {w : Window} {now : ℕ} (h : w.active now = true) : counted (some w) now = w.count := by
  rw [counted_some, if_pos h]

theorem counted_of_inactive {o : Option Window} {now : ℕ} (h : o.any (fun w => w.active now) = false) :
    counted o now = 0 := by
  cases o with
  | none => rfl
  | some w =>
    rw [counted_some, if_neg]
    simpa using h

theorem active_of_later {w : Window} {now : ℕ} (h : w.active (now + 1) = true) : w.active now = true := by
  simp only [Window.active, decide_eq_true_eq] at h ⊢
  omega

theorem counted_later (o : Option Window) (now : ℕ) : counted o (now + 1) ≤ counted o now := by
  cases o with
  | none => exact le_rfl
  | some w =>
    rw [counted_some w (now + 1)]
    split_ifs with h
    · rw [counted_of_active (active_of_later h)]
    · exact Nat.zero_le _

theorem recorded_spec (o : Option Window) (now : ℕ) {window : ℕ} (hw : 0 < window) :
    (Window.recorded o now window).active now = true ∧
      counted (some (.recorded o now window)) now = min (counted o now + 1) (2 ^ 32 - 1) := by
  have hfresh : (Window.fresh now window).active now = true := by simp [Window.fresh, Window.active, hw]
  have hcase : ∀ w : Window, w.active now = true →
      Window.active { w with count := min (w.count + 1) (2 ^ 32 - 1) } now = true ∧
        counted (some { w with count := min (w.count + 1) (2 ^ 32 - 1) }) now =
          min (w.count + 1) (2 ^ 32 - 1) := by
    intro w hact
    have hact' : Window.active { w with count := min (w.count + 1) (2 ^ 32 - 1) } now = true := hact
    exact ⟨hact', counted_of_active hact'⟩
  cases o with
  | none =>
    simp only [Window.recorded, Option.getD_none, hfresh, if_true]
    exact hcase _ hfresh
  | some w =>
    cases hact : w.active now with
    | true =>
      simp only [Window.recorded, Option.getD_some, hact, if_true, counted_some w]
      exact hcase w hact
    | false =>
      simp only [Window.recorded, Option.getD_some, hact, Bool.false_eq_true, if_false, counted_some w]
      exact hcase _ hfresh

theorem window_recordFailure (scope : Scope) (l : LoginLimiter) (q : Login) (now : ℕ) :
    scope.window (l.recordFailure q.username now) =
      if scope.covers q = true then some (.recorded (scope.window l) now 60) else scope.window l := by
  cases scope with
  | name username =>
    simp only [Scope.window, LoginLimiter.recordFailure, lookup_insert, Scope.covers, decide_eq_true_eq]
    split_ifs with h h' h'
    · rw [h]
      rfl
    · exact absurd h.symm h'
    · exact absurd h'.symm h
    · rfl
  | everyone => rfl

theorem window_recordSuccess (scope : Scope) (l : LoginLimiter) (username : String) :
    scope.window (l.recordSuccess username) = none ∨
      scope.window (l.recordSuccess username) = scope.window l := by
  cases scope with
  | name u =>
    simp only [Scope.window, LoginLimiter.recordSuccess, lookup_erase]
    split_ifs
    · exact Or.inl rfl
    · exact Or.inr rfl
  | everyone => exact Or.inr rfl

theorem counted_lt_of_check (h : s.limiter.check q.username s.clock = .ok ()) (hs : scope ∈ scopesOf q) :
    counted (scope.window s.limiter) s.clock < scope.limit := by
  have hlt : ∀ (o : Option Window) (limit : ℕ), 0 < limit →
      LoginLimiter.refusal o s.clock limit = none → counted o s.clock < limit := by
    intro o limit hpos hnone
    cases o with
    | none => exact hpos
    | some w =>
      simp only [LoginLimiter.refusal, Option.map_eq_none_iff, Option.filter_eq_none_iff,
        Window.blocked] at hnone
      rw [counted_some]
      split_ifs with hactive
      · have hfull := hnone w rfl
        rw [hactive] at hfull
        simpa using hfull
      · exact hpos
  unfold LoginLimiter.check at h
  split at h
  · cases h
  · next hglobal =>
    split at h
    · cases h
    · next huser =>
      rcases List.mem_pair.mp hs with rfl | rfl
      · exact hlt _ userLimit (by decide) huser
      · exact hlt _ globalLimit (by decide) hglobal

/-! ### Room for every login -/

/-- In every window there is room for the logins under way. -/
def Within (s : State) : Prop :=
  ∀ scope : Scope, counted (scope.window s.limiter) s.clock + underWay scope s ≤ scope.limit

theorem covers_stage (scope : Scope) (q : Login) (stage : Stage) :
    scope.covers { q with stage := stage } = scope.covers q := by
  cases scope <;> rfl

theorem counted_underWay_go {i : ℕ} (hi : s.logins.lookup i = some q) (hnext : next s q a = some stage)
    (hroom : Room s (.go i a)) (h : Within s) (scope : Scope) :
    counted (scope.window (limiterAfter s q a)) s.clock +
      countVal (fun q => q.underWay && scope.covers q) (s.logins.insert i { q with stage := stage }) ≤
      scope.limit := by
  have hold := h scope
  have hstep := countVal_step (fun q => q.underWay && scope.covers q) hi { q with stage := stage }
  simp only [covers_stage] at hstep
  unfold underWay at hold
  rcases next_cases hnext with ⟨rfl, hok, hidle, rfl⟩ | ⟨rfl, hunder, hidle⟩ | ⟨hne, hkeep⟩
  · -- past the check: this is where there has to be room
    have hlimiter : limiterAfter s q .check = s.limiter := rfl
    rw [hlimiter]
    cases hcov : scope.covers q with
    | false =>
      simp only [hcov, Bool.and_false, Bool.toNat_false] at hstep
      omega
    | true =>
      have hlt := hroom q hi hok scope (mem_scopesOf.mpr hcov)
      unfold underWay at hlt
      have hone : (Login.underWay { q with stage := .verifying } && true).toNat = 1 := rfl
      rw [hcov, hidle, hone, Bool.false_and, Bool.toNat_false] at hstep
      omega
  · have hlimiter : limiterAfter s q .recordFailure = s.limiter.recordFailure q.username s.clock := rfl
    rw [hlimiter, window_recordFailure]
    cases hcov : scope.covers q with
    | false =>
      simp only [hcov, Bool.and_false, Bool.toNat_false] at hstep
      simp only [Bool.false_eq_true, if_false]
      omega
    | true =>
      have hcount := (recorded_spec (scope.window s.limiter) s.clock (Nat.succ_pos 59)).2
      rw [hcov, hunder, hidle, Bool.false_and, Bool.true_and, Bool.toNat_false, Bool.toNat_true] at hstep
      rw [if_pos rfl, hcount]
      omega
  · have hwindow : counted (scope.window (limiterAfter s q a)) s.clock ≤
        counted (scope.window s.limiter) s.clock := by
      cases a with
      | recordFailure => exact absurd rfl hne
      | recordSuccess =>
        rcases window_recordSuccess scope s.limiter q.username with hnone | hsame
        · simp [limiterAfter, hnone, counted]
        · simp [limiterAfter, hsame]
      | _ => exact le_rfl
    have hle : (Login.underWay { q with stage := stage } && scope.covers q).toNat ≤
        (q.underWay && scope.covers q).toNat := by
      cases hnew : Login.underWay { q with stage := stage } with
      | false => simp
      | true => rw [hkeep hnew]
    omega

/-- **One step** of a run in which there is always room. -/
theorem within_step (h : Within s) (hroom : Room s l) (hs : step s l = some s') : Within s' := by
  intro scope
  rcases step_cases hs with ⟨rfl, rfl⟩ | ⟨i, username, rfl, hi, rfl⟩ | ⟨i, a, q, stage, rfl, hi, hnext, rfl⟩
  · have hold := h scope
    have hlater := counted_later (scope.window s.limiter) s.clock
    exact (Nat.add_le_add_right hlater _).trans hold
  · have hold := h scope
    unfold underWay at hold ⊢
    rw [countVal_insert_of_none _ _ hi]
    exact hold
  · exact counted_underWay_go hi hnext hroom h scope

theorem within_init (clock : ℕ) : Within (init clock) := by
  intro scope
  cases scope <;> exact Nat.zero_le _

/-- What is recorded in an active window is what the window counts. -/
def Tallied (clock : ℕ) (ls : List Label) (s : State) : Prop :=
  ∀ scope : Scope, (scope.window s.limiter).any (fun w => w.active s.clock) = true →
    foldAlong (recordedIn scope) step 0 (init clock) ls = counted (scope.window s.limiter) s.clock

theorem tallied_step {clock : ℕ} {ls : List Label} (hrun : run step (init clock) ls = some s)
    (ht : Tallied clock ls s) (hw : Within s) (hs : step s l = some s') : Tallied clock (ls ++ [l]) s' := by
  intro scope hactive
  rw [foldAlong_concat _ hrun]
  rcases step_cases hs with ⟨rfl, rfl⟩ | ⟨i, username, rfl, hi, rfl⟩ | ⟨i, a, q, stage, rfl, hi, hnext, rfl⟩
  · dsimp only at hactive ⊢
    cases hwin : scope.window s.limiter with
    | none =>
      rw [hwin] at hactive
      cases hactive
    | some w =>
      rw [hwin, Option.any_some] at hactive
      have hbefore : w.active s.clock = true := active_of_later hactive
      have hsame := ht scope (by rw [hwin, Option.any_some, hbefore])
      rw [hwin, counted_of_active hbefore] at hsame
      rw [counted_of_active hactive]
      exact hsame
  · exact ht scope hactive
  · cases a with
    | recordFailure =>
      simp only [recordedIn, hi, Option.any_some]
      simp only [limiterAfter, window_recordFailure] at hactive ⊢
      cases hcov : scope.covers q with
      | false =>
        simp only [hcov, Bool.false_eq_true, if_false] at hactive ⊢
        exact ht scope hactive
      | true =>
        have hlimit : scope.limit ≤ 60 := by
          cases scope <;> simp [Scope.limit, userLimit, globalLimit]
        have hcount := (recorded_spec (scope.window s.limiter) s.clock (Nat.succ_pos 59)).2
        have hbound := hw scope
        rw [if_pos rfl, if_pos rfl, hcount]
        cases hbefore : (scope.window s.limiter).any fun w => w.active s.clock with
        | true =>
          rw [if_pos rfl, ht scope hbefore]
          omega
        | false =>
          rw [counted_of_inactive hbefore]
          rfl
    | recordSuccess =>
      rcases window_recordSuccess scope s.limiter q.username with hnone | hsame
      · simp only [limiterAfter, hnone] at hactive
        cases hactive
      · simp only [limiterAfter, hsame] at hactive ⊢
        exact ht scope hactive
    | _ => exact ht scope hactive

/-- **Failed logins are bounded.** In a run in which every login that gets past the check has room, no more
verifications fail in a window than its limit: 5 for a username, 60 for all. -/
theorem failures_bounded {clock : ℕ} {ls : List Label} (hroom : AllSteps step Room (init clock) ls)
    (hrun : run step (init clock) ls = some s) (scope : Scope) : failures scope clock ls s ≤ scope.limit := by
  have hinit : Within (init clock) ∧ Tallied clock [] (init clock) :=
    ⟨within_init clock, fun scope hactive => by cases scope <;> cases hactive⟩
  have hstep : ∀ ls s l s', run step (init clock) ls = some s → Within s ∧ Tallied clock ls s →
      Room s l → step s l = some s' → Within s' ∧ Tallied clock (ls ++ [l]) s' :=
    fun ls s l s' hrun h hroom hs => ⟨within_step h.1 hroom hs, tallied_step hrun h.2 h.1 hs⟩
  obtain ⟨hwithin, htallied⟩ := run_history hinit hstep ls s hroom hrun
  have hbound := hwithin scope
  have hfailing : countVal (fun q => q.failing && scope.covers q) s.logins ≤ underWay scope s := by
    refine countVal_mono (fun q hq => ?_) _
    rw [Bool.and_eq_true] at hq ⊢
    refine ⟨?_, hq.2⟩
    unfold Login.underWay
    cases hstage : q.stage <;> simp [Login.failing, hstage] at hq ⊢
  unfold failures
  split_ifs with hactive
  · rw [htallied scope hactive]
    omega
  · omega

/-- A login that is alone has room. -/
theorem room_of_alone {i : ℕ} (h : ∀ j q, s.logins.lookup j = some q → q.underWay = false) :
    Room s (.go i .check) := by
  intro q hq hok scope hscope
  have hzero : underWay scope s = 0 := by
    refine Nat.eq_zero_of_not_pos fun hpos => ?_
    obtain ⟨j, r, hj, hr⟩ := countVal_pos.mp hpos
    rw [h j r hj] at hr
    cases hr
  rw [hzero, Nat.add_zero]
  exact counted_lt_of_check hok hscope

/-- Two logins at once, both with a wrong name, and one more after the first is recorded. -/
def someLogins : List Label :=
  [.arrive 0 " Alice", .go 0 .check, .arrive 1 "alice", .go 1 .check, .go 0 (.verify (some (none, false)) none),
    .go 0 .recordFailure, .tick, .arrive 2 "ALICE", .go 2 .check, .go 1 (.verify (some (none, false)) none)]

/-- They have room, and two of them have failed. -/
theorem failures_bounded_some : ∃ s, run step (init 0) someLogins = some s ∧
    failures (.name "alice") 0 someLogins s = 2 ∧ failures (.name "alice") 0 someLogins s ≤ userLimit := by
  obtain ⟨s, hs, hf⟩ := exists_run step (init 0) someLogins
    (fun s => failures (.name "alice") 0 someLogins s = 2) (by decide +kernel)
  exact ⟨s, hs, hf, failures_bounded (by decide +kernel) hs (.name "alice")⟩

/-! ### Logins at once -/

/-- The logins up to `n` with one username are all checked before one of them fails. -/
def atOnce (username : String) (n : ℕ) : List Label :=
  (List.range n).flatMap (fun i => [.arrive i username, .go i .check]) ++
    (List.range n).flatMap fun i => [.go i (.verify (some (none, false)) none), .go i .recordFailure]

/-- With six logins at once six verifications fail in the window of the username, and with 61 of them 61 in
the window of all. -/
theorem failures_unbounded :
    (∃ s, run step (init 0) (atOnce "alice" 6) = some s ∧
      ¬ failures (.name "alice") 0 (atOnce "alice" 6) s ≤ userLimit) ∧
    ∃ s, run step (init 0) (atOnce "alice" 61) = some s ∧
      ¬ failures .everyone 0 (atOnce "alice" 61) s ≤ globalLimit :=
  ⟨exists_run step (init 0) _ (fun s => ¬ failures (.name "alice") 0 (atOnce "alice" 6) s ≤ userLimit)
      (by decide +kernel),
    exists_run step (init 0) _ (fun s => ¬ failures .everyone 0 (atOnce "alice" 61) s ≤ globalLimit)
      (by decide +kernel)⟩

end HomeLlmGateway.Access.FailedLogins
