import HomeLlmGateway.Access.AdminAuth
import HomeLlmGateway.Admin.Handlers
import HomeLlmGateway.Storage.LastAdmin

/-! # The first super admin

`bootstrap` of `gateway/src/access/session.rs` creates a super admin if there is no user yet. A lock keeps two
of these requests apart; but the user is created by a task of its own, which goes on when the request is
dropped, and the lock is released then. So any number of bootstraps creates one super admin, and one more for
each that has lost its task meanwhile (`bootstraps_create_one`). -/

namespace HomeLlmGateway.Admin.Bootstrap

open HomeLlmGateway.Lib.Runs HomeLlmGateway.Lib.Assoc
open HomeLlmGateway.Lib.ByteCodec.Codec
open HomeLlmGateway.Proto.Http (HeaderMap ofList)
open HomeLlmGateway.Access.Cookies (authorizationName)
open HomeLlmGateway.Access.AdminAuth (breakGlassOk)
open HomeLlmGateway.Admin.Handlers (Response errorResponse userErrorResponse)
open HomeLlmGateway.Storage
open HomeLlmGateway.Storage.Keys (Config)
open HomeLlmGateway.Storage.Users
open HomeLlmGateway.Storage.Accounts (Call CreateUserPc createUserStep callStep)
open HomeLlmGateway.Storage.UserSync HomeLlmGateway.Storage.LastAdmin

/-! ### The requests -/

/-- Where a request stands. -/
inductive Pc where
  /-- for `bootstrap_lock` -/
  | waiting (username password : String)
  | checking (username password : String)
  /-- for the task that runs its call of `create_user` -/
  | creating (i : ℕ)
  | refused (response : Response)
  | created (user : UserRecord)
  deriving DecidableEq

/-- The call that a request waits for. -/
def Pc.call : Pc → Option ℕ
  | .creating i => some i
  | _ => none

structure State where
  accounts : Accounts.State
  requests : HashMap ℕ Pc
  /-- who holds `bootstrap_lock` -/
  lock : Option ℕ
  /-- the calls that no request waits for any more -/
  orphans : List ℕ
  /-- how many users bootstraps have put into the table -/
  created : ℕ
  /-- how many requests have been dropped while their tasks ran, or had tasks that failed -/
  lost : ℕ

/-- The first start, with empty tables. -/
def init : State := ⟨Accounts.init, ∅, none, [], 0, 0⟩

/-- `user_count`. -/
def userCount (st : Accounts.Store) : ℕ := st.users.entries.length

/-- The call that the request `j` waits for. -/
def callOf (s : State) (j : ℕ) : Option ℕ := (s.requests.lookup j).bind Pc.call

/-- The call that the holder of the lock waits for. -/
def own (s : State) : Option ℕ := s.lock.bind (callOf s)

/-- The call has not yet put its user into the table. -/
def early : Call → Bool
  | .createUser _ _ _ _ _ .start | .createUser _ _ _ _ _ (.checking _)
  | .createUser _ _ _ _ _ (.inserting _) => true
  | _ => false

/-- The user is in the table and not yet in memory. -/
def landing : Call → Bool
  | .createUser _ _ _ _ _ (.indexing _) | .createUser _ _ _ _ _ (.publishing _) => true
  | _ => false

/-- A step of the call `i` has put a user into the table. -/
def inserts (s : State) (accounts : Accounts.State) (i : ℕ) : Bool :=
  (s.accounts.calls.lookup i).any early && (accounts.calls.lookup i).any landing

inductive Label where
  /-- the request `j` comes in -/
  | request (j : ℕ) (headers : HeaderMap) (username password : String)
  | lock (j : ℕ)
  /-- it looks for users, and begins the call `i` if there are none -/
  | check (j i : ℕ)
  /-- its call has returned -/
  | finish (j : ℕ)
  /-- its task has panicked -/
  | fail (j : ℕ)
  /-- the client has gone away -/
  | drop (j : ℕ)
  /-- any call on users or keys begins or goes on, those of bootstraps too -/
  | accounts (l : Accounts.Label)
  /-- the process ends and starts again on its tables -/
  | restart

/-- The request has an answer, and the lock is released. -/
def State.answer (s : State) (j : ℕ) (pc : Pc) : State :=
  { s with requests := s.requests.insert j pc, lock := none }

/-- The call `i` may go on, but nobody waits for it. -/
def State.orphan (s : State) (i : ℕ) : State := { s with orphans := s.orphans ++ [i], lost := s.lost + 1 }

/-- The request is gone. -/
def State.remove (s : State) (j : ℕ) : State :=
  { s with requests := s.requests.erase j, lock := if s.lock = some j then none else s.lock }

/-- What the request makes of the result of its call. -/
def resultPc : CreateUserPc → Option Pc
  | .done (.ok user) => some (.created user)
  | .done (.error e) => some (.refused (userErrorResponse e))
  | _ => none

def step (cfg : Config) (adminToken : Option String) (s : State) : Label → Option State
  | .request j headers username password =>
    match s.requests.lookup j with
    | some _ => none
    | none =>
      let pc := if breakGlassOk adminToken headers then .waiting username password
        else .refused (errorResponse 401 "invalid admin token")
      some { s with requests := s.requests.insert j pc }
  | .lock j =>
    match s.requests.lookup j, s.lock with
    | some (.waiting username password), none =>
      some { s with requests := s.requests.insert j (.checking username password), lock := some j }
    | _, _ => none
  | .check j i =>
    match s.requests.lookup j with
    | some (.checking username password) =>
      if userCount s.accounts.store > 0 then
        some (s.answer j (.refused (errorResponse 409 "gateway is already bootstrapped")))
      else
        (Accounts.step cfg s.accounts (.start i (.createUser username password .superAdmin none none))).map
          fun accounts => { s with accounts := accounts, requests := s.requests.insert j (.creating i) }
    | _ => none
  | .finish j =>
    (callOf s j).bind fun i =>
      (s.accounts.calls.lookup i).bind fun c =>
        match c with
        | .createUser _ _ _ _ _ pc => (resultPc pc).map (s.answer j)
        | _ => none
  | .fail j => (callOf s j).map fun i =>
      (s.answer j (.refused (errorResponse 500 "bootstrap failed"))).orphan i
  | .drop j => (s.requests.lookup j).map fun _ =>
      match callOf s j with
      | none => s.remove j
      | some i => (s.remove j).orphan i
  | .accounts .restart => none
  | .accounts (.start i request) =>
    (Accounts.step cfg s.accounts (.start i request)).map fun accounts => { s with accounts := accounts }
  | .accounts (.step i a) =>
    (Accounts.step cfg s.accounts (.step i a)).map fun accounts =>
      { s with
        accounts := accounts
        created := s.created +
          if (own s = some i ∨ i ∈ s.orphans) ∧ inserts s accounts i then 1 else 0 }
  | .restart =>
    (Accounts.step cfg s.accounts .restart).map fun accounts =>
      { s with accounts := accounts, requests := ∅, lock := none, orphans := [] }

/-- The step leaves a super admin where there is one, in memory and in the table. -/
def LeavesSuper (cfg : Config) (adminToken : Option String) (s : State) (l : Label) : Prop :=
  ∀ s' ∈ step cfg adminToken s l,
    (HasSuper s.accounts.store.users → HasSuper s'.accounts.store.users) ∧
      (HasSuper s.accounts.store.userRows → HasSuper s'.accounts.store.userRows)

/-! ### What is known at every time -/

/-- How many of the calls that nobody waits for may still put a user into the table. -/
def pending (s : State) : ℕ := s.orphans.countP fun i => (s.accounts.calls.lookup i).any early

/-- A call of a bootstrap. -/
def Creates (c : Call) : Prop :=
  (∃ username password pc, c = .createUser username password .superAdmin none none pc) ∧
    ∀ r, target c = some r → r.isEnabledSuper = true

/-- What is known of the requests, of their calls, and of the users that they have created: all belong to
calls that nobody waits for, but one, and then there is a super admin or is about to be. -/
structure Inv (s : State) : Prop where
  waits : ∀ j i, callOf s j = some i → s.lock = some j
  checks : ∀ j username password, s.requests.lookup j = some (.checking username password) → s.lock = some j
  calls : ∀ i, own s = some i ∨ i ∈ s.orphans → ∃ c, s.accounts.calls.lookup i = some c ∧ Creates c
  apart : ∀ i, own s = some i → i ∉ s.orphans
  nodup : s.orphans.Nodup
  bound : s.created + pending s ≤ s.lost + 1
  before : ∀ i c, own s = some i → s.accounts.calls.lookup i = some c → early c = true →
    s.created + pending s ≤ s.lost
  empty : ¬ HasSuper s.accounts.store.users →
    (∀ i c, own s = some i → s.accounts.calls.lookup i = some c → landing c = false) →
    s.created + pending s ≤ s.lost
  landed : ∀ i c, own s = some i → s.accounts.calls.lookup i = some c → landing c = true →
    HasSuper s.accounts.store.userRows

section calls

variable {cfg : Config} {st st' : Accounts.Store} {a : Accounts.Answer} {c c' : Call}

theorem not_landing_of_early (h : early c = true) : landing c = false := by
  unfold early at h
  split at h
  · rfl
  · rfl
  · rfl
  · cases h

/-- **One step of a call of a bootstrap.** -/
theorem creates_step (hc : Creates c) (h : callStep cfg st a c = some (st', c')) :
    Creates c' ∧ (early c' = true → early c = true) ∧
      (landing c' = true → landing c = true ∨ HasSuper st'.userRows) ∧
      (landing c = true → landing c' = true ∨ HasSuper st'.users) := by
  obtain ⟨⟨u, p, pc, rfl⟩, hsuper⟩ := hc
  obtain ⟨⟨st1, pc'⟩, hstep, he⟩ := Option.map_eq_some_iff.mp h
  cases he
  cases pc with
  | start =>
    simp only [createUserStep] at hstep
    split at hstep <;> cases hstep
    generalize Accounts.createUserCheck _ _ _ _ _ = result
    cases result with
    | ok name =>
      exact ⟨⟨⟨u, p, _, rfl⟩, fun r hr => by cases hr⟩, fun _ => rfl, fun hl => (by cases hl), fun hl => by cases hl⟩
    | error e =>
      exact ⟨⟨⟨u, p, _, rfl⟩, fun r hr => by cases hr⟩, fun _ => rfl, fun hl => (by cases hl), fun hl => by cases hl⟩
  | checking name =>
    simp only [createUserStep] at hstep
    split_ifs at hstep <;> cases hstep
    · exact ⟨⟨⟨u, p, _, rfl⟩, fun r hr => by cases hr⟩, fun _ => rfl, fun hl => (by cases hl), fun hl => by cases hl⟩
    · exact ⟨⟨⟨u, p, _, rfl⟩, fun r hr => by cases hr⟩, fun _ => rfl, fun hl => (by cases hl), fun hl => by cases hl⟩
  | inserting name =>
    simp only [createUserStep] at hstep
    split at hstep
    · split_ifs at hstep <;> cases hstep
      · exact ⟨⟨⟨u, p, _, rfl⟩, fun r hr => by cases hr⟩, fun _ => rfl, fun hl => (by cases hl),
          fun hl => by cases hl⟩
      · next id hash now _ =>
        refine ⟨⟨⟨u, p, _, rfl⟩, fun r hr => ?_⟩, fun _ => rfl, fun _ => Or.inr ⟨id, ?_⟩, fun hl => by cases hl⟩
        · cases hr
          rfl
        · have hrow := Accounts.lookup_insertRow st id ⟨id, none, name, hash, .superAdmin, true, now, now, 0, none⟩
          rw [if_pos rfl] at hrow
          rw [superAt_of_lookup hrow]
          rfl
    · cases hstep
      exact ⟨⟨⟨u, p, _, rfl⟩, fun r hr => by cases hr⟩, fun _ => rfl, fun hl => (by cases hl), fun hl => by cases hl⟩
    · cases hstep
  | indexing r =>
    cases hstep
    exact ⟨⟨⟨u, p, _, rfl⟩, hsuper⟩, fun hl => (by cases hl), fun _ => Or.inl rfl, fun _ => Or.inl rfl⟩
  | publishing r =>
    cases hstep
    refine ⟨⟨⟨u, p, _, rfl⟩, fun r hr => by cases hr⟩, fun hl => (by cases hl), fun hl => (by cases hl),
      fun _ => Or.inr ⟨r.id, ?_⟩⟩
    have hlook : (st.write (.publish r.id r)).users.lookup r.id = some r := by
      rw [Accounts.lookup_publish, if_pos rfl]
    rw [superAt_of_lookup hlook]
    exact hsuper r rfl
  | done result => cases hstep

end calls

section requests

variable {s s' : State}

theorem Inv.quiet (h : Inv s) (hacc : s'.accounts = s.accounts) (horphans : s'.orphans = s.orphans)
    (hcreated : s'.created = s.created) (hlost : s'.lost = s.lost)
    (hwaits : ∀ j i, callOf s' j = some i → s'.lock = some j)
    (hchecks : ∀ j u p, s'.requests.lookup j = some (.checking u p) → s'.lock = some j)
    (hown : own s' = own s ∨ (own s' = none ∧ ∀ i c, own s = some i → s.accounts.calls.lookup i = some c →
      landing c = false)) : Inv s' := by
  have hold : ∀ {i}, own s' = some i → own s = some i := by
    intro i hi
    rcases hown with hown | ⟨hown, -⟩
    · rw [← hown, hi]
    · rw [hown] at hi
      cases hi
  have hpending : pending s' = pending s := by
    unfold pending
    rw [hacc, horphans]
  refine ⟨hwaits, hchecks, fun i hi => ?_, fun i hi => ?_, horphans ▸ h.nodup, ?_, fun i c hi hc => ?_,
    fun hnone hland => ?_, fun i c hi hc => ?_⟩
  · rw [hacc]
    exact h.calls i (hi.imp hold fun hm => horphans ▸ hm)
  · rw [horphans]
    exact h.apart i (hold hi)
  · rw [hcreated, hpending, hlost]
    exact h.bound
  · rw [hcreated, hpending, hlost]
    exact h.before i c (hold hi) (hacc ▸ hc)
  · rw [hcreated, hpending, hlost]
    rw [hacc] at hnone hland
    refine h.empty hnone fun i c hi hc => ?_
    rcases hown with hown | ⟨-, hown⟩
    · exact hland i c (hown.trans hi) hc
    · exact hown i c hi hc
  · rw [hacc] at hc ⊢
    exact h.landed i c (hold hi) hc

/-- **A request loses its call.** -/
theorem Inv.orphaned (h : Inv s) {j i : ℕ} (hj : callOf s j = some i) (hacc : s'.accounts = s.accounts)
    (horphans : s'.orphans = s.orphans ++ [i]) (hcreated : s'.created = s.created) (hlost : s'.lost = s.lost + 1)
    (hlock : s'.lock = none) (hwaits : ∀ j i, callOf s' j ≠ some i)
    (hchecks : ∀ j u p, s'.requests.lookup j ≠ some (.checking u p)) : Inv s' := by
  have hown : own s = some i := by
    unfold own
    rw [h.waits j i hj]
    exact hj
  have hnone : own s' = none := by
    unfold own
    rw [hlock]
    rfl
  obtain ⟨c, hi, hc⟩ := h.calls i (Or.inl hown)
  have hpending : pending s' = pending s + if early c then 1 else 0 := by
    unfold pending
    rw [hacc, horphans, List.countP_append, List.countP_singleton, hi]
    rfl
  -- a call that has not put its user into the table leaves room for one
  have hcount : s'.created + pending s' ≤ s'.lost := by
    rw [hcreated, hpending, hlost]
    cases he : early c with
    | false => exact h.bound
    | true =>
      have := h.before i c hown hi he
      simp only [if_true]
      omega
  refine ⟨fun j i hj => absurd hj (hwaits j i), fun j u p hj => absurd hj (hchecks j u p), fun k hk => ?_,
    fun k hk => ?_, ?_, ?_, fun k c hk => ?_, fun _ _ => hcount, fun k c hk => ?_⟩
  · rw [hacc]
    rcases hk with hk | hk
    · rw [hnone] at hk
      cases hk
    · rw [horphans, List.mem_append, List.mem_singleton] at hk
      rcases hk with hk | rfl
      · exact h.calls k (Or.inr hk)
      · exact ⟨c, hi, hc⟩
  · rw [hnone] at hk
    cases hk
  · rw [horphans]
    exact List.nodup_append.mpr ⟨h.nodup, List.nodup_singleton i, fun k hk l hl he => h.apart i hown (by
      rw [← List.mem_singleton.mp hl, ← he]
      exact hk)⟩
  · omega
  · rw [hnone] at hk
    cases hk
  · rw [hnone] at hk
    cases hk

theorem Inv.free (h : Inv s) (hlock : s.lock = none) (j : ℕ) :
    callOf s j = none ∧ ∀ u p, s.requests.lookup j ≠ some (.checking u p) := by
  constructor
  · by_contra hne
    obtain ⟨i, hi⟩ := Option.ne_none_iff_exists'.mp hne
    rw [h.waits j i hi] at hlock
    cases hlock
  · intro u p hj
    rw [h.checks j u p hj] at hlock
    cases hlock

theorem callOf_insert {k : ℕ} {pc : Pc} (hs : s'.requests = s.requests.insert k pc) (j : ℕ) :
    callOf s' j = if j = k then pc.call else callOf s j := by
  unfold callOf
  rw [hs, lookup_insert]
  split_ifs
  · rfl
  · rfl

theorem Inv.answered (h : Inv s) {j : ℕ} (hlock : s.lock = some j) (pc : Pc) (hpc : pc.call = none)
    (hpc' : ∀ u p, pc ≠ .checking u p) (k : ℕ) :
    callOf (s.answer j pc) k = none ∧ ∀ u p, (s.answer j pc).requests.lookup k ≠ some (.checking u p) := by
  have hcall : callOf (s.answer j pc) k = if k = j then pc.call else callOf s k := callOf_insert rfl k
  by_cases hk : k = j
  · subst hk
    constructor
    · rw [hcall, if_pos rfl, hpc]
    · intro u p
      rw [State.answer, lookup_insert, if_pos rfl]
      exact fun he => hpc' u p (Option.some.inj he)
  · constructor
    · rw [hcall, if_neg hk]
      by_contra hne
      obtain ⟨i, hi⟩ := Option.ne_none_iff_exists'.mp hne
      have := h.waits k i hi
      rw [hlock] at this
      exact hk (Option.some.inj this).symm
    · intro u p
      rw [State.answer, lookup_insert, if_neg hk]
      intro hc
      have := h.checks k u p hc
      rw [hlock] at this
      exact hk (Option.some.inj this).symm

theorem callOf_remove (s : State) (j k : ℕ) : callOf (s.remove j) k = if k = j then none else callOf s k := by
  unfold callOf State.remove
  rw [lookup_erase]
  split_ifs
  · rfl
  · rfl

/-- The request `j` is gone: who still waits for a call, or looks for users, holds the lock. -/
theorem Inv.removed (h : Inv s) (j : ℕ) :
    (∀ k i, callOf (s.remove j) k = some i → k ≠ j ∧ s.lock = some k) ∧
      ∀ k u p, (s.remove j).requests.lookup k = some (.checking u p) → k ≠ j ∧ s.lock = some k := by
  constructor
  · intro k i hk
    rw [callOf_remove] at hk
    split_ifs at hk with hkj
    exact ⟨hkj, h.waits k i hk⟩
  · intro k u p hk
    rw [State.remove, lookup_erase] at hk
    split_ifs at hk with hkj
    exact ⟨hkj, h.checks k u p hk⟩

end requests

section steps

variable {cfg : Config} {adminToken : Option String} {s s' : State} {accounts : Accounts.State}

theorem Inv.ne_of_free (h : Inv s) {i k : ℕ} (hfree : s.accounts.calls.lookup i = none)
    (hk : own s = some k ∨ k ∈ s.orphans) : k ≠ i := by
  rintro rfl
  obtain ⟨c, hc, -⟩ := h.calls k hk
  rw [hfree] at hc
  cases hc

theorem pending_insert {i : ℕ} {c : Call} (hi : i ∉ s.orphans) (horphans : s'.orphans = s.orphans)
    (hcalls : s'.accounts.calls = s.accounts.calls.insert i c) : pending s' = pending s := by
  unfold pending
  rw [horphans]
  refine List.countP_congr fun k hk => ?_
  have hki : k ≠ i := by
    rintro rfl
    exact hi hk
  rw [hcalls, lookup_insert, if_neg hki]

theorem pending_start (h : Inv s) {i : ℕ} {c : Call} (hfree : s.accounts.calls.lookup i = none)
    (horphans : s'.orphans = s.orphans) (hcalls : s'.accounts.calls = s.accounts.calls.insert i c) :
    pending s' = pending s :=
  pending_insert (fun hm => h.ne_of_free hfree (Or.inr hm) rfl) horphans hcalls

theorem Inv.began (h : Inv s) {i : ℕ} {c : Call} (hfree : s.accounts.calls.lookup i = none)
    (hcalls : accounts.calls = s.accounts.calls.insert i c) (hstore : accounts.store = s.accounts.store) :
    Inv { s with accounts := accounts } := by
  have hpending : pending { s with accounts := accounts } = pending s := pending_start h hfree rfl hcalls
  have hlook : ∀ {k}, own s = some k ∨ k ∈ s.orphans → accounts.calls.lookup k = s.accounts.calls.lookup k := by
    intro k hk
    rw [hcalls, lookup_insert, if_neg (h.ne_of_free hfree hk)]
  refine ⟨h.waits, h.checks, fun k hk => ?_, h.apart, h.nodup, ?_, fun k c hk hc => ?_, fun hnone hland => ?_,
    fun k c hk hc => ?_⟩
  · obtain ⟨c, hc, hcreates⟩ := h.calls k hk
    exact ⟨c, (hlook hk).trans hc, hcreates⟩
  · rw [hpending]
    exact h.bound
  · rw [hpending]
    exact h.before k c hk ((hlook (Or.inl hk)).symm.trans hc)
  · rw [hpending]
    refine h.empty (hstore ▸ hnone) fun k c hk hc => hland k c hk ?_
    exact (hlook (Or.inl hk)).trans hc
  · show landing c = true → HasSuper accounts.store.userRows
    rw [hstore]
    exact h.landed k c hk ((hlook (Or.inl hk)).symm.trans hc)

/-- **A bootstrap begins its call**: there are no users, so all that was created belongs to lost requests. -/
theorem Inv.spawned (h : Inv s) {j i : ℕ} {u p : String} (hj : s.requests.lookup j = some (.checking u p))
    (hcount : ¬ userCount s.accounts.store > 0) (hfree : s.accounts.calls.lookup i = none)
    (hcalls : s'.accounts.calls = s.accounts.calls.insert i (.createUser u p .superAdmin none none .start))
    (hrequests : s'.requests = s.requests.insert j (.creating i)) (hlock' : s'.lock = s.lock)
    (horphans : s'.orphans = s.orphans) (hcreated : s'.created = s.created) (hlost : s'.lost = s.lost) : Inv s' := by
  have hlock := h.checks j u p hj
  have hown : own s = none := by
    unfold own callOf
    rw [hlock, Option.bind_some, hj]
    rfl
  have hnone : ¬ HasSuper s.accounts.store.users := by
    rintro ⟨v, hv⟩
    obtain ⟨r, hr, -⟩ := (Option.any_eq_true _ _).mp hv
    exact hcount (List.length_pos_of_mem ((mem_entries_iff _ _ _).mpr hr))
  have hcall := callOf_insert hrequests
  have hwaits : ∀ k l, callOf s' k = some l → k = j := by
    intro k l hk
    rw [hcall] at hk
    split_ifs at hk with hkj
    · exact hkj
    · have := h.waits k l hk
      rw [hlock] at this
      exact (Option.some.inj this).symm
  have hown' : own s' = some i := by
    unfold own
    rw [hlock', hlock, Option.bind_some, hcall, if_pos rfl]
    rfl
  have hnot : ∀ k ∈ s.orphans, k ≠ i := fun k hk => h.ne_of_free hfree (Or.inr hk)
  have hbalance : s'.created + pending s' ≤ s'.lost := by
    rw [hcreated, hlost, pending_start h hfree horphans hcalls]
    refine h.empty hnone fun k c hk => ?_
    rw [hown] at hk
    cases hk
  refine ⟨fun k l hk => ?_, fun k u' p' hk => ?_, fun k hk => ?_, fun k hk hm => ?_, horphans ▸ h.nodup,
    Nat.le_succ_of_le hbalance, fun _ _ _ _ _ => hbalance, fun _ _ => hbalance, fun k c hk hc hl => ?_⟩
  · rw [hwaits k l hk, hlock', hlock]
  · rw [hrequests, lookup_insert] at hk
    split_ifs at hk with hkj
    · cases hk
    · rw [hlock']
      exact h.checks k u' p' hk
  · rw [hcalls, horphans] at *
    rcases hk with hk | hk
    · rw [hown'] at hk
      cases hk
      exact ⟨_, by rw [lookup_insert, if_pos rfl], ⟨u, p, _, rfl⟩, fun r hr => by cases hr⟩
    · obtain ⟨c, hc, hcreates⟩ := h.calls k (Or.inr hk)
      refine ⟨c, ?_, hcreates⟩
      rw [lookup_insert, if_neg (hnot k hk)]
      exact hc
  · rw [hown'] at hk
    cases hk
    exact hnot _ (horphans ▸ hm) rfl
  · rw [hown'] at hk
    cases hk
    rw [hcalls, lookup_insert, if_pos rfl] at hc
    cases hc
    cases hl

theorem countP_add_of_mem {l : List ℕ} {i : ℕ} {f g : ℕ → Bool} (hl : l.Nodup) (hi : i ∈ l)
    (h : ∀ k ∈ l, k ≠ i → f k = g k) : l.countP f + (g i).toNat = l.countP g + (f i).toNat := by
  have hperm := List.perm_cons_erase hi
  have herase : (l.erase i).countP f = (l.erase i).countP g := by
    refine List.countP_congr fun k hk => ?_
    rw [h k (List.mem_of_mem_erase hk) ((hl.mem_erase_iff.mp hk).1)]
  rw [hperm.countP_eq f, hperm.countP_eq g, List.countP_cons, List.countP_cons, herase]
  cases f i <;> cases g i <;> simp

section moves

variable {i n : ℕ} {a : Accounts.Answer} {c c' : Call} {st' : Accounts.Store}

theorem inserts_insert (hi : s.accounts.calls.lookup i = some c)
    (hcalls : accounts.calls = s.accounts.calls.insert i c') : inserts s accounts i = (early c && landing c') := by
  unfold inserts
  rw [hi, hcalls, lookup_insert, if_pos rfl, Option.any_some, Option.any_some]

theorem Inv.creates (h : Inv s) (hi : s.accounts.calls.lookup i = some c) (hk : own s = some i ∨ i ∈ s.orphans) :
    Creates c := by
  obtain ⟨d, hd, hcreates⟩ := h.calls i hk
  rw [hi] at hd
  cases hd
  exact hcreates

theorem Inv.calls_moved (h : Inv s) (hi : s.accounts.calls.lookup i = some c)
    (hstep : callStep cfg s.accounts.store a c = some (st', c'))
    (hcalls : accounts.calls = s.accounts.calls.insert i c') {k : ℕ} (hk : own s = some k ∨ k ∈ s.orphans) :
    ∃ d, accounts.calls.lookup k = some d ∧ Creates d := by
  rw [hcalls, lookup_insert]
  split_ifs with hki
  · rw [hki] at hk
    exact ⟨c', rfl, (creates_step (h.creates hi hk) hstep).1⟩
  · exact h.calls k hk

/-- A call that nobody waits for counts no more when its user counts. -/
theorem Inv.pending_moved (h : Inv s) (hi : s.accounts.calls.lookup i = some c)
    (hstep : callStep cfg s.accounts.store a c = some (st', c'))
    (hcalls : accounts.calls = s.accounts.calls.insert i c') (hown : own s ≠ some i)
    (hn : n = if (own s = some i ∨ i ∈ s.orphans) ∧ inserts s accounts i then 1 else 0) :
    n + pending { s with accounts := accounts } ≤ pending s := by
  by_cases hm : i ∈ s.orphans
  · obtain ⟨-, hearly, -, -⟩ := creates_step (h.creates hi (Or.inr hm)) hstep
    have hcount := countP_add_of_mem (f := fun k => (accounts.calls.lookup k).any early)
      (g := fun k => (s.accounts.calls.lookup k).any early) h.nodup hm fun k _ hk => by
        rw [hcalls, lookup_insert, if_neg hk]
    have hlook : accounts.calls.lookup i = some c' := by rw [hcalls, lookup_insert, if_pos rfl]
    rw [hlook, hi, Option.any_some, Option.any_some] at hcount
    have hle : n + (early c').toNat ≤ (early c).toNat := by
      rw [hn, inserts_insert hi hcalls]
      cases he' : early c' with
      | true => simp [hearly he', not_landing_of_early he']
      | false =>
        cases he : early c with
        | true =>
          simp only [Bool.true_and, Bool.toNat_false, Bool.toNat_true]
          split_ifs <;> omega
        | false => simp
    unfold pending
    show n + s.orphans.countP (fun k => (accounts.calls.lookup k).any early) ≤ _
    omega
  · have hsame : pending { s with accounts := accounts } = pending s := pending_insert hm rfl hcalls
    have hzero : n = 0 := by
      rw [hn]
      simp [hown, hm]
    omega

theorem Inv.moved_own (h : Inv s) (hi : s.accounts.calls.lookup i = some c)
    (hstep : callStep cfg s.accounts.store a c = some (st', c')) (hown : own s = some i)
    (hstore : accounts.store = st') (hcalls : accounts.calls = s.accounts.calls.insert i c')
    (hkeeps : HasSuper s.accounts.store.users → HasSuper accounts.store.users)
    (hrows : HasSuper s.accounts.store.userRows → HasSuper accounts.store.userRows)
    (hn : n = if early c && landing c' then 1 else 0) :
    Inv { s with accounts := accounts, created := s.created + n } := by
  have hpending : pending { s with accounts := accounts, created := s.created + n } = pending s :=
    pending_insert (h.apart i hown) rfl hcalls
  obtain ⟨-, hearly, hrow, hup⟩ := creates_step (h.creates hi (Or.inl hown)) hstep
  have hlook : accounts.calls.lookup i = some c' := by rw [hcalls, lookup_insert, if_pos rfl]
  have hzero : landing c' = false → n = 0 := by
    intro hl
    rw [hn, hl]
    simp
  refine ⟨h.waits, h.checks, fun k hk => h.calls_moved hi hstep hcalls hk, h.apart, h.nodup, ?_,
    fun k d hk hd he => ?_, fun hnone hl => ?_, fun k d hk hd hl => ?_⟩
  · rw [hpending]
    show s.created + n + pending s ≤ s.lost + 1
    cases hc : early c with
    | true =>
      have hbefore := h.before i c hown hi hc
      have hone : n ≤ 1 := by
        rw [hn]
        split_ifs <;> omega
      omega
    | false =>
      have hbound := h.bound
      rw [hc, Bool.false_and, if_neg Bool.false_ne_true] at hn
      omega
  · rw [hpending]
    show s.created + n + pending s ≤ s.lost
    obtain rfl : k = i := Option.some.inj (hk.symm.trans hown)
    rw [hlook] at hd
    cases hd
    have hnot := hzero (not_landing_of_early he)
    have hbefore := h.before k c hown hi (hearly he)
    omega
  · rw [hpending]
    show s.created + n + pending s ≤ s.lost
    have hl' := hl i c' hown hlook
    have hnot := hzero hl'
    -- where it was about to land, it has landed
    have hempty := h.empty (fun hs => hnone (hkeeps hs)) fun k d hk hd => by
      obtain rfl : k = i := Option.some.inj (hk.symm.trans hown)
      rw [hi] at hd
      cases hd
      by_contra hc
      rw [Bool.not_eq_false] at hc
      rcases hup hc with hc | hc
      · rw [hl'] at hc
        cases hc
      · exact hnone (hstore ▸ hc)
    omega
  · obtain rfl : k = i := Option.some.inj (hk.symm.trans hown)
    rw [hlook] at hd
    cases hd
    rcases hrow hl with hc | hc
    · exact hrows (h.landed k c hown hi hc)
    · exact hstore ▸ hc

/-- **A call goes on.** Only the call that the holder of the lock waits for creates a user that no lost
request accounts for. -/
theorem Inv.moved (h : Inv s) (hi : s.accounts.calls.lookup i = some c)
    (hstep : callStep cfg s.accounts.store a c = some (st', c'))
    (hstore : accounts.store = st') (hcalls : accounts.calls = s.accounts.calls.insert i c')
    (hkeeps : HasSuper s.accounts.store.users → HasSuper accounts.store.users)
    (hrows : HasSuper s.accounts.store.userRows → HasSuper accounts.store.userRows)
    (hn : n = if (own s = some i ∨ i ∈ s.orphans) ∧ inserts s accounts i then 1 else 0) :
    Inv { s with accounts := accounts, created := s.created + n } := by
  by_cases hown : own s = some i
  · refine h.moved_own hi hstep hown hstore hcalls hkeeps hrows ?_
    rw [hn, inserts_insert hi hcalls]
    simp [hown]
  · have hsum : s.created + n + pending { s with accounts := accounts } ≤ s.created + pending s := by
      have hmoved := h.pending_moved hi hstep hcalls hown hn
      omega
    have hlook : ∀ {k}, own s = some k → accounts.calls.lookup k = s.accounts.calls.lookup k := by
      intro k hk
      rw [hcalls, lookup_insert, if_neg]
      rintro rfl
      exact hown hk
    refine ⟨h.waits, h.checks, fun k hk => h.calls_moved hi hstep hcalls hk, h.apart, h.nodup, ?_,
      fun k d hk hd he => ?_, fun hnone hl => ?_, fun k d hk hd hl => ?_⟩
    · exact hsum.trans h.bound
    · exact hsum.trans (h.before k d hk ((hlook hk).symm.trans hd) he)
    · exact hsum.trans (h.empty (fun hs => hnone (hkeeps hs)) fun k d hk hd => hl k d hk ((hlook hk).trans hd))
    · exact hrows (h.landed k d hk ((hlook hk).symm.trans hd) hl)

end moves

/-- **A restart**: a user that was about to get into memory is loaded from the table. -/
theorem Inv.restarted (h : Inv s) (hstore : accounts.store = s.accounts.store.reload)
    (hkeeps : HasSuper s.accounts.store.users → HasSuper accounts.store.users) :
    Inv { s with accounts := accounts, requests := ∅, lock := none, orphans := [] } := by
  have hle : ∀ {n}, s.created + pending s ≤ n → s.created + 0 ≤ n := by
    intro n hn
    omega
  refine ⟨fun j i hj => (by cases hj), fun j u p hj => (by cases hj), fun i hi => ?_, fun i hi => (by cases hi),
    List.nodup_nil, hle h.bound, fun i c hi => (by cases hi), fun hnone _ => ?_, fun i c hi => (by cases hi)⟩
  · rcases hi with hi | hi
    · cases hi
    · cases hi
  · refine hle (h.empty (fun hs => hnone (hkeeps hs)) fun i c hown hi => ?_)
    by_contra hl
    rw [Bool.not_eq_false] at hl
    have hrow := h.landed i c hown hi hl
    refine hnone ?_
    rw [hstore]
    exact hrow

theorem inv_request (h : Inv s) {j : ℕ} {headers : HeaderMap} {username password : String}
    (hs : step cfg adminToken s (.request j headers username password) = some s') : Inv s' := by
  simp only [step] at hs
  split at hs
  · cases hs
  next hj =>
  cases hs
  have hcall : ∀ k, callOf { s with requests := s.requests.insert j (if breakGlassOk adminToken headers
      then .waiting username password else .refused (errorResponse 401 "invalid admin token")) } k =
      callOf s k := by
    intro k
    rw [callOf_insert rfl]
    split_ifs with hk
    · rw [hk, callOf, hj]
      rfl
    · rw [hk, callOf, hj]
      rfl
    · rfl
  refine h.quiet rfl rfl rfl rfl (fun k i hk => h.waits k i ((hcall k).symm.trans hk)) (fun k u p hk => ?_)
    (Or.inl ?_)
  · rw [lookup_insert] at hk
    split_ifs at hk with hkj
    · cases hk
    · cases hk
    · exact h.checks k u p hk
  · unfold own
    rw [funext hcall]

theorem inv_lock (h : Inv s) {j : ℕ} (hs : step cfg adminToken s (.lock j) = some s') : Inv s' := by
  simp only [step] at hs
  split at hs
  · next username password hj hlock =>
    cases hs
    have hcall : ∀ k, callOf { s with
        requests := s.requests.insert j (.checking username password), lock := some j } k = none := by
      intro k
      rw [callOf_insert rfl]
      split_ifs with hk
      · rfl
      · exact (h.free hlock k).1
    refine h.quiet rfl rfl rfl rfl (fun k i hk => ?_) (fun k u p hk => ?_) (Or.inl ?_)
    · rw [hcall] at hk
      cases hk
    · rw [lookup_insert] at hk
      split_ifs at hk with hkj
      · rw [hkj]
      · exact absurd hk ((h.free hlock k).2 u p)
    · unfold own
      rw [hlock]
      exact hcall j
  · cases hs

theorem inv_check (h : Inv s) {j i : ℕ} (hs : step cfg adminToken s (.check j i) = some s') : Inv s' := by
  simp only [step] at hs
  split at hs
  · next username password hj =>
    have hlock := h.checks j username password hj
    split_ifs at hs with hcount
    · cases hs
      have hans := h.answered hlock (.refused (errorResponse 409 "gateway is already bootstrapped")) rfl
        fun _ _ => by simp
      refine h.quiet rfl rfl rfl rfl (fun k l hk => ?_) (fun k u p hk => absurd hk ((hans k).2 u p)) (Or.inl ?_)
      · rw [(hans k).1] at hk
        cases hk
      · unfold own callOf
        rw [hlock, Option.bind_some, hj]
        rfl
    · obtain ⟨accounts, hstart, rfl⟩ := Option.map_eq_some_iff.mp hs
      simp only [Accounts.step] at hstart
      split at hstart
      · next hfree =>
        cases hstart
        exact h.spawned hj hcount hfree rfl rfl rfl rfl rfl rfl
      · cases hstart
  · cases hs

theorem inv_finish (h : Inv s) {j : ℕ} (hs : step cfg adminToken s (.finish j) = some s') : Inv s' := by
  obtain ⟨i, hj, hs⟩ := Option.bind_eq_some_iff.mp hs
  obtain ⟨c, hi, hs⟩ := Option.bind_eq_some_iff.mp hs
  split at hs
  · next u p role t b pc =>
    obtain ⟨pc', hpc, rfl⟩ := Option.map_eq_some_iff.mp hs
    have hlock := h.waits j i hj
    have hdone : landing (.createUser u p role t b pc) = false ∧ pc'.call = none ∧
        ∀ u p, pc' ≠ .checking u p := by
      cases pc with
      | done result =>
        cases result with
        | ok user =>
          cases hpc
          exact ⟨rfl, rfl, fun _ _ => by simp⟩
        | error e =>
          cases hpc
          exact ⟨rfl, rfl, fun _ _ => by simp⟩
      | start | checking | inserting | indexing | publishing => cases hpc
    have hans := h.answered hlock _ hdone.2.1 hdone.2.2
    refine h.quiet rfl rfl rfl rfl (fun k l hk => ?_) (fun k u p hk => absurd hk ((hans k).2 u p))
      (Or.inr ⟨rfl, fun k d hk hd => ?_⟩)
    · rw [(hans k).1] at hk
      cases hk
    · unfold own at hk
      rw [hlock, Option.bind_some, hj] at hk
      cases hk
      rw [hi] at hd
      cases hd
      exact hdone.1
  · cases hs

theorem inv_fail (h : Inv s) {j : ℕ} (hs : step cfg adminToken s (.fail j) = some s') : Inv s' := by
  obtain ⟨i, hj, rfl⟩ := Option.map_eq_some_iff.mp hs
  have hans := h.answered (h.waits j i hj) (.refused (errorResponse 500 "bootstrap failed")) rfl
    fun _ _ => by simp
  refine h.orphaned hj rfl rfl rfl rfl rfl (fun k l hk => ?_) fun k u p => (hans k).2 u p
  exact absurd ((hans k).1.symm.trans hk) (by simp)

theorem inv_drop (h : Inv s) {j : ℕ} (hs : step cfg adminToken s (.drop j) = some s') : Inv s' := by
  obtain ⟨pc, hj, hs⟩ := Option.map_eq_some_iff.mp hs
  obtain ⟨hcall, hcheck⟩ := h.removed j
  have hlock : ∀ {k}, k ≠ j ∧ s.lock = some k → (s.remove j).lock = some k := by
    rintro k ⟨hk, hl⟩
    unfold State.remove
    rw [hl, if_neg]
    exact fun he => hk (Option.some.inj he)
  split at hs
  · next hnone =>
    cases hs
    refine h.quiet rfl rfl rfl rfl (fun k i hk => hlock (hcall k i hk)) (fun k u p hk => hlock (hcheck k u p hk))
      (Or.inl ?_)
    unfold own
    by_cases hl : s.lock = some j
    · rw [hl, Option.bind_some, hnone, State.remove, if_pos hl]
      rfl
    · have hkeep : (s.remove j).lock = s.lock := by rw [State.remove, if_neg hl]
      rw [hkeep]
      cases hk : s.lock with
      | none => rfl
      | some k =>
        have hkj : k ≠ j := by
          rintro rfl
          exact hl hk
        rw [Option.bind_some, Option.bind_some, callOf_remove, if_neg hkj]
  · next i hi =>
    cases hs
    have hown := h.waits j i hi
    have hnobody : ∀ {k}, ¬ (k ≠ j ∧ s.lock = some k) := by
      rintro k ⟨hkj, hk⟩
      rw [hown] at hk
      exact hkj (Option.some.inj hk).symm
    exact h.orphaned hi rfl rfl rfl rfl (by simp [State.orphan, State.remove, hown])
      (fun k l hk => hnobody (hcall k l hk)) fun k u p hk => hnobody (hcheck k u p hk)

theorem inv_accounts (h : Inv s) {l : Accounts.Label} (hs : step cfg adminToken s (.accounts l) = some s')
    (hkeeps : HasSuper s.accounts.store.users → HasSuper s'.accounts.store.users)
    (hrows : HasSuper s.accounts.store.userRows → HasSuper s'.accounts.store.userRows) : Inv s' := by
  cases l with
  | restart => cases hs
  | start i request =>
    obtain ⟨accounts, hstart, rfl⟩ := Option.map_eq_some_iff.mp hs
    simp only [Accounts.step] at hstart
    split at hstart
    · next hfree =>
      cases hstart
      exact h.began hfree rfl rfl
    · cases hstart
  | step i a =>
    obtain ⟨accounts, hstep, rfl⟩ := Option.map_eq_some_iff.mp hs
    obtain ⟨c, hi, hstep⟩ := Option.bind_eq_some_iff.mp hstep
    split_ifs at hstep
    obtain ⟨⟨st', c'⟩, hc, rfl⟩ := Option.map_eq_some_iff.mp hstep
    exact h.moved hi hc rfl rfl hkeeps hrows rfl

/-- **Every step** keeps the invariant. -/
theorem inv_step {l : Label} (h : Inv s) (hl : LeavesSuper cfg adminToken s l)
    (hs : step cfg adminToken s l = some s') : Inv s' := by
  obtain ⟨hkeeps, hrows⟩ := hl s' hs
  cases l with
  | request j headers username password => exact inv_request h hs
  | lock j => exact inv_lock h hs
  | check j i => exact inv_check h hs
  | finish j => exact inv_finish h hs
  | fail j => exact inv_fail h hs
  | drop j => exact inv_drop h hs
  | accounts l => exact inv_accounts h hs hkeeps hrows
  | restart =>
    simp only [step, Option.map_eq_some_iff] at hs
    obtain ⟨accounts, hstep, rfl⟩ := hs
    cases hstep
    exact h.restarted rfl hkeeps

theorem inv_init : Inv init := by
  refine ⟨fun j i hj => (by cases hj), fun j u p hj => (by cases hj), fun i hi => ?_, fun i hi => (by cases hi),
    List.nodup_nil, Nat.zero_le _, fun i c hi => (by cases hi), fun _ _ => Nat.zero_le _,
    fun i c hi => (by cases hi)⟩
  rcases hi with hi | hi
  · cases hi
  · cases hi

end steps

/-! ### The result -/

/-- **Bootstraps create one super admin**, over restarts too and beside any other calls that leave a super admin,
and at most one more for each bootstrap that has lost its task. -/
theorem bootstraps_create_one (cfg : Config) (adminToken : Option String) {ls : List Label} {s : State}
    (hC : AllSteps (step cfg adminToken) (LeavesSuper cfg adminToken) init ls)
    (h : run (step cfg adminToken) init ls = some s) : s.created ≤ s.lost + 1 := by
  have hinv : Inv s := run_invariant_of (fun _ _ _ hI hl hs => inv_step hI hl hs) ls init s inv_init hC h
  have hbound := hinv.bound
  omega

instance (cfg : Config) (adminToken : Option String) (s : State) (l : Label) :
    Decidable (LeavesSuper cfg adminToken s l) := inferInstanceAs (Decidable (∀ _ ∈ step cfg adminToken s l, _))

/-- The admin token of the examples in a header. -/
def tokenHeaders : HeaderMap :=
  ofList [(authorizationName, ⟨utf8 "Bearer admin", List.all_eq_true.mp (by decide +kernel)⟩)]

/-- The request `j` comes in, gets the lock and begins the call `j`. -/
def begins (j : ℕ) (username : String) : List Label :=
  [.request j tokenHeaders username "correct horse", .lock j, .check j j]

/-- The call `i` creates the user `u`. -/
def creates (i : ℕ) (u : String) : List Label :=
  [.accounts (.step i (.tenant none)), .accounts (.step i .silent), .accounts (.step i (.written u "h" 1)),
    .accounts (.step i .silent), .accounts (.step i .silent)]

/-- A second request waits for the lock while the first one creates its user, and is told so. -/
def contends : List Label :=
  begins 0 "alice" ++ [.request 1 tokenHeaders "bob12" "correct horse"] ++ creates 0 "u1" ++
    [.finish 0, .lock 1, .check 1 1]

/-- The plain user `u2` is created, and the calls 6 and 7 change its name at once. -/
def overlaps : List Label :=
  [.start 5 (.createUser "carol" "correct horse" .user (some "alpha") (some "u1")), .step 5 (.tenant (some true)),
    .step 5 .silent, .step 5 (.written "u2" "h" 2), .step 5 .silent, .step 5 .silent,
    .start 6 (.updateUser "u2" ⟨some "dora1", none, none, none, none⟩), .step 6 .silent,
    .start 7 (.updateUser "u2" ⟨some "erin1", none, none, none, none⟩), .step 7 .silent].map .accounts ++
  [6, 7].flatMap fun i => [.step i .silent, .step i (.tenant (some true)), .step i .silent,
    .step i (.written "" "" 3), .step i .silent, .step i .silent].map .accounts

/-- Two bootstraps at once, other calls that overlap, a restart, and a third bootstrap. -/
theorem bootstraps_create_one_conflict : ∃ s1 s2,
    run (step noCache (some "admin")) init (begins 0 "alice" ++
      [.request 1 tokenHeaders "bob12" "correct horse", .lock 1]) = none ∧
    run (step noCache (some "admin")) init contends = some s1 ∧
    s1.requests.lookup 1 = some (.refused (errorResponse 409 "gateway is already bootstrapped")) ∧
    run (step noCache (some "admin")) s1 (overlaps ++ [.restart] ++ begins 2 "frank") = some s2 ∧
    s2.requests.lookup 2 = some (.refused (errorResponse 409 "gateway is already bootstrapped")) ∧
    (superAt s2.accounts.store.users "u1" = true ∧ (s2.accounts.store.users.lookup "u2").isSome = true) ∧
    s2.created ≤ 1 := by
  obtain ⟨s2, h, hrefused, husers, hlost⟩ := exists_run (step noCache (some "admin")) init
    (contends ++ (overlaps ++ [.restart] ++ begins 2 "frank"))
    (fun s => s.requests.lookup 2 = some (.refused (errorResponse 409 "gateway is already bootstrapped")) ∧
      (superAt s.accounts.store.users "u1" = true ∧ (s.accounts.store.users.lookup "u2").isSome = true) ∧
      s.lost = 0) (by decide +kernel)
  obtain ⟨s1, h1, hfirst⟩ := exists_run (step noCache (some "admin")) init contends
    (fun s => s.requests.lookup 1 = some (.refused (errorResponse 409 "gateway is already bootstrapped")))
    (by decide +kernel)
  have hone := bootstraps_create_one noCache (some "admin") (by decide +kernel) h
  rw [hlost] at hone
  rw [run_append, h1, Option.bind_some] at h
  exact ⟨s1, s2, by decide +kernel, h1, hfirst, h, hrefused, husers, hone⟩

/-- The first client goes away while its user is being created, and both bootstraps create one. -/
theorem two_are_created : ∃ s,
    run (step noCache (some "admin")) init
      (begins 0 "alice" ++ [.drop 0] ++ begins 1 "bob12" ++ creates 0 "u1" ++ creates 1 "u2") = some s ∧
    superAt s.accounts.store.users "u1" = true ∧ superAt s.accounts.store.users "u2" = true :=
  exists_run (step noCache (some "admin")) init _ _ (by decide +kernel)

end HomeLlmGateway.Admin.Bootstrap
