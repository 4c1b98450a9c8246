import HomeLlmGateway.Admin.Confinement
import HomeLlmGateway.Storage.Deletions

/-! # Administrative integrity

Requests of principals that are not super admins, any number of them one after the other. Each changes keys
and users of its principal's tenant only, and of the tenants at most the agent token of a tenant admin's own
one (`Confined`). Over a whole run no admin comes or goes or is altered, and no user gets another role or
tenant (`Unaltered`). -/

namespace HomeLlmGateway.Admin.Integrity

open HomeLlmGateway.Lib.Runs HomeLlmGateway.Lib.Assoc HomeLlmGateway.Lib.Holding HomeLlmGateway.Lib.Changes
open HomeLlmGateway.Access.Rbac
open HomeLlmGateway.Storage HomeLlmGateway.Storage.Users
open HomeLlmGateway.Storage.Keys (Config)
open HomeLlmGateway.Storage.Tenants (TenantRecord)
open HomeLlmGateway.Storage.Accounts (Store Call Answer held)
open HomeLlmGateway.Storage.UserUpdates (held_of_returned)
open HomeLlmGateway.Storage.KeyTenants (InTenant Fits keepsTenant)
open HomeLlmGateway.Storage.Deletions (Gone Consistent Present)
open HomeLlmGateway.Admin.Handlers HomeLlmGateway.Admin.Upkeep HomeLlmGateway.Admin.Confinement

/-! ### What a request may change -/

/-- The tenant without its agent token. -/
def withoutToken (t : TenantRecord) : TenantRecord := { t with agentTokenHash := "" }

/-- Of the tenants only the agent token of a tenant admin's own tenant changes. -/
def RotatesOwn (p : Principal) (m m' : HashMap String TenantRecord) : Prop :=
  ∀ t, m'.lookup t = m.lookup t ∨
    (p.role = .tenantAdmin ∧ p.tenantId = some t ∧
      (m'.lookup t).map withoutToken = (m.lookup t).map withoutToken)

/-- The change from `s` to `s'` is confined to what is the principal's. -/
structure Confined (p : Principal) (s s' : State) : Prop where
  accounts : Touches p s.accounts.store s'.accounts.store
  tenants : RotatesOwn p s.tenants.tenants s'.tenants.tenants
  tenantRows : RotatesOwn p s.tenants.tenantRows s'.tenants.tenantRows

/-- What all requests together leave alone. -/
structure Unaltered (s s' : State) : Prop where
  /-- the admins, with all their fields -/
  admins : ∀ u r, r.role ≠ .user →
    (s'.accounts.store.users.lookup u = some r ↔ s.accounts.store.users.lookup u = some r)
  adminRows : ∀ u r, r.role ≠ .user →
    (s'.accounts.store.userRows.lookup u = some r ↔ s.accounts.store.userRows.lookup u = some r)
  scopes : ∀ u r r', s.accounts.store.users.lookup u = some r → s'.accounts.store.users.lookup u = some r' →
    r'.role = r.role ∧ r'.tenantId = r.tenantId
  tenants : ∀ t, (s'.tenants.tenants.lookup t).map withoutToken = (s.tenants.tenants.lookup t).map withoutToken
  tenantRows : ∀ t,
    (s'.tenants.tenantRows.lookup t).map withoutToken = (s.tenants.tenantRows.lookup t).map withoutToken

/-! ### Tenants -/

section tenants

variable {cfg : Config} {p : Principal} {m m' m'' : HashMap String TenantRecord} {id : String}

theorem RotatesOwn.refl (p : Principal) (m : HashMap String TenantRecord) : RotatesOwn p m m :=
  fun _ => Or.inl rfl

theorem RotatesOwn.trans (h : RotatesOwn p m m') (h' : RotatesOwn p m' m'') : RotatesOwn p m m'' := by
  intro t
  rcases h t with h1 | ⟨hr, ht, h1⟩ <;> rcases h' t with h2 | ⟨hr', ht', h2⟩
  · exact Or.inl (h2.trans h1)
  · exact Or.inr ⟨hr', ht', h2.trans (congrArg _ h1)⟩
  · exact Or.inr ⟨hr, ht, (congrArg _ h2).trans h1⟩
  · exact Or.inr ⟨hr, ht, h2.trans h1⟩

theorem RotatesOwn.map (h : RotatesOwn p m m') (t : String) :
    (m'.lookup t).map withoutToken = (m.lookup t).map withoutToken := by
  rcases h t with h | ⟨-, -, h⟩
  · rw [h]
  · exact h

theorem rotatesOwn_at (hp : p.role = .tenantAdmin ∧ p.tenantId = some id)
    (hid : (m'.lookup id).map withoutToken = (m.lookup id).map withoutToken)
    (hother : ∀ t, t ≠ id → m'.lookup t = m.lookup t) : RotatesOwn p m m' := by
  intro t
  by_cases ht : t = id
  · subst ht
    exact Or.inr ⟨hp.1, hp.2, hid⟩
  · exact Or.inl (hother t ht)

/-- What a call of `rotate_agent_token` has read or written, without the token. -/
def rotating : Tenants.RotatePc → Option TenantRecord
  | .updatingRow current => some current
  | .publishing _ updated _ => some updated
  | _ => none

theorem rotate_step {st st' : Tenants.Store} {a : Tenants.Answer} {pc pc' : Tenants.RotatePc}
    (hp : p.role = .tenantAdmin ∧ p.tenantId = some id)
    (hpc : ∀ t, rotating pc = some t → (st.tenants.lookup id).map withoutToken = some (withoutToken t))
    (h : Tenants.rotateStep cfg st a id pc = some (st', pc')) :
    RotatesOwn p st.tenants st'.tenants ∧ RotatesOwn p st.tenantRows st'.tenantRows ∧
      ∀ t, rotating pc' = some t → (st'.tenants.lookup id).map withoutToken = some (withoutToken t) := by
  cases pc with
  | start =>
    simp only [Tenants.rotateStep] at h
    split at h <;> cases h
    · exact ⟨.refl _ _, .refl _ _, by simp [rotating]⟩
    · next current hcur =>
      refine ⟨.refl _ _, .refl _ _, fun t ht => ?_⟩
      cases ht
      rw [hcur]
      rfl
  | updatingRow current =>
    simp only [Tenants.rotateStep] at h
    split at h
    · next _ token _ =>
      cases h
      refine ⟨.refl _ _, rotatesOwn_at hp ?_ fun t ht => ?_, fun t ht => ?_⟩
      · exact map_lookup_modify withoutToken (f := fun row => { row with agentTokenHash := cfg.lookupOf token })
          (fun _ => rfl) id _ id
      · exact (lookup_modify _ _ _ _).trans (if_neg ht)
      · cases ht
        exact hpc current rfl
    · cases h
      exact ⟨.refl _ _, .refl _ _, by simp [rotating]⟩
    · cases h
  | publishing current updated token =>
    cases h
    refine ⟨rotatesOwn_at hp ?_ fun t ht => ?_, .refl _ _, by simp [rotating]⟩
    · rw [hpc updated rfl]
      exact congrArg _ ((lookup_insert _ _ _ _).trans (if_pos rfl))
    · exact (lookup_insert _ _ _ _).trans (if_neg ht)
  | done r => cases h

/-- **A whole call** of `rotate_agent_token`. -/
theorem rotatesOwn_runTenants {st st' : Tenants.Store} {answers : List Tenants.Answer} {c : Tenants.Call}
    (hp : p.role = .tenantAdmin ∧ p.tenantId = some id)
    (h : runTenants cfg st (.rotateAgentToken id) answers = some (st', c)) :
    RotatesOwn p st.tenants st'.tenants ∧ RotatesOwn p st.tenantRows st'.tenantRows := by
  obtain ⟨hrun, -⟩ := Option.filter_eq_some_iff.mp h
  have hinv := run_invariant (I := fun x : Tenants.Store × Tenants.Call =>
      RotatesOwn p st.tenants x.1.tenants ∧ RotatesOwn p st.tenantRows x.1.tenantRows ∧
      ∃ pc, x.2 = .rotateAgentToken id pc ∧
        ∀ t, rotating pc = some t → (x.1.tenants.lookup id).map withoutToken = some (withoutToken t)) ?_
    ⟨.refl _ _, .refl _ _, .start, rfl, by simp [rotating]⟩ ⟨answers, hrun⟩
  · exact ⟨hinv.1, hinv.2.1⟩
  · rintro ⟨st1, c1⟩ a ⟨st2, c2⟩ ⟨hmem, hrow, pc, hc, hpc⟩ hstep
    cases hc
    obtain ⟨⟨st3, pc'⟩, h1, he⟩ := Option.map_eq_some_iff.mp hstep
    cases he
    obtain ⟨hmem', hrow', hpc'⟩ := rotate_step hp hpc h1
    exact ⟨hmem.trans hmem', hrow.trans hrow', pc', rfl, hpc'⟩

end tenants

/-! ### What a handler grants -/

section grants

variable {s : State} {p : Principal} {request : Accounts.Request} {reply : Call → Response}

/-- The keys with these ids are the principal's if those in memory are. -/
theorem covers_of_mem {X : Set String} {st : Store} (hk : WellKept st)
    (h : ∀ k r, st.keys.runtime.lookup k = some r → r.id ∈ X → OwnKey p r) : Covers p X st := by
  refine ⟨h, fun k row hrow hid => ?_⟩
  obtain ⟨r, hr, hs⟩ := hk.known k row hrow
  exact (h k r hr (hs.1 ▸ hid)).of_same hs

theorem own_of_core {r q : UserRecord} (h : r.core = q.core) (hq : OwnUser p q) : OwnUser p r := by
  simp only [UserRecord.core, UserRecord.mk.injEq] at h
  obtain ⟨-, htenant, -, -, hrole, -⟩ := h
  exact ⟨hq.1, hrole.trans hq.2.1, htenant.trans hq.2.2⟩

theorem userScope_of_manage {u : String} {target : UserRecord} (hk : WellKept s.accounts.store)
    (ht : InTenant s.accounts.store.keys.runtime s.accounts.store.users u) (hu : s.user u = some target)
    (hown : OwnUser p target) :
    ∃ X, Covers p X s.accounts.store ∧ UserScope p X s.accounts.store u := by
  have hkeys : ∀ k r, s.accounts.store.keys.runtime.lookup k = some r → r.ownerUserId = some u →
      OwnKey p r := by
    intro k r hr ho
    refine ⟨hown.2.2.symm.trans (ht k r target hr ho hu), fun hp => ?_⟩
    rw [hown.1] at hp
    cases hp
  -- ids are unique, so what is disabled by the id of one of these keys is that key
  refine ⟨{x | ∃ k r, s.accounts.store.keys.runtime.lookup k = some r ∧ r.ownerUserId = some u ∧ r.id = x},
    covers_of_mem hk ?_, fun r hr => ?_, fun r hr => ?_, fun k r hr ho => ⟨hkeys k r hr ho, k, r, hr, ho, rfl⟩⟩
  · rintro k r hr ⟨k', r', hr', ho, hid⟩
    have := hk.keyIds k k' r r' hr hr' hid.symm
    subst this
    rw [hr] at hr'
    cases hr'
    exact hkeys k r hr ho
  · cases hu.symm.trans hr
    exact hown
  · have hagree := hk.agree u
    rw [hr] at hagree
    rw [show s.accounts.store.users.lookup u = some target from hu] at hagree
    exact own_of_core (Option.some.inj hagree).symm hown

/-- **Every call on users and keys** that a handler goes on with. -/
theorem lawful_of_handle {r : Request} (hp : p.isSuper = false) (hk : WellKept s.accounts.store)
    (ht : ∀ u, InTenant s.accounts.store.keys.runtime s.accounts.store.users u)
    (h : handle s p r = .ok (.accounts request reply)) :
    ∃ X, Covers p X s.accounts.store ∧ Lawful p X s.accounts.store request.call := by
  cases r with
  | createKey body =>
    obtain ⟨tenantId, name, reply', htenant, hauth, he⟩ := createKey_ok h
    cases he
    refine ⟨∅, ⟨by simp, by simp⟩, .createKey _ _ _ _ ((authorize_ok hp hauth).1 _ rfl) (fun hrole => ?_)
      (by simp [Accounts.creating])⟩
    simp [keyOwner, hrole]
  | deleteKey id =>
    obtain ⟨key, hkey, hauth, howner, he⟩ := deleteKey_ok h
    cases he
    have hown : OwnKey p key := ⟨(authorize_ok hp hauth).1 _ rfl, howner⟩
    refine ⟨{id}, covers_of_mem hk fun k r hr hid => ?_, .deleteKey _ _ rfl⟩
    obtain ⟨k', hk'⟩ := (mem_values _ _).mp (List.mem_of_find?_eq_some hkey)
    have hkid : key.id = id := by simpa using List.find?_some hkey
    have := hk.keyIds k k' r key hr hk' (hid.trans hkid.symm)
    subst this
    rw [hr] at hk'
    cases hk'
    exact hown
  | createUser body =>
    obtain ⟨role, tenant, hcan, he⟩ := createUser_ok h
    cases he
    obtain ⟨hrole, rfl, rfl⟩ := canCreateUser_ok hp hcan
    exact ⟨∅, ⟨by simp, by simp⟩, .createUser _ _ _ _ hrole (by simp [UserSync.target])⟩
  | updateUser id body =>
    obtain ⟨target, patch, hu, hcan, hscope, he⟩ := updateUser_ok h
    cases he
    obtain ⟨hrole, htenant⟩ := hscope hp
    obtain ⟨X, hX, hX'⟩ := userScope_of_manage hk (ht id) hu (canManageUser_ok hp hcan)
    exact ⟨X, hX, .updateUser _ _ _ hX' hrole htenant (by simp [UserSync.snapshot]) (by simp [UserSync.target])
      (by simp [UserSync.sweep])⟩
  | deleteUser id =>
    obtain ⟨target, hu, hcan, he⟩ := deleteUser_ok h
    cases he
    obtain ⟨X, hX, hX'⟩ := userScope_of_manage hk (ht id) hu (canManageUser_ok hp hcan)
    exact ⟨X, hX, .deleteUser _ _ hX' (by simp [UserSync.sweep])⟩
  | createTenant body => exact absurd (createTenant_ok h) (not_tenantWrite hp)
  | updateTenant id body => exact absurd (updateTenant_ok h) (not_tenantWrite hp)
  | deleteTenant id => exact absurd (deleteTenant_ok h) (not_tenantWrite hp)
  | rotateAgentToken id => cases (rotateAgentToken_ok h).2

/-- **Every call on tenants**: a tenant admin rotates the token of its own tenant. -/
theorem rotate_of_handle {r : Request} {request : Tenants.Request} {reply : Tenants.Call → Response}
    (hp : p.isSuper = false) (h : handle s p r = .ok (.tenants request reply)) :
    ∃ id, request = .rotateAgentToken id ∧ p.role = .tenantAdmin ∧ p.tenantId = some id := by
  cases r with
  | createKey body =>
    obtain ⟨_, _, _, -, -, he⟩ := createKey_ok h
    cases he
  | deleteKey id =>
    obtain ⟨_, -, -, -, he⟩ := deleteKey_ok h
    cases he
  | createUser body =>
    obtain ⟨_, _, -, he⟩ := createUser_ok h
    cases he
  | updateUser id body =>
    obtain ⟨_, _, -, -, -, he⟩ := updateUser_ok h
    cases he
  | deleteUser id =>
    obtain ⟨_, -, -, he⟩ := deleteUser_ok h
    cases he
  | createTenant body => exact absurd (createTenant_ok h) (not_tenantWrite hp)
  | updateTenant id body => exact absurd (updateTenant_ok h) (not_tenantWrite hp)
  | deleteTenant id => exact absurd (deleteTenant_ok h) (not_tenantWrite hp)
  | rotateAgentToken id =>
    obtain ⟨hauth, he⟩ := rotateAgentToken_ok h
    cases he
    obtain ⟨htenant, hall⟩ := authorize_ok hp hauth
    refine ⟨id, rfl, ?_, htenant id rfl⟩
    cases hrole : p.role with
    | superAdmin => simp [Principal.isSuper, hrole] at hp
    | tenantAdmin => rfl
    | user => simp [allowed, hrole] at hall

end grants

/-! ### During a call -/

/-- The users that were there once are there, with their roles and tenants, or deleted for good. -/
def Accounted (m : HashMap String UserRecord) (s : Accounts.State) : Prop :=
  ∀ u r, m.lookup u = some r →
    (∃ r', s.store.users.lookup u = some r' ∧ r'.role = r.role ∧ r'.tenantId = r.tenantId) ∨ Gone s u

/-- What holds while the call of a request goes on. -/
structure During (p : Principal) (X : Set String) (m : HashMap String UserRecord) (st0 : Store)
    (s : Accounts.State) (c : Call) : Prop where
  inCall : InCall s c
  covers : Covers p X s.store
  lawful : Lawful p X s.store c
  touches : Touches p st0 s.store
  fits : ∀ v o, On held s.calls v o → Fits s.store v o
  consistent : Consistent s
  accounted : Accounted m s

section calls

variable {cfg : Config} {p : Principal} {X : Set String} {m : HashMap String UserRecord} {st0 : Store}
  {s s' : Accounts.State} {c c' : Call} {a : Answer}

/-- The rows of the keys are in the tenants of the rows of their owners. -/
theorem inTenant_rows (hk : WellKept st0) {u : String} (h : InTenant st0.keys.runtime st0.users u) :
    InTenant st0.keyRows st0.userRows u := by
  intro k row x hrow ho hx
  obtain ⟨r, hr, hs⟩ := hk.known k row hrow
  have hagree := hk.agree u
  rw [hx] at hagree
  obtain ⟨y, hy, hcore⟩ := Option.map_eq_some_iff.mp hagree
  have := h k r y hr (hs.2.1.trans ho) hy
  rw [← (UserRecord.eq_of_core hcore).2.1, this, hs.2.2]

theorem during_start {request : Accounts.Request} (hk : WellKept s.store)
    (ht : ∀ u, InTenant s.store.keys.runtime s.store.users u) (hX : Covers p X s.store)
    (hl : Lawful p X s.store request.call)
    (hm : Accounted m { s with calls := ∅ }) :
    During p X m s.store { s with calls := single request.call } request.call := by
  have hconsistent : Consistent { s with calls := ∅ } := by
    refine ⟨?_, exclusive_empty, ?_, ?_⟩ <;> intros <;> contradiction
  refine ⟨inCall_start hk request, hX, hl, .refl _ _, ?_, Deletions.consistent_start hconsistent 0 request,
    fun u r hu => ?_⟩
  · refine KeyTenants.fits_start (s := { s with calls := ∅ }) (forall_on_empty fun u => ?_) rfl ?_
    · exact ⟨ht u, inTenant_rows hk (ht u), by simp⟩
    · intro u _ i d hi
      cases hi
  · rcases hm u r hu with h | h
    · exact Or.inl h
    · exact Or.inr (Deletions.gone_start h 0 request)

theorem keepsTenant_of_lawful (h : Lawful p X s.store c) (hi : s.calls.lookup 0 = some c) :
    keepsTenant s (.step 0 a) = true := by
  simp only [keepsTenant, hi]
  cases h with
  | updateUser id patch pc _ _ htenant =>
    cases pc with
    | start => simp [Accounts.UserPatch.newTenant, htenant]
    | checking | updatingRow | reindexing | publishing | sweeping | done => rfl
  | createUser | deleteUser | createKey | deleteKey => rfl

theorem present_of_synced (h : UserSync.Synced s) (i : ℕ) : Present s (.step i a) := by
  intro c u hi hc
  cases c with
  | updateUser id patch pc =>
    cases pc with
    | publishing current r =>
      cases hc
      have hcur := (h.sync u (some _) ⟨rfl, i, hi⟩).2 current rfl
      obtain ⟨q, hq, -⟩ := Option.map_eq_some_iff.mp hcur
      rw [hq]
      rfl
    | start | checking | updatingRow | reindexing | sweeping | done => cases hc
  | createUser | deleteUser | setUserPassword | recordLogin | key => cases hc

/-- A user that is there before and after a change of the principal's users has its role and its tenant. -/
theorem scope_of_changes {m' : HashMap String UserRecord} {u : String} {r r' : UserRecord}
    (h : ChangesWithin (OwnUser p) m m') (hr : m.lookup u = some r) (hr' : m'.lookup u = some r') :
    r'.role = r.role ∧ r'.tenantId = r.tenantId := by
  rcases h u with he | ⟨hold, hnew⟩
  · rw [hr, hr'] at he
    cases he
    exact ⟨rfl, rfl⟩
  · obtain ⟨-, hrole, htenant⟩ := hold r hr
    obtain ⟨-, hrole', htenant'⟩ := hnew r' hr'
    exact ⟨hrole'.trans hrole.symm, htenant'.trans htenant.symm⟩

theorem during_step (h : During p X m st0 s c) (hgo : Goes cfg s c a s' c') : During p X m st0 s' c' := by
  have hpresent : Present s (.step 0 a) := present_of_synced h.inCall.synced 0
  obtain ⟨ht, hl⟩ := lawful_step h.covers h.lawful hgo.possible hgo.callStep
  refine ⟨inCall_step h.inCall hgo, h.covers.touch ht, hl, h.touches.trans ht, ?_,
    Deletions.consistent_step h.consistent hpresent hgo.step, fun u r hu => ?_⟩
  · exact KeyTenants.fits_step (l := .step 0 a) h.inCall.tables h.inCall.synced h.fits
      ⟨trivial, keepsTenant_of_lawful h.lawful hgo.lookup⟩ hgo.step
  · -- a user that is gone cannot come back under its id, so only a user that stays has to be compared
    rcases h.accounted u r hu with ⟨r1, hr1, hrole, htenant⟩ | hgone
    · rcases Deletions.stays_or_gone_step h.consistent (by rw [hr1]; rfl) hgo.step with hstay | hgone
      · obtain ⟨r2, hr2⟩ := Option.isSome_iff_exists.mp hstay
        obtain ⟨hrole', htenant'⟩ := scope_of_changes ht.users hr1 hr2
        exact Or.inl ⟨r2, hr2, hrole'.trans hrole, htenant'.trans htenant⟩
      · exact Or.inr hgone
    · exact Or.inr (Deletions.gone_step hgone hpresent hgo.step)

end calls

/-! ### One request -/

section requests

variable {cfg : Config} {p : Principal} {m : HashMap String UserRecord} {s s' s0 : State} {l : Label}

/-- **A request** of a principal that is not a super admin: what it changes is the principal's, and the keys
are in the tenants of their owners after it. -/
theorem confined_step (hk : WellKept s.accounts.store)
    (ht : ∀ u, InTenant s.accounts.store.keys.runtime s.accounts.store.users u)
    (hm : Accounted m { s.accounts with calls := ∅ }) (hp : l.principal.isSuper = false)
    (hs : step cfg s l = some s') :
    Confined l.principal s s' ∧ (∀ u, InTenant s'.accounts.store.keys.runtime s'.accounts.store.users u) ∧
      Accounted m { s'.accounts with calls := ∅ } := by
  rcases Upkeep.step_cases hs with rfl | ⟨request, reply, a, c, hh, hrun, rfl⟩ |
    ⟨request, reply, st, c, hh, hrun, rfl⟩
  · exact ⟨⟨.refl _ _, .refl _ _, .refl _ _⟩, ht, hm⟩
  · obtain ⟨X, hX, hl⟩ := lawful_of_handle hp hk ht hh
    obtain ⟨s1, hc, hduring, hret, rfl⟩ := runAccounts_rule hrun (during_start hk ht hX hl hm)
      fun _ _ _ _ _ => during_step
    refine ⟨⟨hduring.touches, .refl _ _, .refl _ _⟩, fun u => ?_, fun u r hu => ?_⟩
    · exact (hduring.fits u none (hc ▸ on_single (held_of_returned hret) u)).mem
    · rcases hduring.accounted u r hu with h | h
      · exact Or.inl h
      · exact Or.inr ⟨h.user, h.row, h.logged, fun i d hi => (by cases hi)⟩
  · obtain ⟨id, rfl, hrole, htenant⟩ := rotate_of_handle hp hh
    obtain ⟨hmem, hrow⟩ := rotatesOwn_runTenants ⟨hrole, htenant⟩ hrun
    exact ⟨⟨.refl _ _, hmem, hrow⟩, ht, hm⟩

/-! ### Every sequence of requests -/

/-- What is known after some requests, from `s0` on. -/
structure Since (s0 s : State) : Prop where
  kept : WellKept s.accounts.store
  inTenant : ∀ u, InTenant s.accounts.store.keys.runtime s.accounts.store.users u
  accounted : Accounted s0.accounts.store.users { s.accounts with calls := ∅ }
  users : ChangesWithin (fun r => r.role = .user) s0.accounts.store.users s.accounts.store.users
  userRows : ChangesWithin (fun r => r.role = .user) s0.accounts.store.userRows s.accounts.store.userRows
  tenants : ∀ t, (s.tenants.tenants.lookup t).map withoutToken = (s0.tenants.tenants.lookup t).map withoutToken
  tenantRows : ∀ t,
    (s.tenants.tenantRows.lookup t).map withoutToken = (s0.tenants.tenantRows.lookup t).map withoutToken

theorem since_start (hk : WellKept s.accounts.store)
    (ht : ∀ u, InTenant s.accounts.store.keys.runtime s.accounts.store.users u) : Since s s :=
  ⟨hk, ht, fun _ r hr => Or.inl ⟨r, hr, rfl, rfl⟩, .refl _ _, .refl _ _, fun _ => rfl, fun _ => rfl⟩

theorem since_step (h : Since s0 s) (hp : l.principal.isSuper = false) (hs : step cfg s l = some s') :
    Since s0 s' := by
  obtain ⟨hconf, ht, hm⟩ := confined_step h.kept h.inTenant h.accounted hp hs
  have hrole : ∀ {v v' : HashMap String UserRecord}, ChangesWithin (OwnUser l.principal) v v' →
      ChangesWithin (fun r => r.role = .user) v v' := fun hc => hc.mono fun _ hr => hr.2.1
  exact ⟨wellKept_step h.kept hs, ht, hm, h.users.trans (hrole hconf.accounts.users),
    h.userRows.trans (hrole hconf.accounts.userRows), fun t => (hconf.tenants.map t).trans (h.tenants t),
    fun t => (hconf.tenantRows.map t).trans (h.tenantRows t)⟩

theorem admin_iff {m' : HashMap String UserRecord} {u : String} {r : UserRecord}
    (h : ChangesWithin (fun r => r.role = .user) m m') (hr : r.role ≠ .user) :
    m'.lookup u = some r ↔ m.lookup u = some r := by
  rcases h u with he | ⟨hold, hnew⟩
  · rw [he]
  · exact ⟨fun h => absurd (hnew r h) hr, fun h => absurd (hold r h) hr⟩

theorem Since.unaltered (h : Since s0 s) : Unaltered s0 s := by
  refine ⟨fun u r hr => admin_iff h.users hr, fun u r hr => admin_iff h.userRows hr, fun u r r' hr hr' => ?_,
    h.tenants, h.tenantRows⟩
  rcases h.accounted u r hr with ⟨q, hq, hscope⟩ | hgone
  · cases hr'.symm.trans hq
    exact hscope
  · cases hr'.symm.trans hgone.user

end requests

/-- **Administrative integrity.** Principals that are not super admins make any requests, one after the
other, from a state in which every key is in the tenant of its owner; the tables of the accounts are as the
store keeps them (`Upkeep.wellKept_run`). What each request changes is its principal's, and all together
they alter no admin, no role or tenant of a user, and nothing of a tenant but its agent token. -/
theorem admin_integrity (cfg : Config) (s s' : State) (ls : List Label) (hk : WellKept s.accounts.store)
    (ht : ∀ u, InTenant s.accounts.store.keys.runtime s.accounts.store.users u)
    (hp : ∀ l ∈ ls, l.principal.isSuper = false) (hs : run (step cfg) s ls = some s') :
    AllSteps (step cfg) (fun s l => ∀ s', step cfg s l = some s' → Confined l.principal s s') s ls ∧
      Unaltered s s' := by
  have hC : AllSteps (step cfg) (fun _ l => l.principal.isSuper = false) s ls := allSteps_of_forall hp
  have hstep : ∀ s1 l s2, Since s s1 → l.principal.isSuper = false → step cfg s1 l = some s2 → Since s s2 :=
    fun _ _ _ h hp hs => since_step h hp hs
  refine ⟨?_, (run_invariant_of hstep ls s s' (since_start hk ht) hC hs).unaltered⟩
  exact allSteps_of_invariant hstep
    (fun s1 l h hp s2 hs => (confined_step h.kept h.inTenant h.accounted hp hs).1) ls s (since_start hk ht) hC

/-! ### Some requests -/

/-- A tenant admin of the tenant `default`. -/
def exampleAdmin : UserRecord := ⟨"a1", some "default", "root", "h0", .tenantAdmin, true, 0, 0, 0, none⟩

/-- A plain user of it. -/
def exampleUser : UserRecord := ⟨"u1", some "default", "alice", "h1", .user, true, 1, 1, 0, some "a1"⟩

/-- The tenant `default` with its admin, and nothing else. -/
def exampleState : State where
  accounts := { Accounts.init with store := { Accounts.init.store with
    users := (∅ : HashMap String UserRecord).insert "a1" exampleAdmin
    usernames := (∅ : HashMap String String).insert "root" "a1"
    userRows := (∅ : HashMap String UserRecord).insert "a1" exampleAdmin } }
  tenants := Tenants.init.store
  agents := fun _ => 0

theorem wellKept_exampleState : WellKept exampleState.accounts.store := by
  have hids : ∀ u r, ((∅ : HashMap String UserRecord).insert "a1" exampleAdmin).lookup u = some r →
      r.id = u := by
    intro u r hr
    rw [lookup_insert] at hr
    split_ifs at hr with hu
    · cases hr
      exact hu.symm
    · cases hr
  refine ⟨hids, hids, fun _ => rfl, ?_, ?_⟩ <;> intros <;> contradiction

/-- The admin creates the user, the user a key, the admin rotates the token of the tenant; then the user
tries to delete the admin. -/
def exampleRequests : List Label :=
  [⟨.forUser exampleAdmin, .createUser ⟨"alice", "correct horse", "user", none⟩,
      [.tenant (some true), .silent, .written "u1" "h1" 1, .silent, .silent], []⟩,
    ⟨.forUser exampleUser, .createKey ⟨some "k", none, none⟩,
      [.key (.tables (some true) (some (some "default"))), .key (.inserted "id1" "sk-abc" Revocation.abcHash 5),
        .key .silent, .key .silent], []⟩,
    ⟨.forUser exampleAdmin, .rotateAgentToken "default", [], [.silent, .written "" "sk-xyz" 0, .silent]⟩,
    ⟨.forUser exampleUser, .deleteUser "a1", [], []⟩]

theorem admin_integrity_requests : ∃ s',
    run (step Revocation.exampleConfig) exampleState exampleRequests = some s' ∧
    AllSteps (step Revocation.exampleConfig)
      (fun s l => ∀ s', step Revocation.exampleConfig s l = some s' → Confined l.principal s s')
      exampleState exampleRequests ∧
    Unaltered exampleState s' ∧ s'.user "u1" = some exampleUser ∧ s'.user "a1" = some exampleAdmin ∧
    (s'.key "id1").map (fun r => (r.tenantId, r.ownerUserId)) = some ("default", some "u1") ∧
    (s'.tenant "default").map (·.agentTokenHash) = some (Revocation.exampleConfig.lookupOf "sk-xyz") := by
  obtain ⟨s', hs, h⟩ := exists_run (step Revocation.exampleConfig) exampleState exampleRequests (fun s' =>
    s'.user "u1" = some exampleUser ∧ s'.user "a1" = some exampleAdmin ∧
    (s'.key "id1").map (fun r => (r.tenantId, r.ownerUserId)) = some ("default", some "u1") ∧
    (s'.tenant "default").map (·.agentTokenHash) = some (Revocation.exampleConfig.lookupOf "sk-xyz"))
    (by decide +kernel)
  obtain ⟨hsteps, hun⟩ := admin_integrity Revocation.exampleConfig exampleState s' exampleRequests
    wellKept_exampleState (fun u k r x hr => (by cases hr)) (by decide) hs
  exact ⟨s', hs, hsteps, hun, h⟩

end HomeLlmGateway.Admin.Integrity
