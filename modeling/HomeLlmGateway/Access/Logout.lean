import HomeLlmGateway.Access.AdminAuth
import HomeLlmGateway.Storage.SessionRevocation

/-! # A logout is final

`logout` revokes the session that has let the request in, while other requests log in, change users and
revoke sessions. `Moves` is what a step of `Storage.Sessions` does to the sessions, whether or not its
statements fail; a session that is neither in memory nor in the table nor in flight stays so
(`gone_step`). -/

namespace HomeLlmGateway.Access.Logout

open HomeLlmGateway.Lib.Runs HomeLlmGateway.Lib.Assoc
open HomeLlmGateway.Lib.ByteCodec.Codec
open HomeLlmGateway.Proto.Http (HeaderMap ofList)
open HomeLlmGateway.Access.Rbac HomeLlmGateway.Access.Cookies HomeLlmGateway.Access.AdminAuth
open HomeLlmGateway.Storage.Keys (Config)
open HomeLlmGateway.Storage.Users (UserRecord)
open HomeLlmGateway.Storage.Sessions HomeLlmGateway.Storage.SessionTables
open HomeLlmGateway.Storage.SessionRevocation (sessionToken sessionHash sessionConfig createsUser verifies
  opensSession)

/-! ### What a step does to the sessions -/

/-- The session that the call of a slot has put into the table and not yet into memory. -/
def flightAt (s : State) (slot : ℕ ⊕ ℕ) : Option SessionRecord :=
  (s.calls.lookup slot).bind fun c => (inFlight c).map Prod.fst

def hashes (s : State) : List String := s.history.opened.map Opening.hash

inductive Moves (s s' : State) : Prop
  | shrink (sessions : ∀ h, s.store.sessions.lookup h = none → s'.store.sessions.lookup h = none)
      (rows : ∀ h, s.store.rows.lookup h = none → s'.store.rows.lookup h = none)
      (flight : ∀ slot r, flightAt s' slot = some r → flightAt s slot = some r)
      (opened : hashes s' = hashes s)
  | insertRow (slot : ℕ ⊕ ℕ) (r : SessionRecord) (fresh : r.tokenHash ∉ hashes s)
      (store : s'.store = { s.store with rows := s.store.rows.insert r.tokenHash r })
      (flight : ∀ slot', flightAt s' slot' = if slot' = slot then some r else flightAt s slot')
      (opened : hashes s' = hashes s ++ [r.tokenHash])
  | publish (slot : ℕ ⊕ ℕ) (r : SessionRecord) (held : flightAt s slot = some r)
      (store : s'.store = { s.store with sessions := s.store.sessions.insert r.tokenHash r })
      (flight : ∀ slot', flightAt s' slot' = if slot' = slot then none else flightAt s slot')
      (opened : hashes s' = hashes s)
  | restart (sessions : ∀ h, s.store.rows.lookup h = none → s'.store.sessions.lookup h = none)
      (rows : s'.store.rows = s.store.rows) (flight : ∀ slot, flightAt s' slot = none)
      (opened : hashes s' = hashes s)

section steps

variable {cfg : Config} {s s' : State} {l : Label}

theorem settle_fields (s : State) (i : ℕ) : (s.settle i).store = s.store ∧ (s.settle i).calls = s.calls ∧
    (s.settle i).history.opened = s.history.opened := by
  unfold State.settle
  split_ifs <;> exact ⟨rfl, rfl, rfl⟩

theorem go_fields (s : State) (i : ℕ) (c : Storage.Accounts.Call) (acc : Storage.Accounts.State) :
    (s.go i c acc).store = s.store ∧
    (s.go i c acc).calls = s.revoking i ((acc.calls.lookup i).bind (due (s.keeps.lookup i).join c)) ∧
    (s.go i c acc).history.opened = s.history.opened := by
  obtain ⟨hstore, hcalls, hopened⟩ := settle_fields { s with
    accounts := acc
    calls := s.revoking i ((acc.calls.lookup i).bind (due (s.keeps.lookup i).join c))
    history := s.history.note i (changeOf s.accounts.store.users (s.keeps.lookup i).join c) } i
  refine ⟨hstore, hcalls, hopened.trans ?_⟩
  cases changeOf s.accounts.store.users (s.keeps.lookup i).join c <;> rfl

theorem lookup_retain_none {p : String → SessionRecord → Bool} {m : HashMap String SessionRecord} {h : String}
    (hm : m.lookup h = none) : (retain p m).lookup h = none := by
  rw [lookup_retain, hm, Option.filter_none]

theorem shrinks_of_callStep {st' : Store} {now n : ℕ} {a : Answer} {c c' : Call}
    (hlogin : ∀ u p ttl pc, c ≠ .login u p ttl pc)
    (h : callStep cfg s.accounts.store s.store now n a c = some (st', c')) :
    inFlight c' = none ∧ (∀ k, s.store.sessions.lookup k = none → st'.sessions.lookup k = none) ∧
      ∀ k, s.store.rows.lookup k = none → st'.rows.lookup k = none := by
  have hremove : ∀ {hs : List String} {pc pc' : RemovePc},
      removeStep s.store hs a pc = some (st', pc') →
      (∀ k, s.store.sessions.lookup k = none → st'.sessions.lookup k = none) ∧
        ∀ k, s.store.rows.lookup k = none → st'.rows.lookup k = none := by
    intro hs pc pc' hstep
    cases pc with
    | start =>
      cases hstep
      exact ⟨fun _ hk => hk, fun _ hk => hk⟩
    | deletingRows hashes =>
      simp only [removeStep] at hstep
      split at hstep <;> cases hstep
      exact ⟨fun _ hk => hk, fun _ hk => lookup_retain_none hk⟩
    | removing hashes =>
      cases hstep
      exact ⟨fun _ hk => lookup_retain_none hk, fun _ hk => hk⟩
    | done count => cases hstep
  cases c with
  | login u p ttl pc => exact absurd rfl (hlogin u p ttl pc)
  | revokeSession token pc =>
    obtain ⟨⟨st1, pc1⟩, hstep, he⟩ := Option.map_eq_some_iff.mp h
    cases he
    refine ⟨rfl, ?_⟩
    cases pc with
    | deletingRow =>
      simp only [revokeStep] at hstep
      split at hstep <;> cases hstep
      exact ⟨fun _ hk => hk, fun _ hk => lookup_retain_none hk⟩
    | removing =>
      cases hstep
      exact ⟨fun _ hk => lookup_retain_none hk, fun _ hk => hk⟩
    | done found => cases hstep
  | revokeUserSessions user keep pc =>
    obtain ⟨⟨st1, pc1⟩, hstep, he⟩ := Option.map_eq_some_iff.mp h
    cases he
    exact ⟨rfl, hremove hstep⟩
  | pruneExpiredSessions pc =>
    obtain ⟨⟨st1, pc1⟩, hstep, he⟩ := Option.map_eq_some_iff.mp h
    cases he
    exact ⟨rfl, hremove hstep⟩

theorem flightAt_insert (s' : State) {slot : ℕ ⊕ ℕ} {c' : Call} (hcalls : s'.calls = s.calls.insert slot c')
    (slot' : ℕ ⊕ ℕ) :
    flightAt s' slot' = if slot' = slot then (inFlight c').map Prod.fst else flightAt s slot' := by
  unfold flightAt
  rw [hcalls, lookup_insert]
  split_ifs
  · rfl
  · rfl

theorem opens_of_inFlight_none {c c' : Call} (h : inFlight c' = none) : opens c c' = [] := by
  have hnone : openingOf c' = none := by
    cases c' with
    | login u p ttl pc =>
      cases pc with
      | publishing => cases h
      | start | verifying | checkingTenant | creating | inserting | done => rfl
    | revokeSession | revokeUserSessions | pruneExpiredSessions => rfl
  unfold opens
  rw [hnone]
  split_ifs <;> rfl

/-- **One step of a call on sessions.** -/
theorem moves_of_callStep {slot : ℕ ⊕ ℕ} {a : Answer} {c c' : Call} {st' : Store}
    (hi : s.calls.lookup slot = some c) (hposs : possible cfg s c a = true)
    (h : callStep cfg s.accounts.store s.store s.clock s.history.changes.length a c = some (st', c'))
    (hstore : s'.store = st') (hcalls : s'.calls = s.calls.insert slot c')
    (hopened : s'.history.opened = s.history.opened ++ opens c c') : Moves s s' := by
  have hflight := flightAt_insert s' hcalls
  have hhashes : hashes s' = hashes s ++ (opens c c').map Opening.hash := by
    rw [hashes, hopened, List.map_append]
    rfl
  -- a call without a session in flight
  have hshrink : inFlight c' = none → (∀ k, s.store.sessions.lookup k = none → st'.sessions.lookup k = none) →
      (∀ k, s.store.rows.lookup k = none → st'.rows.lookup k = none) → Moves s s' := by
    intro hf hsessions hrows
    refine .shrink (hstore ▸ hsessions) (hstore ▸ hrows) (fun slot' r hr => ?_) ?_
    · rw [hflight, hf] at hr
      split_ifs at hr with hs
      · cases hr
      · exact hr
    · rw [hhashes, opens_of_inFlight_none hf, List.map_nil, List.append_nil]
  by_cases hlogin : ∃ u p ttl pc, c = .login u p ttl pc
  · obtain ⟨u, p, ttl, pc, rfl⟩ := hlogin
    cases effect_of_callStep hposs rfl h with
    | pass _ _ hr hf hf' hd => exact hshrink hf' (fun _ hk => hk) fun _ hk => hk
    | insertRow _ _ _ seen r hfresh =>
      have hnew : r.tokenHash ∉ hashes s := by
        simp only [freshHash, Bool.and_eq_true, List.all_eq_true, decide_eq_true_eq] at hfresh
        intro hm
        obtain ⟨o, ho, he⟩ := List.mem_map.mp hm
        exact hfresh.2 o ho he
      exact .insertRow slot r hnew hstore hflight hhashes
    | publish _ _ _ seen r =>
      refine .publish slot r ?_ hstore hflight ?_
      · unfold flightAt
        rw [hi]
        rfl
      · rw [hhashes]
        simp [opens, insertsRow]
    | deleteRows _ _ hashes failed hr hf hf' hd =>
      exact hshrink hf' (fun _ hk => hk) fun _ hk => lookup_retain_none hk
    | remove _ _ hashes hr hf hf' hd hd' =>
      exact hshrink hf' (fun _ hk => lookup_retain_none hk) fun _ hk => hk
  · have hno : ∀ u p ttl pc, c ≠ .login u p ttl pc := by
      intro u p ttl pc hc
      exact hlogin ⟨u, p, ttl, pc, hc⟩
    obtain ⟨hf, hsessions, hrows⟩ := shrinks_of_callStep hno h
    exact hshrink hf hsessions hrows

/-- A step that leaves the store, and adds no login. -/
theorem moves_of_store (hstore : s'.store = s.store) (hopened : s'.history.opened = s.history.opened)
    (hflight : ∀ slot r, flightAt s' slot = some r → flightAt s slot = some r) : Moves s s' := by
  refine .shrink ?_ ?_ hflight (congrArg (List.map Opening.hash) hopened)
  · rw [hstore]
    exact fun _ hk => hk
  · rw [hstore]
    exact fun _ hk => hk

/-- **One step.** -/
theorem moves_of_step (hs : step cfg s l = some s') : Moves s s' := by
  cases l with
  | begin i request keep =>
    obtain ⟨acc, -, rfl⟩ := Option.map_eq_some_iff.mp hs
    exact moves_of_store rfl rfl fun _ _ hr => hr
  | go i a =>
    simp only [step] at hs
    split_ifs at hs
    obtain ⟨c, -, hs⟩ := Option.bind_eq_some_iff.mp hs
    obtain ⟨acc, -, rfl⟩ := Option.map_eq_some_iff.mp hs
    obtain ⟨hstore, hcalls, hopened⟩ := go_fields s i c acc
    refine moves_of_store hstore hopened fun slot r hr => ?_
    cases hdue : (acc.calls.lookup i).bind (due (s.keeps.lookup i).join c) with
    | none =>
      rw [hdue] at hcalls
      unfold flightAt at hr ⊢
      rwa [hcalls] at hr
    | some d =>
      rw [hdue] at hcalls
      rw [flightAt_insert _ hcalls] at hr
      split_ifs at hr with hslot
      · cases hr
      · exact hr
  | start j request =>
    simp only [step] at hs
    split at hs <;> cases hs
    refine moves_of_store rfl rfl fun slot r hr => ?_
    rw [flightAt_insert _ rfl] at hr
    split_ifs at hr with hslot
    · cases request <;> cases hr
    · exact hr
  | step slot a =>
    obtain ⟨c, hi, hs⟩ := Option.bind_eq_some_iff.mp hs
    split_ifs at hs with hposs
    obtain ⟨⟨st', c'⟩, hstep, he⟩ := Option.map_eq_some_iff.mp hs
    cases slot with
    | inl i =>
      cases he
      obtain ⟨hstore, hcalls, hopened⟩ := settle_fields { s with
        store := st'
        calls := s.calls.insert (.inl i) c'
        history := { s.history with opened := s.history.opened ++ opens c c' } } i
      exact moves_of_callStep hi hposs hstep hstore hcalls hopened
    | inr j =>
      cases he
      exact moves_of_callStep hi hposs hstep rfl rfl rfl
  | clock now =>
    cases hs
    exact moves_of_store rfl rfl fun _ _ hr => hr
  | restart =>
    simp only [step, Option.map_eq_some_iff] at hs
    obtain ⟨acc, -, rfl⟩ := hs
    exact .restart (fun _ hk => lookup_retain_none hk) rfl (fun _ => rfl) rfl

end steps

/-! ### Sessions that are in flight, and sessions that are gone -/

/-- What is known of the logins so far. -/
structure Known (s : State) : Prop where
  sessions : ∀ h, h ∉ hashes s → s.store.sessions.lookup h = none
  rows : ∀ h, h ∉ hashes s → s.store.rows.lookup h = none
  flight : ∀ slot r, flightAt s slot = some r → r.tokenHash ∈ hashes s ∧ s.store.sessions.lookup r.tokenHash = none
  apart : ∀ slot slot' r r', flightAt s slot = some r → flightAt s slot' = some r' →
    r.tokenHash = r'.tokenHash → slot = slot'

/-- No login has the session under way any more. -/
structure Landed (h : String) (s : State) : Prop where
  opened : h ∈ hashes s
  flight : ∀ slot r, flightAt s slot = some r → r.tokenHash ≠ h

section invariants

variable {cfg : Config} {s s' : State} {l : Label} {h : String}

theorem known_step (hk : Known s) (hm : Moves s s') : Known s' := by
  cases hm with
  | shrink sessions rows flight opened =>
    refine ⟨fun k hn => ?_, fun k hn => ?_, fun slot r hr => ?_, fun slot slot' r r' hr hr' => ?_⟩
    · exact sessions k (hk.sessions k (opened ▸ hn))
    · exact rows k (hk.rows k (opened ▸ hn))
    · obtain ⟨h1, h2⟩ := hk.flight slot r (flight slot r hr)
      exact ⟨opened ▸ h1, sessions _ h2⟩
    · exact hk.apart slot slot' r r' (flight slot r hr) (flight slot' r' hr')
  | insertRow slot0 r0 fresh store flight opened =>
    have hother : ∀ {slot r}, flightAt s slot = some r → r.tokenHash ≠ r0.tokenHash := by
      intro slot r hr he
      exact fresh (he ▸ (hk.flight slot r hr).1)
    refine ⟨fun k hn => ?_, fun k hn => ?_, fun slot r hr => ?_, fun slot slot' r r' hr hr' he => ?_⟩
    · rw [opened, List.mem_append, not_or] at hn
      rw [store]
      exact hk.sessions k hn.1
    · rw [opened, List.mem_append, not_or, List.mem_singleton] at hn
      rw [store]
      show (s.store.rows.insert r0.tokenHash r0).lookup k = none
      rw [lookup_insert, if_neg hn.2]
      exact hk.rows k hn.1
    · rw [store, opened]
      rw [flight] at hr
      split_ifs at hr with hslot
      · cases hr
        exact ⟨by simp, hk.sessions _ fresh⟩
      · obtain ⟨h1, h2⟩ := hk.flight slot r hr
        exact ⟨List.mem_append_left _ h1, h2⟩
    · rw [flight] at hr hr'
      split_ifs at hr hr' with h1 h2 h2
      · exact h1.trans h2.symm
      · cases hr
        exact absurd he.symm (hother hr')
      · cases hr'
        exact absurd he (hother hr)
      · exact hk.apart slot slot' r r' hr hr' he
  | publish slot0 r0 held store flight opened =>
    have hback : ∀ {slot r}, flightAt s' slot = some r → flightAt s slot = some r ∧ slot0 ≠ slot := by
      intro slot r hr
      rw [flight] at hr
      split_ifs at hr with hslot
      exact ⟨hr, Ne.symm hslot⟩
    refine ⟨fun k hn => ?_, fun k hn => ?_, fun slot r hr => ?_, fun slot slot' r r' hr hr' => ?_⟩
    · rw [opened] at hn
      rw [store]
      show (s.store.sessions.insert r0.tokenHash r0).lookup k = none
      rw [lookup_insert, if_neg fun he : k = r0.tokenHash => hn (he ▸ (hk.flight slot0 r0 held).1)]
      exact hk.sessions k hn
    · rw [store]
      exact hk.rows k (opened ▸ hn)
    · obtain ⟨hr, hslot⟩ := hback hr
      obtain ⟨h1, h2⟩ := hk.flight slot r hr
      refine ⟨opened ▸ h1, ?_⟩
      rw [store]
      show (s.store.sessions.insert r0.tokenHash r0).lookup r.tokenHash = none
      rw [lookup_insert, if_neg fun he => hslot (hk.apart slot0 slot r0 r held hr he.symm)]
      exact h2
    · exact hk.apart slot slot' r r' (hback hr).1 (hback hr').1
  | restart sessions rows flight opened =>
    refine ⟨fun k hn => ?_, fun k hn => ?_, fun slot r hr => ?_, fun slot slot' r r' hr => ?_⟩
    · exact sessions k (hk.rows k (opened ▸ hn))
    · rw [rows]
      exact hk.rows k (opened ▸ hn)
    · rw [flight] at hr
      cases hr
    · rw [flight] at hr
      cases hr

theorem known_init : Known init := by
  refine ⟨fun _ _ => rfl, fun _ _ => rfl, ?_, ?_⟩
  · intro slot r hr
    cases hr
  · intro slot slot' r r' hr
    cases hr

theorem Known.landed (hk : Known s) {r : SessionRecord} (hr : s.store.sessions.lookup h = some r) :
    Landed h s := by
  constructor
  · by_contra hn
    rw [hk.sessions h hn] at hr
    cases hr
  · rintro slot r' hr' rfl
    rw [(hk.flight slot r' hr').2] at hr
    cases hr

theorem landed_step (hl : Landed h s) (hm : Moves s s') : Landed h s' := by
  cases hm with
  | shrink sessions rows flight opened =>
    exact ⟨opened ▸ hl.opened, fun slot r hr => hl.flight slot r (flight slot r hr)⟩
  | insertRow slot0 r0 fresh store flight opened =>
    refine ⟨opened ▸ List.mem_append_left _ hl.opened, fun slot r hr => ?_⟩
    rw [flight] at hr
    split_ifs at hr with hslot
    · cases hr
      rintro rfl
      exact fresh hl.opened
    · exact hl.flight slot r hr
  | publish slot0 r0 held store flight opened =>
    refine ⟨opened ▸ hl.opened, fun slot r hr => ?_⟩
    rw [flight] at hr
    split_ifs at hr with hslot
    exact hl.flight slot r hr
  | restart sessions rows flight opened =>
    refine ⟨opened ▸ hl.opened, fun slot r hr => ?_⟩
    rw [flight] at hr
    cases hr

theorem rows_none_step (hl : Landed h s) (hm : Moves s s') (hrow : s.store.rows.lookup h = none) :
    s'.store.rows.lookup h = none := by
  cases hm with
  | shrink sessions rows flight opened => exact rows h hrow
  | insertRow slot0 r0 fresh store flight opened =>
    rw [store]
    show (s.store.rows.insert r0.tokenHash r0).lookup h = none
    rw [lookup_insert, if_neg]
    · exact hrow
    · rintro rfl
      exact fresh hl.opened
  | publish slot0 r0 held store flight opened =>
    rw [store]
    exact hrow
  | restart sessions rows flight opened =>
    rw [rows]
    exact hrow

theorem sessions_none_step (hl : Landed h s) (hm : Moves s s') (hrow : s.store.rows.lookup h = none)
    (hsession : s.store.sessions.lookup h = none) : s'.store.sessions.lookup h = none := by
  cases hm with
  | shrink sessions rows flight opened => exact sessions h hsession
  | insertRow slot0 r0 fresh store flight opened =>
    rw [store]
    exact hsession
  | publish slot0 r0 held store flight opened =>
    rw [store]
    show (s.store.sessions.insert r0.tokenHash r0).lookup h = none
    rw [lookup_insert, if_neg (hl.flight slot0 r0 held).symm]
    exact hsession
  | restart sessions rows flight opened => exact sessions h hrow

end invariants

/-! ### The call of a logout -/

/-- The row of the session is deleted once the call has passed its statement, and the session is removed
from memory once it has returned. -/
def Revoked (cfg : Config) (token : String) (s : State) : RevokePc → Prop
  | .deletingRow => True
  | .removing => s.store.rows.lookup (cfg.lookupOf token) = none
  | .done _ => s.store.rows.lookup (cfg.lookupOf token) = none ∧
      s.store.sessions.lookup (cfg.lookupOf token) = none

section logout

variable {cfg : Config} {s s' : State} {l : Label} {token : String} {j : ℕ}

/-- How the call of a logout gets where it stands after a step. -/
theorem call_of_step {pc' : RevokePc} (hs : step cfg s l = some s')
    (hj : s'.calls.lookup (.inr j) = some (.revokeSession token pc')) :
    s.calls.lookup (.inr j) = some (.revokeSession token pc') ∨ pc' = .deletingRow ∨
      ∃ a pc, l = .step (.inr j) a ∧ s.calls.lookup (.inr j) = some (.revokeSession token pc) ∧
        revokeStep s.store (cfg.lookupOf token) a pc = some (s'.store, pc') := by
  cases l with
  | begin i request keep =>
    obtain ⟨acc, -, rfl⟩ := Option.map_eq_some_iff.mp hs
    exact Or.inl hj
  | go i a =>
    simp only [step] at hs
    split_ifs at hs
    obtain ⟨c, -, hs⟩ := Option.bind_eq_some_iff.mp hs
    obtain ⟨acc, -, rfl⟩ := Option.map_eq_some_iff.mp hs
    obtain ⟨-, hcalls, -⟩ := go_fields s i c acc
    rw [hcalls] at hj
    cases hdue : (acc.calls.lookup i).bind (due (s.keeps.lookup i).join c) with
    | none =>
      rw [hdue] at hj
      exact Or.inl hj
    | some d =>
      rw [hdue, State.revoking, lookup_insert, if_neg (by simp)] at hj
      exact Or.inl hj
  | start i request =>
    simp only [step] at hs
    split at hs <;> cases hs
    rw [lookup_insert] at hj
    split_ifs at hj with hslot
    · cases request with
      | revokeSession token' =>
        cases hj
        exact Or.inr (Or.inl rfl)
      | login | pruneExpiredSessions => cases hj
    · exact Or.inl hj
  | step slot a =>
    obtain ⟨c, hi, hs⟩ := Option.bind_eq_some_iff.mp hs
    split_ifs at hs
    obtain ⟨⟨st', c'⟩, hstep, he⟩ := Option.map_eq_some_iff.mp hs
    cases slot with
    | inl i =>
      cases he
      obtain ⟨-, hcalls, -⟩ := settle_fields { s with
        store := st'
        calls := s.calls.insert (.inl i) c'
        history := { s.history with opened := s.history.opened ++ opens c c' } } i
      rw [hcalls, lookup_insert, if_neg (by simp)] at hj
      exact Or.inl hj
    | inr i =>
      cases he
      rw [lookup_insert] at hj
      split_ifs at hj with hslot
      · cases hslot
        cases hj
        cases c with
        | revokeSession token' pc =>
          obtain ⟨⟨st1, pc1⟩, hrevoke, he⟩ := Option.map_eq_some_iff.mp hstep
          cases he
          exact Or.inr (Or.inr ⟨a, pc, rfl, hi, hrevoke⟩)
        | login u p ttl pc =>
          obtain ⟨p1, -, he⟩ := Option.map_eq_some_iff.mp hstep
          cases he
        | revokeUserSessions user keep pc =>
          obtain ⟨p1, -, he⟩ := Option.map_eq_some_iff.mp hstep
          cases he
        | pruneExpiredSessions pc =>
          obtain ⟨p1, -, he⟩ := Option.map_eq_some_iff.mp hstep
          cases he
      · exact Or.inl hj
  | clock now =>
    cases hs
    exact Or.inl hj
  | restart =>
    simp only [step, Option.map_eq_some_iff] at hs
    obtain ⟨acc, -, rfl⟩ := hs
    cases hj

theorem Revoked.later {pc : RevokePc} (hr : Revoked cfg token s pc) (hl : Landed (cfg.lookupOf token) s)
    (hm : Moves s s') : Revoked cfg token s' pc := by
  cases pc with
  | deletingRow => trivial
  | removing => exact rows_none_step hl hm hr
  | done found => exact ⟨rows_none_step hl hm hr.1, sessions_none_step hl hm hr.1 hr.2⟩

theorem revoked_of_revokeStep {a : Answer} {pc pc' : RevokePc} (hr : Revoked cfg token s pc)
    (hok : ∀ failed, a = .deleted failed → cfg.lookupOf token ∉ failed)
    (h : revokeStep s.store (cfg.lookupOf token) a pc = some (s'.store, pc')) : Revoked cfg token s' pc' := by
  cases pc with
  | deletingRow =>
    simp only [revokeStep] at h
    split at h <;> simp only [Option.some.injEq, Prod.mk.injEq, reduceCtorEq] at h
    next failed =>
    obtain ⟨hstore, rfl⟩ := h
    have hnot := hok failed rfl
    rw [Revoked, ← hstore, Store.deleteRows, lookup_retain]
    simp [hnot]
  | removing =>
    simp only [revokeStep, Option.some.injEq, Prod.mk.injEq] at h
    obtain ⟨hstore, rfl⟩ := h
    rw [Revoked, ← hstore]
    refine ⟨hr, ?_⟩
    rw [Store.removeAll, lookup_retain]
    simp
  | done found => cases h

/-- Where a logout stands whose session had got into memory before it began. -/
structure Underway (cfg : Config) (token : String) (j : ℕ) (s : State) : Prop where
  landed : Landed (cfg.lookupOf token) s
  call : ∀ pc, s.calls.lookup (.inr j) = some (.revokeSession token pc) → Revoked cfg token s pc

theorem underway_step (hu : Underway cfg token j s)
    (hok : ∀ failed, l = .step (.inr j) (.deleted failed) → cfg.lookupOf token ∉ failed)
    (hs : step cfg s l = some s') : Underway cfg token j s' := by
  have hm := moves_of_step hs
  refine ⟨landed_step hu.landed hm, fun pc' hj => ?_⟩
  rcases call_of_step hs hj with hsame | rfl | ⟨a, pc, rfl, hpc, hrevoke⟩
  · exact (hu.call pc' hsame).later hu.landed hm
  · trivial
  · exact revoked_of_revokeStep (hu.call pc hpc) (fun failed ha => hok failed (by rw [ha])) hrevoke

/-- **A session that is gone stays so.** -/
theorem gone_run {ls : List Label} (hl : Landed (cfg.lookupOf token) s) {found : Bool}
    (hr : Revoked cfg token s (.done found)) (h : run (step cfg) s ls = some s') :
    s'.store.sessions.lookup (cfg.lookupOf token) = none := by
  have hinv : Landed (cfg.lookupOf token) s' ∧ Revoked cfg token s' (.done found) :=
    run_invariant (I := fun s => Landed (cfg.lookupOf token) s ∧ Revoked cfg token s (.done found))
      (fun s l s' hI hs => ⟨landed_step hI.1 (moves_of_step hs), hI.2.later hI.1 (moves_of_step hs)⟩)
      ⟨hl, hr⟩ ⟨ls, h⟩
  exact hinv.2.2

end logout

/-- **A logout is final.** A request that a session has let in to log out is not refused by `logout`. Once its
call has returned, and unless its own `DELETE` has failed, the token lets nobody in any more, whatever logins,
changes of users, revocations and restarts came in between and come after. -/
theorem logout_is_final (cfg : Config) {as bs cs : List Label} {s0 s1 s2 : State}
    (h0 : run (step cfg) init as = some s0) (h1 : run (step cfg) s0 bs = some s1)
    (h2 : run (step cfg) s1 cs = some s2) {users : HashMap String UserRecord}
    {tenantEnabled : String → Option Bool} {now : ℕ} {adminToken : Option String} {headers : HeaderMap}
    {p : Principal} {token : String} {j : ℕ} {found : Bool}
    (hlet : adminAuth (authorizeSession cfg s0.store.sessions users tenantEnabled now) adminToken
      "POST" headers = .ok p) (hp : p.source = .session)
    (hcookie : readCookie headers sessionCookie = some token) (hfree : s0.calls.lookup (.inr j) = none)
    (hdone : s1.calls.lookup (.inr j) = some (.revokeSession token (.done found)))
    (hdeleted : ∀ failed, Label.step (.inr j) (.deleted failed) ∈ bs → cfg.lookupOf token ∉ failed) :
    logout headers p = .ok (some token) ∧
      ∀ users tenantEnabled now adminToken method headers', readCookie headers' sessionCookie = some token →
        adminAuth (authorizeSession cfg s2.store.sessions users tenantEnabled now) adminToken method headers' =
          if breakGlassOk adminToken headers' then .ok .breakGlass
          else .error (unauthorized "invalid or expired session") := by
  obtain ⟨token', user, hcookie', hauth, hlogout⟩ := logout_of_admitted (by decide) hlet hp
  rw [hcookie] at hcookie'
  cases hcookie'
  refine ⟨hlogout, fun users tenantEnabled now adminToken method headers' hread => ?_⟩
  -- the session that has let the request in was in memory
  obtain ⟨r, hr, -⟩ := Option.bind_eq_some_iff.mp hauth
  have hknown : Known s0 := run_invariant (fun _ _ _ hk hs => known_step hk (moves_of_step hs)) known_init
    ⟨as, h0⟩
  have hstart : Underway cfg token j s0 := by
    refine ⟨hknown.landed hr, fun pc hpc => ?_⟩
    rw [hfree] at hpc
    cases hpc
  have hend : Underway cfg token j s1 := by
    refine run_invariant_of (C := fun _ l => ∀ failed, l = .step (.inr j) (.deleted failed) →
        cfg.lookupOf token ∉ failed) (fun _ _ _ hu hok hs => underway_step hu hok hs) bs s0 s1 hstart ?_ h1
    refine allSteps_of_forall fun l hl failed he => hdeleted failed ?_
    rw [← he]
    exact hl
  have hgone := gone_run hend.landed (hend.call _ hdone) h2
  refine adminAuth_of_none hread ?_
  simp [authorizeSession, hgone]

/-- The user of the example logs out. -/
def logsOut (failed : List String) : List Label :=
  [.start 2 (.revokeSession sessionToken), .step (.inr 2) (.deleted failed), .step (.inr 2) .silent]

/-- What their browser sends. -/
def logoutHeaders : HeaderMap :=
  ofList [(cookieName, ⟨utf8 ("hlmg_session=" ++ sessionToken ++ "; hlmg_csrf=4e5f"),
      List.all_eq_true.mp (by decide +kernel)⟩),
    (csrfHeader, ⟨utf8 "4e5f", List.all_eq_true.mp (by decide +kernel)⟩)]

theorem logout_is_final_restart : ∃ s0 s1 s2,
    run (step sessionConfig) init (createsUser ++ verifies ++ opensSession) = some s0 ∧
    run (step sessionConfig) s0 (logsOut []) = some s1 ∧ run (step sessionConfig) s1 [.restart] = some s2 ∧
    adminAuth (authorizeSession sessionConfig s2.store.sessions s2.accounts.store.users (fun _ => some true) 4)
      none "GET" logoutHeaders = .error (unauthorized "invalid or expired session") := by
  obtain ⟨s0, h0, hfree, hlet, hrest⟩ := exists_run (step sessionConfig) init
    (createsUser ++ verifies ++ opensSession)
    (fun s => s.calls.lookup (.inr 2) = none ∧
      adminAuth (authorizeSession sessionConfig s.store.sessions s.accounts.store.users (fun _ => some true) 3)
        none "POST" logoutHeaders = .ok ⟨some "u1", "alice", .user, some "alpha", .session⟩ ∧
      ((run (step sessionConfig) s (logsOut [])).any fun s1 =>
        s1.calls.lookup (.inr 2) = some (.revokeSession sessionToken (.done true)) &&
          (run (step sessionConfig) s1 [.restart]).isSome) = true) (by decide +kernel)
  obtain ⟨s1, h1, hs1⟩ := (Option.any_eq_true _ _).mp hrest
  rw [Bool.and_eq_true, decide_eq_true_eq] at hs1
  obtain ⟨s2, h2⟩ := Option.isSome_iff_exists.mp hs1.2
  refine ⟨s0, s1, s2, h0, h1, h2, ?_⟩
  obtain ⟨-, hout⟩ := logout_is_final sessionConfig h0 h1 h2 hlet rfl (by decide +kernel) hfree hs1.1
    (by simp [logsOut])
  rw [hout _ _ _ none "GET" logoutHeaders (by decide +kernel)]
  rfl

/-- If the row is not deleted, the session comes back with the next start. -/
theorem logout_undone_by_restart : ∃ s, run (step sessionConfig) init
      (createsUser ++ verifies ++ opensSession ++ logsOut [sessionHash] ++ [.restart]) = some s ∧
    (authorizeSession sessionConfig s.store.sessions s.accounts.store.users (fun _ => some true) 4
      sessionToken).isSome = true :=
  exists_run (step sessionConfig) init _ _ (by decide +kernel)

end HomeLlmGateway.Access.Logout
