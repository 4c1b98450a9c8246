import HomeLlmGateway.Storage.SessionTables
import HomeLlmGateway.Storage.WriteThrough

/-! # A failed deletion

`delete_user` (`gateway/src/storage/users.rs`) from its start to its end, over the users, the sessions and the
keys, in memory and in their tables. It revokes the sessions and disables the keys of the user first, ignoring
the errors of both, and deletes the row of the user then, the one statement whose error it returns. With that
error it has changed nothing exactly if there was nothing to revoke and to disable
(`allOrNothing_iff`). `revokeUserSessions_steps` and `deleteUser_steps` connect the calls to the steps of
`Storage.Sessions` and `Storage.Accounts`. -/

namespace HomeLlmGateway.Storage.UserDeletion

open HomeLlmGateway.Lib.Assoc
open HomeLlmGateway.Storage.Keys (Config DisablePc ownedBy rowsAfter)
open HomeLlmGateway.Storage.Users
open HomeLlmGateway.Storage.Accounts (DeleteUserPc deleteUserStep sweepStep isOver)
open HomeLlmGateway.Storage.Sessions (hashesWhere RemovePc revokeUserSessionsStep removeStep)
open HomeLlmGateway.Storage.SessionTables (mem_hashesWhere)
open HomeLlmGateway.Storage.WriteThrough

/-! ### The calls -/

/-- `revoke_user_sessions`, when the statements on the hashes in `failed` fail. -/
def revokeUserSessions (st : Sessions.Store) (userId : String) (keepHash : Option String)
    (failed : List String) : Sessions.Store × ℕ :=
  let hashes := hashesWhere (fun h r => r.userId = userId && some h ≠ keepHash) st.sessions
  if hashes.isEmpty then (st, 0) else ((st.deleteRows hashes failed).removeAll hashes, hashes.length)

/-- The stores that `delete_user` changes, with their tables. -/
structure Stores where
  keys : KeyStore
  users : HashMap String UserRecord
  usernames : HashMap String String
  userRows : HashMap String UserRecord
  sessions : Sessions.Store

/-- The statements of a call that fail: those on these sessions, the transaction on the keys, the one on the
user. -/
structure Faults where
  sessionRows : List String
  keys : Option String
  user : Option String

/-- What `delete_user` checks. -/
def deleteUserCheck (users : HashMap String UserRecord) (id : String) : Except UserError Unit :=
  match users.lookup id with
  | none => .error .notFound
  | some current => if current.role = .superAdmin then ensureNotLastSuper users id else .ok ()

/-- What it does after that. -/
def deleteChecked (s : Stores) (id : String) (f : Faults) : Stores × Except UserError Unit :=
  let s := { s with sessions := (revokeUserSessions s.sessions id none f.sessionRows).1 }
  let s := { s with keys := (disableKeysForOwner s.keys id f.keys).1 }
  match f.user with
  | some e => (s, .error (.database e))
  | none =>
    ({ s with
        userRows := s.userRows.erase id
        usernames := retain (fun _ v => v ≠ id) s.usernames
        users := s.users.erase id }, .ok ())

/-- `delete_user`. -/
def deleteUser (s : Stores) (id : String) (f : Faults) : Stores × Except UserError Unit :=
  match deleteUserCheck s.users id with
  | .error e => (s, .error e)
  | .ok () => deleteChecked s id f

/-! ### The steps of a call -/

section steps

variable {cfg : Config}

theorem revokeUserSessions_steps (st : Sessions.Store) (userId : String) (keepHash : Option String)
    (failed : List String) :
    Relation.ReflTransGen (fun x y => ∃ a, revokeUserSessionsStep x.1 userId keepHash a x.2 = some y)
      (st, RemovePc.start)
      ((revokeUserSessions st userId keepHash failed).1,
        RemovePc.done (revokeUserSessions st userId keepHash failed).2) := by
  unfold revokeUserSessions
  generalize hhashes : hashesWhere (fun h r => r.userId = userId && some h ≠ keepHash) st.sessions = hashes
  dsimp only
  split_ifs with hempty
  · refine .single ⟨.silent, ?_⟩
    simp only [revokeUserSessionsStep, removeStep, hhashes, hempty, if_true]
  · have hstart : revokeUserSessionsStep st userId keepHash .silent .start =
        some (st, .deletingRows hashes) := by
      simp only [revokeUserSessionsStep, removeStep, hhashes, hempty, if_false, Bool.false_eq_true]
    have hrows : revokeUserSessionsStep st userId keepHash (.deleted failed) (.deletingRows hashes) =
        some (st.deleteRows hashes failed, .removing hashes) := rfl
    exact .head ⟨_, hstart⟩ (.head ⟨_, hrows⟩ (.single ⟨.silent, rfl⟩))

/-- Users and keys. -/
def Stores.accounts (s : Stores) : Accounts.Store :=
  ⟨s.keys.keys, s.keys.table.rows, s.users, s.usernames, s.userRows⟩

/-- A call of `delete_user` gets from one point to the other while no other call moves. -/
def DeleteSteps (cfg : Config) (id : String) : (x y : Accounts.Store × DeleteUserPc) → Prop :=
  Relation.ReflTransGen fun x y => ∃ a, deleteUserStep cfg x.1 a id x.2 = some y

theorem DeleteSteps.step {id : String} {t u : Accounts.Store} {c d : DeleteUserPc}
    {z : Accounts.Store × DeleteUserPc} (a : Accounts.Answer) (h : deleteUserStep cfg t a id c = some (u, d))
    (hrest : DeleteSteps cfg id (u, d) z) : DeleteSteps cfg id (t, c) z :=
  Relation.ReflTransGen.head ⟨a, h⟩ hrest

/-- A call of `disable_keys_for_owner` that is over makes no step. -/
theorem eq_of_isOver {id : String} {t : Keys.Store} {rows : HashMap String Cache.KeyRecord} {pc : DisablePc}
    {z : Keys.Store × HashMap String Cache.KeyRecord × Keys.Call} (hover : isOver pc = true)
    (h : StepsTo cfg (t, rows, .disableKeysForOwner id pc) z) : z = (t, rows, .disableKeysForOwner id pc) := by
  rcases Relation.ReflTransGen.cases_head h with he | ⟨w, ⟨a, hcall, -⟩, -⟩
  · exact he.symm
  · obtain ⟨p, hp, -⟩ := Option.map_eq_some_iff.mp hcall
    cases pc with
    | failed | done => cases hp
    | start | updatingRows | marking | bumping | invalidating => cases hover

theorem sweep_steps {id : String} {x y : Keys.Store × HashMap String Cache.KeyRecord × Keys.Call}
    (h : StepsTo cfg x y) (users : HashMap String UserRecord) (usernames : HashMap String String)
    (userRows : HashMap String UserRecord) :
    ∀ pc pc', x.2.2 = .disableKeysForOwner id pc → y.2.2 = .disableKeysForOwner id pc' → isOver pc = false →
      isOver pc' = true → DeleteSteps cfg id (⟨x.1, x.2.1, users, usernames, userRows⟩, .sweeping pc)
        (⟨y.1, y.2.1, users, usernames, userRows⟩, .deletingRow) := by
  induction h using Relation.ReflTransGen.head_induction_on with
  | refl =>
    intro pc pc' hx hy hpc hpc'
    rw [hx] at hy
    cases hy
    rw [hpc] at hpc'
    cases hpc'
  | @head x w hstep hrest ih =>
    intro pc pc' hx hy hpc hpc'
    obtain ⟨a, hcall, hrows⟩ := hstep
    obtain ⟨t, rows, c⟩ := x
    obtain ⟨u, rows', d⟩ := w
    dsimp only at hcall hrows hx
    subst hx hrows
    obtain ⟨⟨u', pc1⟩, hdisable, he⟩ := Option.map_eq_some_iff.mp hcall
    cases he
    have hsweep : deleteUserStep cfg ⟨t, rows, users, usernames, userRows⟩ (.key a) id (.sweeping pc) =
        some (⟨u', rowsAfter cfg rows a (.disableKeysForOwner id pc), users, usernames, userRows⟩,
          if isOver pc1 then .deletingRow else .sweeping pc1) := by
      simp only [deleteUserStep, sweepStep, hdisable, Option.map_some]
    refine .step _ hsweep ?_
    split_ifs with hover
    · rw [eq_of_isOver hover hrest]
      exact .refl
    · exact ih pc1 pc' rfl hy (by simpa using hover) hpc'

theorem isOver_disabledPc (result : Except String ℕ) : isOver (disabledPc result) = true := by
  cases result <;> rfl

theorem deleteChecked_steps (s : Stores) (id : String) (f : Faults) :
    DeleteSteps cfg id (s.accounts, .sweeping .start)
      ((deleteChecked s id f).1.accounts, .done (deleteChecked s id f).2) := by
  have hkeys : StepsTo cfg _ _ := disable_steps s.keys id f.keys
  have hsweep := sweep_steps hkeys s.users s.usernames s.userRows .start _ rfl rfl rfl (isOver_disabledPc _)
  refine Relation.ReflTransGen.trans hsweep ?_
  unfold deleteChecked
  cases f.user with
  | some e => exact DeleteSteps.step (.failed e) rfl .refl
  | none =>
    exact DeleteSteps.step (.written "" "" 0) rfl (DeleteSteps.step .silent rfl (DeleteSteps.step .silent rfl .refl))

theorem deleteUser_steps (s : Stores) (id : String) (f : Faults) :
    DeleteSteps cfg id (s.accounts, .start)
      ((deleteUser s id f).1.accounts, .done (deleteUser s id f).2) := by
  have hchecked : DeleteSteps cfg id (s.accounts, .sweeping .start) _ := deleteChecked_steps s id f
  unfold deleteUser deleteUserCheck
  have hstart : deleteUserStep cfg s.accounts .silent id .start =
      match s.users.lookup id with
      | none => some (s.accounts, .done (.error .notFound))
      | some current => some (s.accounts, if current.role = .superAdmin then .checking else .sweeping .start) :=
    rfl
  have hcheck : deleteUserStep cfg s.accounts .silent id .checking =
      match ensureNotLastSuper s.users id with
      | .error e => some (s.accounts, .done (.error e))
      | .ok () => some (s.accounts, .sweeping .start) := rfl
  cases hu : s.users.lookup id with
  | none =>
    rw [hu] at hstart
    exact .step _ hstart .refl
  | some current =>
    rw [hu] at hstart
    dsimp only at hstart ⊢
    refine .step _ hstart ?_
    split_ifs with hrole
    · cases he : ensureNotLastSuper s.users id with
      | error e =>
        rw [he] at hcheck
        exact .step _ hcheck .refl
      | ok u =>
        rw [he] at hcheck
        exact .step _ hcheck hchecked
    · exact hchecked

end steps

/-! ### All or nothing -/

/-- Users, names, sessions and keys are the same, in memory and in the tables. -/
structure Unchanged (s s' : Stores) : Prop where
  users : ∀ k, s'.users.lookup k = s.users.lookup k
  usernames : ∀ k, s'.usernames.lookup k = s.usernames.lookup k
  userRows : ∀ k, s'.userRows.lookup k = s.userRows.lookup k
  sessions : ∀ k, s'.sessions.sessions.lookup k = s.sessions.sessions.lookup k
  sessionRows : ∀ k, s'.sessions.rows.lookup k = s.sessions.rows.lookup k
  keys : ∀ k, s'.keys.keys.runtime.lookup k = s.keys.keys.runtime.lookup k
  keyRows : ∀ k, s'.keys.table.rows.lookup k = s.keys.table.rows.lookup k

theorem Unchanged.refl (s : Stores) : Unchanged s s :=
  ⟨fun _ => rfl, fun _ => rfl, fun _ => rfl, fun _ => rfl, fun _ => rfl, fun _ => rfl, fun _ => rfl⟩

/-- A call of `delete_user` that returns an error has changed nothing. -/
def AllOrNothing (s : Stores) (id : String) (f : Faults) : Prop :=
  ∀ e, (deleteUser s id f).2 = .error e → Unchanged s (deleteUser s id f).1

/-- The user has a session in memory. -/
def HasSession (s : Stores) (id : String) : Prop :=
  ∃ h r, s.sessions.sessions.lookup h = some r ∧ r.userId = id

/-- The user has a key in memory that is enabled. -/
def HasKey (s : Stores) (id : String) : Prop :=
  ∃ k r, s.keys.keys.runtime.lookup k = some r ∧ r.ownerUserId = some id ∧ r.enabled = true

section allOrNothing

variable {s : Stores} {id : String} {f : Faults}

theorem revokeUserSessions_eq {st : Sessions.Store} (h : ∀ k r, st.sessions.lookup k = some r → r.userId ≠ id)
    (failed : List String) : (revokeUserSessions st id none failed).1 = st := by
  have hnil : hashesWhere (fun h r => r.userId = id && some h ≠ none) st.sessions = [] := by
    refine List.eq_nil_iff_forall_not_mem.mpr fun k hk => ?_
    obtain ⟨r, hr, hp⟩ := mem_hashesWhere.mp hk
    simp only [Bool.and_eq_true, decide_eq_true_eq] at hp
    exact h k r hr hp.1
  unfold revokeUserSessions
  rw [hnil]
  rfl

theorem lookup_revoked {st : Sessions.Store} {k : String} {r : Sessions.SessionRecord}
    (hr : st.sessions.lookup k = some r) (hu : r.userId = id) (failed : List String) :
    (revokeUserSessions st id none failed).1.sessions.lookup k = none := by
  have hmem : k ∈ hashesWhere (fun h r => r.userId = id && some h ≠ none) st.sessions := by
    refine mem_hashesWhere.mpr ⟨r, hr, ?_⟩
    simp [hu]
  unfold revokeUserSessions
  dsimp only
  split_ifs with hempty
  · rw [List.isEmpty_iff.mp hempty] at hmem
    cases hmem
  · show (retain _ st.sessions).lookup k = none
    rw [lookup_retain, hr, Option.filter_some, if_neg]
    simpa using hmem

theorem disableKeysForOwner_eq {t : KeyStore}
    (h : ∀ k r, t.keys.runtime.lookup k = some r → r.ownerUserId = some id → r.enabled = false)
    (fault : Option String) : (disableKeysForOwner t id fault).1 = t := by
  have hnil : ((values t.keys.runtime).filter fun r => ownedBy id r && r.enabled).map (·.id) = [] := by
    refine List.map_eq_nil_iff.mpr (List.filter_eq_nil_iff.mpr fun r hr hp => ?_)
    obtain ⟨k, hk⟩ := (mem_values _ _).mp hr
    obtain ⟨hown, hen⟩ := Bool.and_eq_true_iff.mp hp
    rw [h k r hk (of_decide_eq_true hown)] at hen
    cases hen
  unfold disableKeysForOwner
  dsimp only
  rw [if_pos hnil]

/-- A transaction that fails leaves the keys as they are. -/
theorem disableKeysForOwner_failed (t : KeyStore) (e : String) :
    (disableKeysForOwner t id (some e)).1 = t := by
  unfold disableKeysForOwner
  dsimp only
  split_ifs <;> rfl

theorem lookup_disabled {t : KeyStore} {k : String} {r : Cache.KeyRecord}
    (hr : t.keys.runtime.lookup k = some r) (hown : r.ownerUserId = some id) (hen : r.enabled = true) :
    (disableKeysForOwner t id none).1.keys.runtime.lookup k = some { r with enabled := false } := by
  have howned : ownedBy id r = true := decide_eq_true hown
  have hmem : r.id ∈ ((values t.keys.runtime).filter fun r => ownedBy id r && r.enabled).map (·.id) := by
    refine List.mem_map.mpr ⟨r, List.mem_filter.mpr ⟨(mem_values _ _).mpr ⟨k, hr⟩, ?_⟩, rfl⟩
    rw [howned, hen]
    rfl
  unfold disableKeysForOwner
  dsimp only
  split_ifs with hnil
  · rw [hnil] at hmem
    cases hmem
  · show (mapVal _ t.keys.runtime).lookup k = _
    rw [lookup_mapVal, hr, Option.map_some, if_pos howned]

/-- When the row of the user cannot be deleted, sessions and keys are what the call may have changed. -/
theorem unchanged_iff {e : String} (hf : f.user = some e) : Unchanged s (deleteChecked s id f).1 ↔
    ¬ HasSession s id ∧ (f.keys.isSome ∨ ¬ HasKey s id) := by
  have hchecked : (deleteChecked s id f).1 =
      { s with
        sessions := (revokeUserSessions s.sessions id none f.sessionRows).1
        keys := (disableKeysForOwner s.keys id f.keys).1 } := by
    unfold deleteChecked
    rw [hf]
  rw [hchecked]
  constructor
  · intro h
    constructor
    · rintro ⟨k, r, hr, hu⟩
      have hsame := h.sessions k
      rw [lookup_revoked hr hu, hr] at hsame
      cases hsame
    · cases hkeys : f.keys with
      | some e => exact Or.inl rfl
      | none =>
        right
        rintro ⟨k, r, hr, hown, hen⟩
        have hsame := h.keys k
        rw [hkeys, lookup_disabled hr hown hen, hr, Option.some_inj] at hsame
        rw [← hsame] at hen
        cases hen
  · rintro ⟨hsession, hkey⟩
    have hsessions : (revokeUserSessions s.sessions id none f.sessionRows).1 = s.sessions :=
      revokeUserSessions_eq (fun k r hr hu => hsession ⟨k, r, hr, hu⟩) f.sessionRows
    have hkeys : (disableKeysForOwner s.keys id f.keys).1 = s.keys := by
      cases hfault : f.keys with
      | some e => exact disableKeysForOwner_failed s.keys e
      | none =>
        rw [hfault] at hkey
        refine disableKeysForOwner_eq (fun k r hr hown => ?_) none
        by_contra hen
        exact hkey.resolve_left Bool.false_ne_true ⟨k, r, hr, hown, by simpa using hen⟩
    rw [hsessions, hkeys]
    exact .refl s

end allOrNothing

/-- **All or nothing.** It holds exactly if the row of the user can be deleted, or the checks refuse the
deletion, or there is nothing to take back: no session of the user, and no enabled key or a transaction on the
keys that fails as well. -/
theorem allOrNothing_iff (s : Stores) (id : String) (f : Faults) : AllOrNothing s id f ↔
    f.user = none ∨ (∃ e, deleteUserCheck s.users id = .error e) ∨
      ¬ HasSession s id ∧ (f.keys.isSome ∨ ¬ HasKey s id) := by
  unfold AllOrNothing deleteUser
  cases hcheck : deleteUserCheck s.users id with
  | error e => exact iff_of_true (fun _ _ => .refl s) (Or.inr (Or.inl ⟨e, rfl⟩))
  | ok u =>
    dsimp only
    cases hf : f.user with
    | none =>
      refine iff_of_true (fun e he => ?_) (Or.inl rfl)
      simp only [deleteChecked, hf] at he
      cases he
    | some e =>
      rw [← unchanged_iff hf]
      constructor
      · intro h
        refine Or.inr (Or.inr (h (.database e) ?_))
        simp only [deleteChecked, hf]
      · rintro (h | ⟨e', h⟩ | h)
        · cases h
        · cases h
        · exact fun _ _ => h

/-- The gateway runs for the user alice, who has a session and a key. -/
def aliceStores : Stores where
  keys := .load (KeyTable.empty.insert
    ⟨"key-1", "$argon2id$", "lookup-1", "laptop", 0, true, 0, "default", some "u1"⟩ rfl)
  users := AList.insert "u1" ⟨"u1", some "default", "alice", "$argon2id$", .user, true, 0, 0, 0, none⟩ ∅
  usernames := AList.insert "alice" "u1" ∅
  userRows := AList.insert "u1" ⟨"u1", some "default", "alice", "$argon2id$", .user, true, 0, 0, 0, none⟩ ∅
  sessions :=
    { sessions := AList.insert "hash-1" ⟨"s1", "u1", "hash-1", 0, 86400⟩ ∅
      rows := AList.insert "hash-1" ⟨"s1", "u1", "hash-1", 0, 86400⟩ ∅ }

/-- The last statement fails: the session is gone and the key disabled. -/
theorem not_all_or_nothing :
    ¬ ∀ s id f e, (deleteUser s id f).2 = .error e → Unchanged s (deleteUser s id f).1 := by
  intro h
  have hsame := (h aliceStores "u1" ⟨[], none, some "disk I/O error"⟩ _ rfl).sessions "hash-1"
  exact absurd hsame (by decide)

end HomeLlmGateway.Storage.UserDeletion
