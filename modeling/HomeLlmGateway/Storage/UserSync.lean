import HomeLlmGateway.Storage.Accounts

/-! # Users in memory and in the table

If no two calls on one user overlap, memory and table agree on every user that no call is writing
(`Synced`), whatever statements fail and whenever the process restarts; and a call that has read a user
still has what memory has when it writes. -/

namespace HomeLlmGateway.Storage.UserSync

open HomeLlmGateway.Lib.Assoc HomeLlmGateway.Lib.Holding
open HomeLlmGateway.Storage.Keys (Config DisablePc)
open HomeLlmGateway.Storage.Users HomeLlmGateway.Storage.Accounts

/-! ### How far a call is -/

/-- What a call has written of the user it holds. -/
inductive Stage where
  | before
  | rowWritten
  /-- the row, and the index of usernames -/
  | indexed
  /-- memory too -/
  | published
  deriving DecidableEq

def stage : Call → Stage
  | .createUser _ _ _ _ _ (.indexing _) => .rowWritten
  | .createUser _ _ _ _ _ (.publishing _) => .indexed
  | .updateUser _ _ (.reindexing _ _) => .rowWritten
  | .updateUser _ _ (.publishing _ _) => .indexed
  | .updateUser _ _ (.sweeping _ _) => .published
  | .deleteUser _ .unindexing => .rowWritten
  | .deleteUser _ .removing => .indexed
  | .setUserPassword _ _ (.writing _ _) => .indexed
  | _ => .before

/-- What a call that has begun to write makes of its user. -/
def target : Call → Option UserRecord
  | .createUser _ _ _ _ _ (.indexing r) | .createUser _ _ _ _ _ (.publishing r) => some r
  | .updateUser _ _ (.reindexing _ r) | .updateUser _ _ (.publishing _ r)
  | .updateUser _ _ (.sweeping r _) => some r
  | .setUserPassword _ _ (.writing current hash) => some { current with passwordHash := hash }
  | _ => none

/-- What a call has read of its user and goes on to write. -/
def snapshot : Call → Option UserRecord
  | .updateUser _ _ (.checking r _ _) | .updateUser _ _ (.updatingRow r _)
  | .updateUser _ _ (.reindexing r _) | .updateUser _ _ (.publishing r _) => some r
  | .setUserPassword _ _ (.updatingRow r) | .setUserPassword _ _ (.writing r _) => some r
  | _ => none

/-- How far a call is in disabling the keys of the user it holds. -/
inductive Sweep where
  | none
  | amid (pc : DisablePc)
  | past
  deriving DecidableEq

def sweep : Call → Sweep
  | .updateUser _ _ (.sweeping _ pc) => .amid pc
  | .deleteUser _ (.sweeping pc) => .amid pc
  | .deleteUser _ .deletingRow | .deleteUser _ .unindexing | .deleteUser _ .removing => .past
  | .key (.disableKeysForOwner _ pc) => .amid pc
  | _ => .none

/-- The patch that a call applies. -/
def patchOf : Call → Option UserPatch
  | .updateUser _ patch _ => some patch
  | _ => none

/-- A call of `create_user`. -/
def isCreate : Call → Bool
  | .createUser .. => true
  | _ => false

/-- The call on the key store, if it is one. -/
def keyCall : Call → Option Keys.Call
  | .key c => some c
  | _ => none

/-! ### What a step of a call can do -/

/-- What a step of a call does to the store. -/
inductive Move (cfg : Config) (s : State) (a : Answer) : Call → Store → Call → Prop
  /-- it reads or checks something -/
  | wait (c c' : Call) (hheld : held c' = held c) (hb : stage c = .before) (hb' : stage c' = .before)
      (hk : keyCall c = none) (hk' : keyCall c' = none) (hpatch : patchOf c' = patchOf c)
      (hsweep : sweep c' = .none ∨ sweep c' = .amid .start)
      (hs : ∀ r, snapshot c' = some r → snapshot c = some r ∨
        (snapshot c = none ∧ ∃ u, held c = some u ∧ s.store.users.lookup u = some r)) :
      Move cfg s a c s.store c'
  /-- it returns an error -/
  | leave (c c' : Call) (hheld : held c' = none) (hb : stage c = .before) (hb' : stage c' = .before)
      (hk : keyCall c = none) (hk' : keyCall c' = none) :
      Move cfg s a c s.store c'
  | insertRow (u p : String) (role : UserRole) (t b : Option String) (name : String) (r : UserRecord)
      (hname : r.username = name) (hfree : taken s.store.userRows r.id r.username = false)
      (hfresh : freshUser s r.id = true) (hen : r.enabled = true) :
      Move cfg s a (.createUser u p role t b (.inserting name)) (s.store.write (.insertRow r))
        (.createUser u p role t b (.indexing r))
  | index (u p : String) (role : UserRole) (t b : Option String) (r : UserRecord) :
      Move cfg s a (.createUser u p role t b (.indexing r)) (s.store.write (.index r.username r.id))
        (.createUser u p role t b (.publishing r))
  | created (u p : String) (role : UserRole) (t b : Option String) (r : UserRecord) :
      Move cfg s a (.createUser u p role t b (.publishing r)) (s.store.write (.publish r.id r))
        (.createUser u p role t b (.done (.ok r)))
  | updateRow (id : String) (patch : UserPatch) (current : UserRecord) (name hash : String) (now : ℕ)
      (hfree : (s.store.userRows.lookup id).isSome → taken s.store.userRows id name = false) :
      Move cfg s a (.updateUser id patch (.updatingRow current name))
        (s.store.write (.changeRow id (updateColumns (updatedRecord current patch name hash now))))
        (.updateUser id patch (.reindexing current (updatedRecord current patch name hash now)))
  | reindex (id : String) (patch : UserPatch) (current r : UserRecord) :
      Move cfg s a (.updateUser id patch (.reindexing current r)) (s.store.write (.reindex r.username id))
        (.updateUser id patch (.publishing current r))
  | publish (id : String) (patch : UserPatch) (current r : UserRecord) (pc : UpdateUserPc)
      (hpc : pc = if r.enabled then .done (.ok r) else .sweeping r .start) :
      Move cfg s a (.updateUser id patch (.publishing current r)) (s.store.write (.publish id r))
        (.updateUser id patch pc)
  | sweepUpdate (id : String) (patch : UserPatch) (r : UserRecord) (b : Keys.Answer) (hb : a = .key b)
      (pc pc' : DisablePc) (st' : Store) (h : sweepStep cfg s.store id b pc = some (st', pc')) (q : UpdateUserPc)
      (hq : q = if isOver pc' then .done (.ok r) else .sweeping r pc') :
      Move cfg s a (.updateUser id patch (.sweeping r pc)) st' (.updateUser id patch q)
  | sweepDelete (id : String) (b : Keys.Answer) (hb : a = .key b) (pc pc' : DisablePc) (st' : Store)
      (h : sweepStep cfg s.store id b pc = some (st', pc')) (q : DeleteUserPc)
      (hq : q = if isOver pc' then .deletingRow else .sweeping pc') :
      Move cfg s a (.deleteUser id (.sweeping pc)) st' (.deleteUser id q)
  | deleteRow (id : String) :
      Move cfg s a (.deleteUser id .deletingRow) (s.store.write (.deleteRow id)) (.deleteUser id .unindexing)
  | unindex (id : String) :
      Move cfg s a (.deleteUser id .unindexing) (s.store.write (.unindex id)) (.deleteUser id .removing)
  | remove (id : String) :
      Move cfg s a (.deleteUser id .removing) (s.store.write (.remove id)) (.deleteUser id (.done (.ok ())))
  | passwordRow (id p : String) (current : UserRecord) (hash : String) (now : ℕ) :
      Move cfg s a (.setUserPassword id p (.updatingRow current))
        (s.store.write (.changeRow id fun row => { row with passwordHash := hash, updatedAt := now }))
        (.setUserPassword id p (.writing current hash))
  | password (id p : String) (current : UserRecord) (hash : String) (now : ℕ) :
      Move cfg s a (.setUserPassword id p (.writing current hash))
        (s.store.write (.changeUser id fun _ => { current with passwordHash := hash, updatedAt := now }))
        (.setUserPassword id p (.done (.ok ())))
  | loginRow (id : String) (now : ℕ) :
      Move cfg s a (.recordLogin id (.updatingRow now))
        (s.store.write (.changeRow id fun row => { row with lastLoginAt := now, updatedAt := now }))
        (.recordLogin id (.touching now))
  | login (id : String) (now : ℕ) :
      Move cfg s a (.recordLogin id (.touching now))
        (s.store.write (.changeUser id fun u => { u with updatedAt := now, lastLoginAt := now }))
        (.recordLogin id .done)
  | key (b : Keys.Answer) (hb : a = .key b) (c c' : Keys.Call) (keys : Keys.Store)
      (hposs : possible cfg s (.key c) (.key b) = true)
      (h : Keys.callStep cfg s.store.keys b c = some (keys, c')) :
      Move cfg s a (.key c)
        { s.store with keys := keys, keyRows := Keys.rowsAfter cfg s.store.keyRows b c } (.key c')

section moves

variable {cfg : Config} {s : State} {st' : Store} {a : Answer}

theorem move_createUser {u p : String} {role : UserRole} {t b : Option String} {pc pc' : CreateUserPc}
    (hposs : possible cfg s (.createUser u p role t b pc) a = true)
    (h : createUserStep s.store a u p role t b pc = some (st', pc')) :
    Move cfg s a (.createUser u p role t b pc) st' (.createUser u p role t b pc') := by
  cases pc with
  | start =>
    simp only [createUserStep] at h
    split at h
    · obtain ⟨rfl, rfl⟩ := Prod.mk.inj (Option.some.inj h)
      unfold CreateUserPc.after
      split
      · exact .wait _ _ rfl rfl rfl rfl rfl rfl (by simp [sweep]) (by simp [snapshot])
      · exact .leave _ _ rfl rfl rfl rfl rfl
    · cases h
  | checking name =>
    simp only [createUserStep] at h
    split_ifs at h <;> cases h
    · exact .leave _ _ rfl rfl rfl rfl rfl
    · exact .wait _ _ rfl rfl rfl rfl rfl rfl (by simp [sweep]) (by simp [snapshot])
  | inserting name =>
    simp only [createUserStep] at h
    split at h
    · split_ifs at h with htaken <;> cases h
      · exact .leave _ _ rfl rfl rfl rfl rfl
      · exact .insertRow u p role t b name _ rfl (by simpa using htaken) hposs rfl
    · cases h
      exact .leave _ _ rfl rfl rfl rfl rfl
    · cases h
  | indexing r =>
    cases h
    exact .index u p role t b r
  | publishing r =>
    cases h
    exact .created u p role t b r
  | done r => cases h

theorem move_updateUser {id : String} {patch : UserPatch} {pc pc' : UpdateUserPc}
    (h : updateUserStep cfg s.store a id patch pc = some (st', pc')) :
    Move cfg s a (.updateUser id patch pc) st' (.updateUser id patch pc') := by
  cases pc with
  | start =>
    simp only [updateUserStep] at h
    split at h
    · cases h
      exact .leave _ _ rfl rfl rfl rfl rfl
    · next current hcur =>
      split at h <;> cases h
      · exact .leave _ _ rfl rfl rfl rfl rfl
      · refine .wait _ _ rfl rfl rfl rfl rfl rfl (by simp [sweep]) fun r hr => Or.inr ⟨rfl, id, rfl, ?_⟩
        cases hr
        exact hcur
  | checking current name checks =>
    cases checks with
    | nil =>
      cases h
      exact .wait _ _ rfl rfl rfl rfl rfl rfl (by simp [sweep]) fun r hr => Or.inl hr
    | cons check checks =>
      obtain ⟨r, -, hr⟩ := Option.map_eq_some_iff.mp h
      cases r with
      | error e =>
        cases hr
        exact .leave _ _ rfl rfl rfl rfl rfl
      | ok _ =>
        cases hr
        exact .wait _ _ rfl rfl rfl rfl rfl rfl (by simp [sweep]) fun r hr => Or.inl hr
  | updatingRow current name =>
    simp only [updateUserStep] at h
    split at h
    · split_ifs at h with htaken <;> cases h
      · exact .leave _ _ rfl rfl rfl rfl rfl
      · refine .updateRow id patch current name _ _ fun hrow => ?_
        simpa [hrow] using htaken
    · cases h
      exact .leave _ _ rfl rfl rfl rfl rfl
    · cases h
  | reindexing current r =>
    cases h
    exact .reindex id patch current r
  | publishing current r =>
    cases h
    exact .publish id patch current r _ rfl
  | sweeping r pc =>
    simp only [updateUserStep] at h
    split at h
    · obtain ⟨⟨st1, pc1⟩, h1, he⟩ := Option.map_eq_some_iff.mp h
      cases he
      exact .sweepUpdate id patch r _ rfl pc pc1 _ h1 _ rfl
    · cases h
  | done r => cases h

theorem move_deleteUser {id : String} {pc pc' : DeleteUserPc}
    (h : deleteUserStep cfg s.store a id pc = some (st', pc')) :
    Move cfg s a (.deleteUser id pc) st' (.deleteUser id pc') := by
  cases pc with
  | start =>
    simp only [deleteUserStep] at h
    split at h
    · cases h
      exact .leave _ _ rfl rfl rfl rfl rfl
    · cases h
      split_ifs
      · exact .wait _ _ rfl rfl rfl rfl rfl rfl (by simp [sweep]) (by simp [snapshot])
      · exact .wait _ _ rfl rfl rfl rfl rfl rfl (by simp [sweep]) (by simp [snapshot])
  | checking =>
    simp only [deleteUserStep] at h
    split at h <;> cases h
    · exact .leave _ _ rfl rfl rfl rfl rfl
    · exact .wait _ _ rfl rfl rfl rfl rfl rfl (by simp [sweep]) (by simp [snapshot])
  | sweeping pc =>
    simp only [deleteUserStep] at h
    split at h
    · obtain ⟨⟨st1, pc1⟩, h1, he⟩ := Option.map_eq_some_iff.mp h
      cases he
      exact .sweepDelete id _ rfl pc pc1 _ h1 _ rfl
    · cases h
  | deletingRow =>
    simp only [deleteUserStep] at h
    split at h
    · cases h
      exact .deleteRow id
    · cases h
      exact .leave _ _ rfl rfl rfl rfl rfl
    · cases h
  | unindexing =>
    cases h
    exact .unindex id
  | removing =>
    cases h
    exact .remove id
  | done r => cases h

theorem move_setPassword {id p : String} {pc pc' : SetPasswordPc}
    (h : setPasswordStep s.store a id p pc = some (st', pc')) :
    Move cfg s a (.setUserPassword id p pc) st' (.setUserPassword id p pc') := by
  cases pc with
  | start =>
    simp only [setPasswordStep] at h
    split at h
    · cases h
      exact .leave _ _ rfl rfl rfl rfl rfl
    · cases h
      exact .leave _ _ rfl rfl rfl rfl rfl
    · next current hv hcur =>
      cases h
      refine .wait _ _ rfl rfl rfl rfl rfl rfl (by simp [sweep]) fun r hr => Or.inr ⟨rfl, id, rfl, ?_⟩
      cases hr
      exact hcur
  | updatingRow current =>
    simp only [setPasswordStep] at h
    split at h
    · cases h
      exact .passwordRow id p current _ _
    · cases h
      exact .leave _ _ rfl rfl rfl rfl rfl
    · cases h
  | writing current hash =>
    simp only [setPasswordStep] at h
    split at h
    · cases h
      exact .password id p current hash _
    · cases h
  | done r => cases h

theorem move_recordLogin {id : String} {pc pc' : RecordLoginPc}
    (h : recordLoginStep s.store a id pc = some (st', pc')) :
    Move cfg s a (.recordLogin id pc) st' (.recordLogin id pc') := by
  cases pc with
  | start =>
    simp only [recordLoginStep] at h
    split at h
    · cases h
      exact .wait _ _ rfl rfl rfl rfl rfl rfl (by simp [sweep]) (by simp [snapshot])
    · cases h
  | updatingRow now =>
    simp only [recordLoginStep] at h
    split at h
    · cases h
      exact .loginRow id now
    · cases h
      exact .wait _ _ rfl rfl rfl rfl rfl rfl (by simp [sweep]) (by simp [snapshot])
    · cases h
  | touching now =>
    cases h
    exact .login id now
  | done => cases h

/-- **One step of a call.** -/
theorem move_of_callStep {c c' : Call} (hposs : possible cfg s c a = true)
    (h : callStep cfg s.store a c = some (st', c')) :
    Move cfg s a c st' c' := by
  cases c with
  | createUser u p role t b pc =>
    obtain ⟨⟨st1, pc1⟩, h1, he⟩ := Option.map_eq_some_iff.mp h
    cases he
    exact move_createUser hposs h1
  | updateUser id patch pc =>
    obtain ⟨⟨st1, pc1⟩, h1, he⟩ := Option.map_eq_some_iff.mp h
    cases he
    exact move_updateUser h1
  | deleteUser id pc =>
    obtain ⟨⟨st1, pc1⟩, h1, he⟩ := Option.map_eq_some_iff.mp h
    cases he
    exact move_deleteUser h1
  | setUserPassword id p pc =>
    obtain ⟨⟨st1, pc1⟩, h1, he⟩ := Option.map_eq_some_iff.mp h
    cases he
    exact move_setPassword h1
  | recordLogin id pc =>
    obtain ⟨⟨st1, pc1⟩, h1, he⟩ := Option.map_eq_some_iff.mp h
    cases he
    exact move_recordLogin h1
  | key c =>
    simp only [callStep] at h
    split at h
    · obtain ⟨⟨st1, c1⟩, h1, he⟩ := Option.map_eq_some_iff.mp h
      cases he
      exact .key _ rfl c c1 _ hposs h1
    · cases h

/-- A call on the key store holds its owner until it returns. -/
theorem held_key {keys keys' : Keys.Store} {a : Keys.Answer} {c c' : Keys.Call}
    (h : Keys.callStep cfg keys a c = some (keys', c')) :
    held (.key c') = none ∨ held (.key c') = held (.key c) := by
  cases c with
  | authorizeRecord token pc =>
    obtain ⟨p, -, he⟩ := Option.map_eq_some_iff.mp h
    cases he
    exact Or.inl rfl
  | createIn tenantId owner name pc =>
    obtain ⟨⟨st1, pc'⟩, h1, he⟩ := Option.map_eq_some_iff.mp h
    cases he
    have hc : held (.key (.createIn tenantId owner name pc)) = owner := by
      cases pc with
      | failed e => cases h1
      | done r p => cases h1
      | start | inserting | bumping | publishing => rfl
    rw [hc]
    cases pc' with
    | failed | done => exact Or.inl rfl
    | start | inserting | bumping | publishing => exact Or.inr rfl
  | delete id pc =>
    obtain ⟨p, -, he⟩ := Option.map_eq_some_iff.mp h
    cases he
    exact Or.inl rfl
  | disableKeysForOwner owner pc =>
    obtain ⟨⟨st1, pc'⟩, h1, he⟩ := Option.map_eq_some_iff.mp h
    cases he
    have hc : isOver pc = false := by
      cases pc with
      | failed e => cases h1
      | done n => cases h1
      | start | updatingRows | marking | bumping | invalidating => rfl
    simp only [held, hc]
    cases isOver pc' with
    | true => exact Or.inl rfl
    | false => exact Or.inr rfl

theorem names_of_held {c : Call} {u : String} (h : held c = some u) : names c = some u := by
  cases c with
  | createUser n p role t b pc => cases pc <;> first | exact h | cases h
  | updateUser id patch pc => cases pc <;> first | exact h | cases h
  | deleteUser id pc => cases pc <;> first | exact h | cases h
  | setUserPassword id p pc => cases pc <;> first | exact h | cases h
  | recordLogin id pc => cases h
  | key c =>
    cases c with
    | authorizeRecord token pc => cases h
    | createIn tenantId owner name pc => cases pc <;> first | exact h | cases h
    | delete id pc => cases h
    | disableKeysForOwner owner pc =>
      simp only [held] at h
      split_ifs at h
      exact h

theorem not_isCreate_of_before {c : Call} {u : String} (h : stage c = .before) (hu : held c = some u) :
    isCreate c = false := by
  cases c with
  | createUser n p role t b pc => cases pc <;> cases hu <;> cases h
  | updateUser | deleteUser | setUserPassword | recordLogin | key => rfl

/-- What it means that the id of a user is new. -/
structure NewUser (s : State) (id : String) : Prop where
  user : s.store.users.lookup id = none
  row : s.store.userRows.lookup id = none
  keys : ∀ k r, s.store.keys.runtime.lookup k = some r → r.ownerUserId ≠ some id
  keyRows : ∀ k r, s.store.keyRows.lookup k = some r → r.ownerUserId ≠ some id
  unnamed : ∀ i c, s.calls.lookup i = some c → names c ≠ some id
  unlogged : ∀ ch ∈ s.log, ch.user ≠ id

theorem newUser_of_fresh {id : String} (h : freshUser s id = true) : NewUser s id := by
  simp only [freshUser, Bool.and_eq_true, Option.isNone_iff_eq_none, List.all_eq_true, decide_eq_true_eq] at h
  obtain ⟨⟨⟨⟨⟨huser, hrow⟩, hkeys⟩, hkeyRows⟩, hcalls⟩, hlog⟩ := h
  exact ⟨huser, hrow, fun k r hr => hkeys r ((mem_values _ _).mpr ⟨k, hr⟩),
    fun k r hr => hkeyRows r ((mem_values _ _).mpr ⟨k, hr⟩),
    fun i c hi => hcalls c ((mem_values _ _).mpr ⟨i, hi⟩), hlog⟩

theorem on_none_of_fresh {id : String} (h : freshUser s id = true) : On held s.calls id none :=
  fun i c hi hc => (newUser_of_fresh h).unnamed i c hi (names_of_held hc)

end moves

/-! ### What a step leaves alone -/

section frame

variable {cfg : Config} {s : State} {st' : Store} {i : ℕ} {a : Answer} {c c' : Call} {u : String}

theorem held_of_move (hm : Move cfg s a c st' c') (hu : held c = some u) :
    held c' = none ∨ held c' = some u := by
  cases hm with
  | wait _ _ hheld => exact Or.inr (hheld.trans hu)
  | leave _ _ hheld => exact Or.inl hheld
  | index | updateRow | reindex | deleteRow | unindex | passwordRow => exact Or.inr hu
  | created | remove | password => exact Or.inl rfl
  | publish id patch current r pc hpc =>
    rw [hpc]
    split_ifs
    · exact Or.inl rfl
    · exact Or.inr hu
  | sweepUpdate id patch r b hb pc pc' st' hsw q hq =>
    rw [hq]
    split_ifs
    · exact Or.inl rfl
    · exact Or.inr hu
  | sweepDelete id b hb pc pc' st' hsw q hq =>
    rw [hq]
    split_ifs
    · exact Or.inr hu
    · exact Or.inr hu
  | key b hb c c' keys hposs hc => exact (held_key hc).imp_right fun hk => hk.trans hu
  | insertRow | loginRow | login => cases hu

/-- What it takes hold of is a new user, whose row it has written. -/
theorem insertRow_of_move (hm : Move cfg s a c st' c') (hu : held c ≠ some u) (hu' : held c' = some u) :
    ∃ n p role t b name r, c = .createUser n p role t b (.inserting name) ∧
      c' = .createUser n p role t b (.indexing r) ∧ st' = s.store.write (.insertRow r) ∧ u = r.id ∧
      taken s.store.userRows r.id r.username = false ∧ freshUser s r.id = true := by
  cases hc : held c with
  | some v =>
    rcases held_of_move hm hc with hn | hv
    · rw [hn] at hu'
      cases hu'
    · rw [hv] at hu'
      exact absurd (hc.trans hu') hu
  | none =>
    cases hm with
    | insertRow n p role t b name r hname hfree hfresh =>
      exact ⟨n, p, role, t, b, name, r, rfl, rfl, rfl, (Option.some.inj hu').symm, hfree, hfresh⟩
    | wait _ _ hheld => exact absurd (hheld.symm.trans hu') hu
    | leave _ _ hheld =>
      rw [hheld] at hu'
      cases hu'
    | key b hb c c' keys hposs hk =>
      rcases held_key hk with hn | he
      · rw [hn] at hu'
        cases hu'
      · exact absurd (he.symm.trans hu') hu
    | loginRow | login => cases hu'
    | index | created | updateRow | reindex | publish | sweepUpdate | sweepDelete | deleteRow | unindex
    | remove | passwordRow | password => cases hc

/-- **A step changes no user that its call does not hold**, but for time stamps. -/
theorem users_frame (hm : Move cfg s a c st' c') (hu : held c ≠ some u) :
    (st'.users.lookup u).map UserRecord.core = (s.store.users.lookup u).map UserRecord.core := by
  cases hm with
  | created n p role t b r =>
    have hne : u ≠ r.id := fun he => hu (congrArg some he.symm)
    rw [lookup_publish, if_neg hne]
  | publish id patch current r pc hpc =>
    have hne : u ≠ id := fun he => hu (congrArg some he.symm)
    rw [lookup_publish, if_neg hne]
  | remove id =>
    have hne : u ≠ id := fun he => hu (congrArg some he.symm)
    rw [lookup_remove, if_neg hne]
  | password id p current hash now =>
    have hne : u ≠ id := fun he => hu (congrArg some he.symm)
    rw [lookup_changeUser, if_neg hne]
  | login id now =>
    exact map_lookup_modify UserRecord.core
      (f := fun u => { u with updatedAt := now, lastLoginAt := now }) (fun _ => rfl) id _ u
  | sweepUpdate id patch r b hb pc pc' st' hsw q hq =>
    rw [(users_of_sweepStep hsw).1]
  | sweepDelete id b hb pc pc' st' hsw q hq =>
    rw [(users_of_sweepStep hsw).1]
  | wait | leave | insertRow | index | updateRow | reindex | deleteRow | unindex | passwordRow | loginRow
  | key => rfl

theorem userRows_frame (hm : Move cfg s a c st' c') (hu : held c ≠ some u) (hu' : held c' ≠ some u) :
    (st'.userRows.lookup u).map UserRecord.core = (s.store.userRows.lookup u).map UserRecord.core := by
  cases hm with
  | insertRow n p role t b name r =>
    have hne : u ≠ r.id := fun he => hu' (congrArg some he.symm)
    rw [lookup_insertRow, if_neg hne]
  | updateRow id patch current name hash now =>
    have hne : u ≠ id := fun he => hu (congrArg some he.symm)
    rw [lookup_changeRow, if_neg hne]
  | deleteRow id =>
    have hne : u ≠ id := fun he => hu (congrArg some he.symm)
    rw [lookup_deleteRow, if_neg hne]
  | passwordRow id p current hash now =>
    have hne : u ≠ id := fun he => hu (congrArg some he.symm)
    rw [lookup_changeRow, if_neg hne]
  | loginRow id now =>
    exact map_lookup_modify UserRecord.core
      (f := fun row => { row with lastLoginAt := now, updatedAt := now }) (fun _ => rfl) id _ u
  | sweepUpdate id patch r b hb pc pc' st' hsw q hq =>
    rw [(users_of_sweepStep hsw).2.1]
  | sweepDelete id b hb pc pc' st' hsw q hq =>
    rw [(users_of_sweepStep hsw).2.1]
  | wait | leave | index | created | reindex | publish | unindex | remove | password | login | key => rfl

/-- **A step of a call**, for a property of each user and of the call that holds it: it has to be looked at
for the user that the call holds, and for a new one. -/
theorem forall_on_move {P P' : String → Option Call → Prop} (hex : Exclusive held s.calls)
    (hi : s.calls.lookup i = some c) (hm : Move cfg s a c st' c') (hP : ∀ v o, On held s.calls v o → P v o)
    (hframe : ∀ v o, held c ≠ some v → held c' ≠ some v → P v o → P' v o)
    (hown : ∀ u, held c = some u → held c' = some u → P u (some c) → P' u (some c'))
    (hleft : ∀ u, held c = some u → held c' = none → P u (some c) → P' u none)
    (hnew : ∀ n p role t b name r, c = .createUser n p role t b (.inserting name) →
      c' = .createUser n p role t b (.indexing r) → st' = s.store.write (.insertRow r) →
      freshUser s r.id = true → P r.id none → P' r.id (some c')) :
    ∀ v o, On held (s.calls.insert i c') v o → P' v o := by
  refine forall_on_insert hex hi (fun u hu => held_of_move hm hu) (fun u hu hu' => ?_) hP hframe hown hleft
    fun u hu hu' hp => ?_
  · obtain ⟨n, p, role, t, b, name, r, -, -, -, rfl, -, hfresh⟩ := insertRow_of_move hm (by simp [hu]) hu'
    exact on_none_of_fresh hfresh
  · obtain ⟨n, p, role, t, b, name, r, hc, hc', hst, rfl, -, hfresh⟩ :=
      insertRow_of_move hm (by simp [hu]) hu'
    exact hnew n p role t b name r hc hc' hst hfresh hp

end frame

/-! ### Memory and table -/

/-- Memory and table agree on the user, up to time stamps. -/
def Same (st : Store) (u : String) : Prop :=
  (st.userRows.lookup u).map UserRecord.core = (st.users.lookup u).map UserRecord.core

/-- What the call has read of the user is what memory has. -/
def Current (st : Store) (u : String) (c : Call) : Prop :=
  ∀ r, snapshot c = some r → (st.users.lookup u).map UserRecord.core = some r.core

/-- What is known of a user, and of the call that holds it. -/
def Sync (st : Store) (u : String) : Option Call → Prop
  | none => Same st u
  | some c =>
    match stage c with
    | .before => Same st u ∧ Current st u c
    | .rowWritten | .indexed =>
      (st.userRows.lookup u).map UserRecord.core = (target c).map UserRecord.core ∧ Current st u c
    | .published => Same st u ∧
      (st.userRows.lookup u).map UserRecord.core = (target c).map UserRecord.core

structure Synced (s : State) : Prop where
  exclusive : Exclusive held s.calls
  userIds : ∀ u r, s.store.users.lookup u = some r → r.id = u
  rowIds : ∀ u r, s.store.userRows.lookup u = some r → r.id = u
  sync : ∀ u o, On held s.calls u o → Sync s.store u o

/-- A call on a user begins when no call on that user is under way. -/
def Serial (s : State) : Label → Prop
  | .start _ request => ∀ u, held request.call = some u → On held s.calls u none
  | _ => True

instance (s : State) : ∀ l, Decidable (Serial s l)
  | .start _ request =>
    decidable_of_iff (∀ u ∈ held request.call, ∀ c ∈ values s.calls, held c ≠ some u) (by
      simp only [Serial, On, Option.mem_def, mem_values]
      exact ⟨fun h u hu i c hi => h u hu c ⟨i, hi⟩, fun h u hu c ⟨i, hi⟩ => h u hu i c hi⟩)
  | .step _ _ => isTrue trivial
  | .restart => isTrue trivial

section sync

variable {cfg : Config} {s s' : State} {st st' : Store} {i : ℕ} {a : Answer} {c c' : Call} {u : String}

theorem Sync.frame {o : Option Call} (h : Sync st u o)
    (hu : (st'.users.lookup u).map UserRecord.core = (st.users.lookup u).map UserRecord.core)
    (hr : (st'.userRows.lookup u).map UserRecord.core = (st.userRows.lookup u).map UserRecord.core) :
    Sync st' u o := by
  have hsame : Same st u → Same st' u := fun hs => by
    unfold Same at hs ⊢
    rw [hu, hr]
    exact hs
  cases o with
  | none => exact hsame h
  | some c =>
    have hcur : Current st u c → Current st' u c := fun hc r hs => hu.trans (hc r hs)
    unfold Sync at h ⊢
    cases hst : stage c <;> simp only [hst] at h ⊢
    · exact ⟨hsame h.1, hcur h.2⟩
    · exact ⟨hr.trans h.1, hcur h.2⟩
    · exact ⟨hr.trans h.1, hcur h.2⟩
    · exact ⟨hsame h.1, hr.trans h.2⟩

theorem sync_start (h : Sync st u none) (request : Request) : Sync st u (some request.call) := by
  have hstage : stage request.call = .before := by
    cases request with
    | key r => rfl
    | createUser | updateUser | deleteUser | setUserPassword | recordLogin => rfl
  have hsnap : snapshot request.call = none := by
    cases request with
    | key r => rfl
    | createUser | updateUser | deleteUser | setUserPassword | recordLogin => rfl
  simp only [Sync, hstage, Current, hsnap]
  exact ⟨h, by simp⟩

theorem synced_start (h : Synced s) {request : Request} (hfree : s.calls.lookup i = none)
    (hC : ∀ u, held request.call = some u → On held s.calls u none) :
    Synced { s with calls := s.calls.insert i request.call } := by
  refine ⟨h.exclusive.insert fun u hu => Or.inr (hC u hu), h.userIds, h.rowIds, ?_⟩
  have hnone : ∀ c, s.calls.lookup i = some c → held c = none := by
    intro c hc
    rw [hfree] at hc
    cases hc
  cases hu : held request.call with
  | none => exact forall_on_free hnone hu h.sync fun _ _ _ hs => hs
  | some u =>
    exact forall_on_take hnone (hC u hu) hu h.sync (fun _ _ _ _ hs => hs) fun hs => sync_start hs request

theorem core_updateColumns {q current : UserRecord} (h : q.core = current.core) {patch : UserPatch}
    {name hash : String} {now : ℕ} :
    (updateColumns (updatedRecord current patch name hash now) q).core =
      (updatedRecord current patch name hash now).core := by
  simp only [UserRecord.core, UserRecord.mk.injEq] at h
  simp [updateColumns, updatedRecord, UserRecord.core, h]

theorem core_passwordHash {q current : UserRecord} (h : q.core = current.core) {hash : String} {now : ℕ} :
    ({ q with passwordHash := hash, updatedAt := now } : UserRecord).core =
      ({ current with passwordHash := hash } : UserRecord).core := by
  simp only [UserRecord.core, UserRecord.mk.injEq] at h
  simp [UserRecord.core, h]

theorem map_of_core {β : Type*} {g : UserRecord → β} (hg : ∀ r, g r.core = g r) {o o' : Option UserRecord}
    (h : o.map UserRecord.core = o'.map UserRecord.core) : o.map g = o'.map g := by
  have hcore : ∀ o : Option UserRecord, (o.map UserRecord.core).map g = o.map g := by
    intro o
    rw [Option.map_map]
    exact congrArg (fun f => Option.map f o) (funext hg)
  rw [← hcore o, ← hcore o', h]

theorem map_core_eq_some {o : Option UserRecord} {r : UserRecord} (h : o.map UserRecord.core = some r.core) :
    ∃ q, o = some q ∧ q.core = r.core := Option.map_eq_some_iff.mp h

/-- **What a step of a call makes of the user that it holds.** -/
theorem Sync.move (h : Sync s.store u (some c)) (hm : Move cfg s a c st' c') (hu : held c = some u) :
    (held c' = some u → Sync st' u (some c')) ∧ (held c' = none → Sync st' u none) := by
  cases hm with
  | wait _ _ hheld hb hb' _ _ _ _ hs =>
    simp only [Sync, hb] at h
    refine ⟨fun _ => ?_, fun hn => ?_⟩
    · simp only [Sync, hb']
      refine ⟨h.1, fun r hr => ?_⟩
      rcases hs r hr with hr | ⟨-, v, hv, hr⟩
      · exact h.2 r hr
      · rw [hu] at hv
        cases hv
        rw [hr]
        rfl
    · rw [hheld, hu] at hn
      cases hn
  | leave _ _ hheld hb _ _ _ =>
    simp only [Sync, hb] at h
    refine ⟨fun hn => ?_, fun _ => h.1⟩
    rw [hheld] at hn
    cases hn
  | insertRow n p role t b name r => cases hu
  | index n p role t b r => exact ⟨fun _ => h, fun hn => (by cases hn)⟩
  | created n p role t b r =>
    cases hu
    refine ⟨fun hn => (by cases hn), fun _ => ?_⟩
    rw [Sync, Same, lookup_publish, if_pos rfl]
    exact h.1
  | updateRow id patch current name hash now =>
    cases hu
    simp only [Sync, stage] at h
    obtain ⟨q, hq, hqc⟩ := map_core_eq_some (h.1.trans (h.2 current rfl))
    refine ⟨fun _ => ⟨?_, h.2⟩, fun hn => (by cases hn)⟩
    rw [lookup_changeRow, if_pos rfl, hq]
    exact congrArg some (core_updateColumns hqc)
  | reindex id patch current r => exact ⟨fun _ => h, fun hn => (by cases hn)⟩
  | publish id patch current r pc hpc =>
    cases hu
    simp only [Sync, stage] at h
    have hsame : Same (s.store.write (.publish u r)) u := by
      rw [Same, lookup_publish, if_pos rfl]
      exact h.1
    refine ⟨fun hn => ?_, fun _ => hsame⟩
    rw [hpc] at hn ⊢
    split_ifs at hn ⊢
    · cases hn
    · exact ⟨hsame, h.1⟩
  | sweepUpdate id patch r b hb pc pc' st' hsw q hq =>
    obtain ⟨p, -, he⟩ := Option.map_eq_some_iff.mp hsw
    cases he
    refine ⟨fun hn => ?_, fun _ => h.1⟩
    rw [hq] at hn ⊢
    split_ifs at hn ⊢
    · cases hn
    · exact h
  | sweepDelete id b hb pc pc' st' hsw q hq =>
    obtain ⟨p, -, he⟩ := Option.map_eq_some_iff.mp hsw
    cases he
    refine ⟨fun _ => ?_, fun _ => h.1⟩
    rw [hq]
    split_ifs
    · exact h
    · exact h
  | deleteRow id =>
    cases hu
    refine ⟨fun _ => ⟨?_, h.2⟩, fun hn => (by cases hn)⟩
    rw [lookup_deleteRow, if_pos rfl]
    rfl
  | unindex id => exact ⟨fun _ => h, fun hn => (by cases hn)⟩
  | remove id =>
    cases hu
    refine ⟨fun hn => (by cases hn), fun _ => ?_⟩
    rw [Sync, Same, lookup_remove, if_pos rfl]
    exact h.1
  | passwordRow id p current hash now =>
    cases hu
    simp only [Sync, stage] at h
    obtain ⟨q, hq, hqc⟩ := map_core_eq_some (h.1.trans (h.2 current rfl))
    refine ⟨fun _ => ⟨?_, h.2⟩, fun hn => (by cases hn)⟩
    rw [lookup_changeRow, if_pos rfl, hq]
    exact congrArg some (core_passwordHash hqc)
  | password id p current hash now =>
    cases hu
    simp only [Sync, stage] at h
    obtain ⟨q, hq, hqc⟩ := map_core_eq_some (h.2 current rfl)
    refine ⟨fun hn => (by cases hn), fun _ => ?_⟩
    rw [Sync, Same, lookup_changeUser, if_pos rfl, hq]
    exact h.1
  | loginRow id now => cases hu
  | login id now => cases hu
  | key b hb c c' keys hposs hc => exact ⟨fun _ => ⟨h.1, by simp [Current, snapshot]⟩, fun _ => h.1⟩

theorem id_of_core {m m' : HashMap String UserRecord} (h : ∀ r, m.lookup u = some r → r.id = u)
    (hm : (m'.lookup u).map UserRecord.core = (m.lookup u).map UserRecord.core) :
    ∀ r, m'.lookup u = some r → r.id = u := by
  intro r hr
  rw [hr] at hm
  obtain ⟨q, hq, he⟩ := Option.map_eq_some_iff.mp hm.symm
  exact (UserRecord.eq_of_core he).1.symm.trans (h q hq)

/-- A user is in memory under its id. -/
theorem userIds_move (h : Synced s) (hi : s.calls.lookup i = some c) (hm : Move cfg s a c st' c') :
    ∀ r, st'.users.lookup u = some r → r.id = u := by
  by_cases hu : held c = some u
  · have hsync : Sync s.store u (some c) := h.sync u (some c) ⟨hu, i, hi⟩
    intro q hq
    cases hm with
    | created n p role t b r =>
      cases hu
      rw [lookup_publish, if_pos rfl] at hq
      cases hq
      rfl
    | publish id patch current r pc hpc =>
      cases hu
      simp only [Sync, stage] at hsync
      obtain ⟨row, hrow, hrc⟩ := map_core_eq_some hsync.1
      rw [lookup_publish, if_pos rfl] at hq
      cases hq
      exact (UserRecord.eq_of_core hrc).1.symm.trans (h.rowIds u row hrow)
    | remove id =>
      cases hu
      rw [lookup_remove, if_pos rfl] at hq
      cases hq
    | password id p current hash now =>
      cases hu
      obtain ⟨r, hr, hrc⟩ := map_core_eq_some (hsync.2 current rfl)
      rw [lookup_changeUser, if_pos rfl, hr] at hq
      cases hq
      exact (UserRecord.eq_of_core hrc).1.symm.trans (h.userIds u r hr)
    | login id now => cases hu
    | sweepUpdate id patch r b hb pc pc' st' hsw p hp =>
      rw [(users_of_sweepStep hsw).1] at hq
      exact h.userIds u q hq
    | sweepDelete id b hb pc pc' st' hsw p hp =>
      rw [(users_of_sweepStep hsw).1] at hq
      exact h.userIds u q hq
    | wait | leave | insertRow | index | updateRow | reindex | deleteRow | unindex | passwordRow | loginRow
    | key => exact h.userIds u q hq
  · exact id_of_core (h.userIds u) (users_frame hm hu)

theorem rowIds_move (h : Synced s) (hm : Move cfg s a c st' c') :
    ∀ r, st'.userRows.lookup u = some r → r.id = u := by
  by_cases hu : held c = some u
  · intro q hq
    cases hm with
    | updateRow id patch current name hash now =>
      cases hu
      rw [lookup_changeRow, if_pos rfl] at hq
      obtain ⟨row, hrow, rfl⟩ := Option.map_eq_some_iff.mp hq
      exact h.rowIds u row hrow
    | deleteRow id =>
      cases hu
      rw [lookup_deleteRow, if_pos rfl] at hq
      cases hq
    | passwordRow id p current hash now =>
      cases hu
      rw [lookup_changeRow, if_pos rfl] at hq
      obtain ⟨row, hrow, rfl⟩ := Option.map_eq_some_iff.mp hq
      exact h.rowIds u row hrow
    | insertRow | loginRow => cases hu
    | sweepUpdate id patch r b hb pc pc' st' hsw p hp =>
      rw [(users_of_sweepStep hsw).2.1] at hq
      exact h.rowIds u q hq
    | sweepDelete id b hb pc pc' st' hsw p hp =>
      rw [(users_of_sweepStep hsw).2.1] at hq
      exact h.rowIds u q hq
    | wait | leave | index | created | reindex | publish | unindex | remove | password | login
    | key => exact h.rowIds u q hq
  · by_cases hu' : held c' = some u
    · -- a new user
      intro q hq
      obtain ⟨n, p, role, t, b, name, r, -, -, rfl, rfl, -, -⟩ := insertRow_of_move hm hu hu'
      rw [lookup_insertRow, if_pos rfl] at hq
      cases hq
      rfl
    · exact id_of_core (h.rowIds u) (userRows_frame hm hu hu')

/-- **A step of a call** keeps memory and table together. -/
theorem synced_move (h : Synced s) (log : List Change) (hi : s.calls.lookup i = some c)
    (hm : Move cfg s a c st' c') : Synced ⟨st', s.calls.insert i c', log⟩ := by
  refine ⟨h.exclusive.insert fun u hu => ?_, fun _ => userIds_move h hi hm, fun _ => rowIds_move h hm, ?_⟩
  · by_cases hc : held c = some u
    · exact Or.inl ⟨c, hi, hc⟩
    · obtain ⟨n, p, role, t, b, name, r, -, -, -, rfl, -, hfresh⟩ := insertRow_of_move hm hc hu
      exact Or.inr (on_none_of_fresh hfresh)
  · refine forall_on_move h.exclusive hi hm h.sync
      (fun v o hv hv' hs => hs.frame (users_frame hm hv) (userRows_frame hm hv hv'))
      (fun u hu hu' hs => (hs.move hm hu).1 hu') (fun u hu hn hs => (hs.move hm hu).2 hn) ?_
    rintro n p role t b name r - rfl rfl - -
    refine ⟨?_, by simp [Current, snapshot]⟩
    rw [lookup_insertRow, if_pos rfl]
    rfl

theorem synced_restart (h : Synced s) : Synced ⟨s.store.reload, ∅, s.log⟩ := by
  exact ⟨exclusive_empty, h.rowIds, h.rowIds, forall_on_empty fun _ => rfl⟩

theorem step_cases {l : Label} (hs : step cfg s l = some s') :
    (∃ i request, l = .start i request ∧ s.calls.lookup i = none ∧
      s' = { s with calls := s.calls.insert i request.call }) ∨
    (∃ i a c st' c', l = .step i a ∧ s.calls.lookup i = some c ∧ Move cfg s a c st' c' ∧
      callStep cfg s.store a c = some (st', c') ∧
      s' = ⟨st', s.calls.insert i c', s.log ++ completed c c'⟩) ∨
    (l = .restart ∧ s' = ⟨s.store.reload, ∅, s.log⟩) := by
  cases l with
  | start i request =>
    simp only [step] at hs
    split at hs
    · next hi =>
      cases hs
      exact Or.inl ⟨i, request, rfl, hi, rfl⟩
    · cases hs
  | step i a =>
    obtain ⟨c, hi, hs⟩ := Option.bind_eq_some_iff.mp hs
    split_ifs at hs with hposs
    obtain ⟨⟨st', c'⟩, hc, rfl⟩ := Option.map_eq_some_iff.mp hs
    exact Or.inr (Or.inl ⟨i, a, c, st', c', rfl, hi, move_of_callStep hposs hc, hc, rfl⟩)
  | restart =>
    cases hs
    exact Or.inr (Or.inr ⟨rfl, rfl⟩)

/-- **Every step** keeps memory and table together, if calls on one user do not overlap. -/
theorem synced_step {l : Label} (h : Synced s) (hC : Serial s l) (hs : step cfg s l = some s') : Synced s' := by
  rcases step_cases hs with ⟨i, request, rfl, hi, rfl⟩ | ⟨i, a, c, st', c', -, hi, hm, -, rfl⟩ | ⟨-, rfl⟩
  · exact synced_start h hi hC
  · exact synced_move h _ hi hm
  · exact synced_restart h

theorem synced_init : Synced init := by
  exact ⟨exclusive_empty, fun _ _ h => (by cases h), fun _ _ h => (by cases h), forall_on_empty fun _ => rfl⟩

end sync

end HomeLlmGateway.Storage.UserSync
