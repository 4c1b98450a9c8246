import HomeLlmGateway.Storage.UserSync

/-! # Deleted users stay deleted

A user that `delete_user` has deleted is in no way brought back (`gone_step`), as long as no call of
`update_user` puts into memory a user that is not there any more. Calls on one user may overlap otherwise. -/

namespace HomeLlmGateway.Storage.Deletions

open HomeLlmGateway.Lib.Assoc HomeLlmGateway.Lib.Holding
open HomeLlmGateway.Storage.Keys (Config)
open HomeLlmGateway.Storage.Accounts (freshUser)
open HomeLlmGateway.Storage.UserSync (Move newUser_of_fresh)

/-! ### Where the calls stand -/

/-- The user that a call of `create_user` has put into the table and not yet into memory. -/
def creatingUser : Accounts.Call → Option String
  | .createUser _ _ _ _ _ (.indexing r) | .createUser _ _ _ _ _ (.publishing r) => some r.id
  | _ => none

/-- The user that a call of `delete_user` has found. -/
def deletingUser : Accounts.Call → Option String
  | .deleteUser _ .start | .deleteUser _ (.done _) => none
  | .deleteUser id _ => some id
  | _ => none

/-- The user whose row a call of `delete_user` has deleted. -/
def rowDeleted : Accounts.Call → Option String
  | .deleteUser id .unindexing | .deleteUser id .removing => some id
  | _ => none

/-- The user that a call of `update_user` puts into memory next. -/
def publishing : Accounts.Call → Option String
  | .updateUser id _ (.publishing _ _) => some id
  | _ => none

section accounts

variable {cfg : Config} {s s' : Accounts.State} {st' : Accounts.Store} {a : Accounts.Answer}
  {c c' : Accounts.Call} {u : String}

theorem creatingUser_of_before (h : UserSync.stage c = .before) : creatingUser c = none := by
  cases c with
  | createUser n p role t b pc => cases pc <;> first | rfl | cases h
  | updateUser | deleteUser | setUserPassword | recordLogin | key => rfl

theorem rowDeleted_of_before (h : UserSync.stage c = .before) : rowDeleted c = none := by
  cases c with
  | deleteUser id pc => cases pc <;> first | rfl | cases h
  | createUser | updateUser | setUserPassword | recordLogin | key => rfl

theorem names_of_creatingUser (h : creatingUser c = some u) : Accounts.names c = some u := by
  cases c with
  | createUser n p role t b pc => cases pc <;> first | exact h | cases h
  | updateUser | deleteUser | setUserPassword | recordLogin | key => cases h

theorem names_of_deletingUser (h : deletingUser c = some u) : Accounts.names c = some u := by
  cases c with
  | deleteUser id pc => cases pc <;> first | exact h | cases h
  | createUser | updateUser | setUserPassword | recordLogin | key => cases h

theorem names_of_rowDeleted (h : rowDeleted c = some u) : Accounts.names c = some u := by
  cases c with
  | deleteUser id pc => cases pc <;> first | exact h | cases h
  | createUser | updateUser | setUserPassword | recordLogin | key => cases h

theorem deletingUser_of_creatingUser (h : creatingUser c = some u) : deletingUser c = none := by
  cases c with
  | createUser => rfl
  | updateUser | deleteUser | setUserPassword | recordLogin | key => cases h

/-- Who is not in memory gets there by `create_user` and `update_user` only. -/
theorem users_of_move (hm : Move cfg s a c st' c') (hu : s.store.users.lookup u = none) :
    st'.users.lookup u = none ∨ (creatingUser c = some u ∧ creatingUser c' = none) ∨ publishing c = some u := by
  cases hm with
  | created n p role t b r =>
    rw [Accounts.lookup_publish]
    split_ifs with h
    · exact Or.inr (Or.inl ⟨congrArg some h.symm, rfl⟩)
    · exact Or.inl hu
  | publish id patch current r pc hpc =>
    rw [Accounts.lookup_publish]
    split_ifs with h
    · exact Or.inr (Or.inr (congrArg some h.symm))
    · exact Or.inl hu
  | sweepUpdate id patch r b hb pc pc' st1 h q hq =>
    left
    rw [(Accounts.users_of_sweepStep h).1]
    exact hu
  | sweepDelete id b hb pc pc' st1 h q hq =>
    left
    rw [(Accounts.users_of_sweepStep h).1]
    exact hu
  | remove id =>
    left
    rw [Accounts.lookup_remove]
    split_ifs
    · rfl
    · exact hu
  | password | login =>
    left
    rw [Accounts.lookup_changeUser]
    split_ifs
    · simp [hu]
    · exact hu
  | wait | leave | insertRow | index | updateRow | reindex | deleteRow | unindex | passwordRow | loginRow
  | key => exact Or.inl hu

/-- Who is not in the table gets there by `create_user` only, under a new id. -/
theorem rows_of_move (hm : Move cfg s a c st' c') (hu : s.store.userRows.lookup u = none) :
    st'.userRows.lookup u = none ∨ freshUser s u = true := by
  cases hm with
  | insertRow n p role t b name r hname hfree hfresh hen =>
    rw [Accounts.lookup_insertRow]
    split_ifs with h
    · exact Or.inr (h ▸ hfresh)
    · exact Or.inl hu
  | sweepUpdate id patch r b hb pc pc' st1 h q hq =>
    left
    rw [(Accounts.users_of_sweepStep h).2.1]
    exact hu
  | sweepDelete id b hb pc pc' st1 h q hq =>
    left
    rw [(Accounts.users_of_sweepStep h).2.1]
    exact hu
  | deleteRow id =>
    left
    rw [Accounts.lookup_deleteRow]
    split_ifs
    · rfl
    · exact hu
  | updateRow | passwordRow | loginRow =>
    left
    rw [Accounts.lookup_changeRow]
    split_ifs
    · simp [hu]
    · exact hu
  | wait | leave | created | index | publish | reindex | remove | unindex | password | login | key =>
    exact Or.inl hu

theorem creatingUser_of_move (hm : Move cfg s a c st' c') (hu : creatingUser c' = some u) :
    creatingUser c = some u ∨ freshUser s u = true := by
  cases hm with
  | wait _ _ _ _ hb' => rw [creatingUser_of_before hb'] at hu; cases hu
  | leave _ _ _ _ hb' => rw [creatingUser_of_before hb'] at hu; cases hu
  | insertRow n p role t b name r hname hfree hfresh hen =>
    cases hu
    exact Or.inr hfresh
  | index n p role t b r => exact Or.inl hu
  | publish | created | updateRow | reindex | sweepUpdate | sweepDelete | deleteRow | unindex | remove
  | passwordRow | password | loginRow | login | key => cases hu

theorem deletingUser_of_step (h : Accounts.callStep cfg s.store a c = some (st', c'))
    (hu : deletingUser c' = some u) : deletingUser c = some u ∨ (s.store.users.lookup u).isSome := by
  cases c with
  | deleteUser id pc =>
    obtain ⟨⟨st1, pc1⟩, h1, he⟩ := Option.map_eq_some_iff.mp h
    cases he
    have hid : u = id := by
      cases pc1 <;> first | cases hu; rfl | cases hu
    subst hid
    cases pc with
    | start =>
      simp only [Accounts.deleteUserStep] at h1
      split at h1
      · cases h1
        cases hu
      · next current hcur => exact Or.inr (by rw [hcur]; rfl)
    | done r => cases h1
    | checking | sweeping | deletingRow | unindexing | removing => exact Or.inl rfl
  | createUser | updateUser | setUserPassword | recordLogin =>
    obtain ⟨p, -, he⟩ := Option.map_eq_some_iff.mp h
    cases he
    cases hu
  | key k =>
    simp only [Accounts.callStep] at h
    split at h
    · obtain ⟨p, -, he⟩ := Option.map_eq_some_iff.mp h
      cases he
      cases hu
    · cases h

theorem rowDeleted_of_move (hm : Move cfg s a c st' c') (hu : rowDeleted c' = some u) :
    rowDeleted c = some u ∨ st'.userRows.lookup u = none := by
  cases hm with
  | deleteRow id =>
    cases hu
    right
    simp [Accounts.Store.write]
  | unindex id => exact Or.inl hu
  | wait _ _ _ _ hb' => rw [rowDeleted_of_before hb'] at hu; cases hu
  | leave _ _ _ _ hb' => rw [rowDeleted_of_before hb'] at hu; cases hu
  | sweepDelete id b hb pc pc' st1 h q hq =>
    subst hq
    split_ifs at hu <;> cases hu
  | publish | created | updateRow | reindex | sweepUpdate | insertRow | index | remove | passwordRow
  | password | loginRow | login | key => cases hu

/-- The user is deleted, and nothing can bring it back. -/
structure Gone (s : Accounts.State) (u : String) : Prop where
  user : s.store.users.lookup u = none
  row : s.store.userRows.lookup u = none
  logged : ∃ ch ∈ s.log, ch.user = u
  creating : ∀ i c, s.calls.lookup i = some c → creatingUser c ≠ some u

/-- What the calls of `create_user` and `delete_user` know of their users. -/
structure Consistent (s : Accounts.State) : Prop where
  absent : ∀ i c u, s.calls.lookup i = some c → creatingUser c = some u → s.store.users.lookup u = none
  exclusive : Exclusive creatingUser s.calls
  apart : ∀ i j c c' u, s.calls.lookup i = some c → s.calls.lookup j = some c' → creatingUser c = some u →
    deletingUser c' ≠ some u
  rows : ∀ i c u, s.calls.lookup i = some c → rowDeleted c = some u → s.store.userRows.lookup u = none

/-- A user that `update_user` puts into memory is there already. -/
def Present (s : Accounts.State) : Accounts.Label → Prop
  | .step i _ => ∀ c u, s.calls.lookup i = some c → publishing c = some u → (s.store.users.lookup u).isSome
  | _ => True

theorem not_freshUser_of_logged (h : ∃ ch ∈ s.log, ch.user = u) : freshUser s u ≠ true := by
  intro hf
  obtain ⟨ch, hch, hu⟩ := h
  exact (newUser_of_fresh hf).unlogged ch hch hu

theorem not_freshUser_of_names {i : ℕ} (hi : s.calls.lookup i = some c) (h : Accounts.names c = some u) :
    freshUser s u ≠ true := by
  intro hf
  exact (newUser_of_fresh hf).unnamed i c hi h

theorem accounts_step_eq_some {i : ℕ} (h : Accounts.step cfg s (.step i a) = some s') :
    ∃ c st' c', s.calls.lookup i = some c ∧ Move cfg s a c st' c' ∧
      Accounts.callStep cfg s.store a c = some (st', c') ∧
      s' = ⟨st', s.calls.insert i c', s.log ++ Accounts.completed c c'⟩ := by
  rcases UserSync.step_cases h with ⟨j, request, hl, -⟩ | ⟨j, b, c, st', c', hl, hi, hm, hstep, he⟩ | ⟨hl, -⟩
  · cases hl
  · cases hl
    exact ⟨c, st', c', hi, hm, hstep, he⟩
  · cases hl

theorem gone_start (h : Gone s u) (i : ℕ) (request : Accounts.Request) :
    Gone { s with calls := s.calls.insert i request.call } u := by
  refine ⟨h.user, h.row, h.logged, fun j d hj => ?_⟩
  rw [lookup_insert] at hj
  split_ifs at hj
  · cases hj
    cases request <;> simp [Accounts.Request.call, creatingUser]
  · exact h.creating j d hj

theorem gone_step {l : Accounts.Label} (h : Gone s u) (hp : Present s l)
    (hs : Accounts.step cfg s l = some s') : Gone s' u := by
  cases l with
  | start i request =>
    simp only [Accounts.step] at hs
    split at hs <;> cases hs
    exact gone_start h i request
  | step i a =>
    obtain ⟨c, st', c', hi, hm, -, rfl⟩ := accounts_step_eq_some hs
    have hfresh := not_freshUser_of_logged h.logged
    refine ⟨?_, ?_, ?_, fun j d hj => ?_⟩
    · rcases users_of_move hm h.user with h1 | h1 | h1
      · exact h1
      · exact absurd h1.1 (h.creating i c hi)
      · have := hp c u hi h1
        rw [h.user] at this
        cases this
    · exact (rows_of_move hm h.row).resolve_right hfresh
    · obtain ⟨ch, hch, hu⟩ := h.logged
      exact ⟨ch, List.mem_append_left _ hch, hu⟩
    · rw [lookup_insert] at hj
      split_ifs at hj
      · cases hj
        intro hd
        rcases creatingUser_of_move hm hd with h1 | h1
        · exact h.creating i c hi h1
        · exact hfresh h1
      · exact h.creating j d hj
  | restart =>
    cases hs
    exact ⟨h.row, h.row, h.logged, fun j d hj => by cases hj⟩

theorem consistent_start (h : Consistent s) (i : ℕ) (request : Accounts.Request) :
    Consistent { s with calls := s.calls.insert i request.call } := by
  have hc : creatingUser request.call = none := by cases request <;> rfl
  have hd : deletingUser request.call = none := by cases request <;> rfl
  have hr : rowDeleted request.call = none := by cases request <;> rfl
  have hold : ∀ {f : Accounts.Call → Option String} {j d v}, f request.call = none →
      (s.calls.insert i request.call).lookup j = some d → f d = some v → s.calls.lookup j = some d := by
    intro f j d v hf hj hv
    rw [lookup_insert] at hj
    split_ifs at hj
    · cases hj
      rw [hf] at hv
      cases hv
    · exact hj
  refine ⟨?_, ?_, ?_, ?_⟩
  · intro j d v hj hv
    exact h.absent j d v (hold hc hj hv) hv
  · refine h.exclusive.insert fun v hv => ?_
    rw [hc] at hv
    cases hv
  · intro j k d d' v hj hk hv hv'
    exact h.apart j k d d' v (hold hc hj hv) (hold hd hk hv') hv hv'
  · intro j d v hj hv
    exact h.rows j d v (hold hr hj hv) hv

theorem consistent_move {i : ℕ} (h : Consistent s) (hp : Present s (.step i a))
    (hi : s.calls.lookup i = some c)
    (hm : Move cfg s a c st' c') (hstep : Accounts.callStep cfg s.store a c = some (st', c'))
    (log : List Accounts.Change) : Consistent ⟨st', s.calls.insert i c', log⟩ := by
  -- a user that is being created stays out of memory, unless it is this call that puts it there
  have habsent : ∀ v, s.store.users.lookup v = none → (creatingUser c = some v → creatingUser c' ≠ none) →
      st'.users.lookup v = none := by
    intro v hv hcc
    rcases users_of_move hm hv with h1 | ⟨h1, h2⟩ | h1
    · exact h1
    · exact absurd h2 (hcc h1)
    · have := hp c v hi h1
      rw [hv] at this
      cases this
  have hrows : ∀ j d v, s.calls.lookup j = some d → rowDeleted d = some v → st'.userRows.lookup v = none := by
    intro j d v hj hv
    refine (rows_of_move hm (h.rows j d v hj hv)).resolve_right ?_
    exact not_freshUser_of_names hj (names_of_rowDeleted hv)
  refine ⟨?_, ?_, ?_, ?_⟩
  · intro j d v hj hv
    rw [lookup_insert] at hj
    split_ifs at hj with hji
    · cases hj
      have hnone : s.store.users.lookup v = none := by
        rcases creatingUser_of_move hm hv with h1 | h1
        · exact h.absent i c v hi h1
        · exact (newUser_of_fresh h1).user
      refine habsent v hnone fun _ => ?_
      rw [hv]
      simp
    · refine habsent v (h.absent j d v hj hv) fun hcv => ?_
      exact absurd (h.exclusive i j c d v hi hj hcv hv) (fun he => hji he.symm)
  · refine h.exclusive.insert fun v hv => ?_
    rcases creatingUser_of_move hm hv with h1 | h1
    · exact Or.inl ⟨c, hi, h1⟩
    · exact Or.inr fun j d hj hd => not_freshUser_of_names hj (names_of_creatingUser hd) h1
  · intro j k d d' v hj hk hv hv'
    rw [lookup_insert] at hj hk
    split_ifs at hj hk
    · cases hj
      cases hk
      rw [deletingUser_of_creatingUser hv] at hv'
      cases hv'
    · cases hj
      rcases creatingUser_of_move hm hv with h1 | h1
      · exact h.apart i k c d' v hi hk h1 hv'
      · exact not_freshUser_of_names hk (names_of_deletingUser hv') h1
    · cases hk
      rcases deletingUser_of_step hstep hv' with h1 | h1
      · exact h.apart j i d c v hj hi hv h1
      · rw [h.absent j d v hj hv] at h1
        cases h1
    · exact h.apart j k d d' v hj hk hv hv'
  · intro j d v hj hv
    rw [lookup_insert] at hj
    split_ifs at hj
    · cases hj
      rcases rowDeleted_of_move hm hv with h1 | h1
      · exact hrows i c v hi h1
      · exact h1
    · exact hrows j d v hj hv

theorem consistent_step {l : Accounts.Label} (h : Consistent s) (hp : Present s l)
    (hs : Accounts.step cfg s l = some s') : Consistent s' := by
  cases l with
  | start i request =>
    simp only [Accounts.step] at hs
    split at hs <;> cases hs
    exact consistent_start h i request
  | step i a =>
    obtain ⟨c, st', c', hi, hm, hstep, rfl⟩ := accounts_step_eq_some hs
    exact consistent_move h hp hi hm hstep _
  | restart =>
    cases hs
    refine ⟨?_, exclusive_empty, ?_, ?_⟩
    · intro j d v hj
      cases hj
    · intro j k d d' v hj
      cases hj
    · intro j d v hj
      cases hj

/-- When `delete_user` has taken the user out of memory. -/
theorem gone_of_removing {i : ℕ} {id : String} (h : Consistent s)
    (hi : s.calls.lookup i = some (.deleteUser id .removing))
    (hs : Accounts.step cfg s (.step i a) = some s') : Gone s' id := by
  obtain ⟨c, st', c', hi', -, hstep, rfl⟩ := accounts_step_eq_some hs
  rw [hi] at hi'
  cases hi'
  cases hstep
  refine ⟨by simp [Accounts.Store.write], h.rows i _ id hi rfl, ?_, fun j d hj => ?_⟩
  · exact ⟨⟨id, .deleted⟩, List.mem_append_right _ (by simp [Accounts.completed, Accounts.held,
      Accounts.pendingChange]), rfl⟩
  · rw [lookup_insert] at hj
    split_ifs at hj
    · cases hj
      simp [creatingUser]
    · exact fun hd => h.apart j i d _ id hj hi hd rfl

theorem removing_of_move (hm : Move cfg s a c st' c') (hu : (s.store.users.lookup u).isSome) :
    (st'.users.lookup u).isSome ∨ c = .deleteUser u .removing := by
  cases hm with
  | created | publish =>
    left
    rw [Accounts.lookup_publish]
    split_ifs
    · rfl
    · exact hu
  | sweepUpdate id patch r b hb pc pc' st1 h q hq =>
    left
    rw [(Accounts.users_of_sweepStep h).1]
    exact hu
  | sweepDelete id b hb pc pc' st1 h q hq =>
    left
    rw [(Accounts.users_of_sweepStep h).1]
    exact hu
  | remove id =>
    rw [Accounts.lookup_remove]
    split_ifs with h
    · exact Or.inr (by rw [h])
    · exact Or.inl hu
  | password | login =>
    left
    rw [Accounts.lookup_changeUser]
    split_ifs
    · simpa using hu
    · exact hu
  | wait | leave | insertRow | index | updateRow | reindex | deleteRow | unindex | passwordRow | loginRow
  | key => exact Or.inl hu

/-- **A user stays in memory, or is deleted** for good. -/
theorem stays_or_gone_step {i : ℕ} (h : Consistent s) (hu : (s.store.users.lookup u).isSome)
    (hs : Accounts.step cfg s (.step i a) = some s') : (s'.store.users.lookup u).isSome ∨ Gone s' u := by
  obtain ⟨c, st', c', hi, hm, -, he⟩ := accounts_step_eq_some hs
  rcases removing_of_move hm hu with h1 | rfl
  · left
    rw [he]
    exact h1
  · exact Or.inr (gone_of_removing h hi hs)

end accounts

end HomeLlmGateway.Storage.Deletions
