import HomeLlmGateway.Storage.Revocation
import HomeLlmGateway.Storage.UserSync

/-! # No lost update of a user

What the users are when no call is under way, if calls on one user did not overlap: memory and table agree,
the index of usernames is exact, and the users are what the completed changes make of them, in the order of
their completion. The calls take what they write from a record they read earlier, so when two of them
overlap the later write puts back what the other one changed. -/

namespace HomeLlmGateway.Storage.UserUpdates

open HomeLlmGateway.Lib.Runs HomeLlmGateway.Lib.Assoc HomeLlmGateway.Lib.Holding
open HomeLlmGateway.Storage.Keys (Config)
open HomeLlmGateway.Storage.Users HomeLlmGateway.Storage.Accounts HomeLlmGateway.Storage.UserSync

/-! ### Replaying the changes -/

def setField (u : UserRecord) : Field → UserRecord
  | .username v => { u with username := v }
  | .role v => { u with role := v }
  | .tenantId v => { u with tenantId := v }
  | .enabled v => { u with enabled := v }
  | .passwordHash v => { u with passwordHash := v }

/-- What a change makes of a user. -/
def apply : What → Option UserRecord → Option UserRecord
  | .created r, _ => some r.core
  | .set fields, o => o.map fun u => fields.foldl setField u
  | .deleted, _ => none

/-- The user `u` after these changes. -/
def replay (log : List Change) (u : String) : Option UserRecord :=
  (log.filter fun ch => ch.user = u).foldl (fun o ch => apply ch.what o) none

/-- The fields that a change sets. -/
def fields : What → List Field
  | .created r => [.username r.username, .role r.role, .tenantId r.tenantId, .enabled r.enabled,
      .passwordHash r.passwordHash]
  | .set fs => fs
  | .deleted => []

/-- The change sets the field, or deletes the user. -/
def Overrides (ch : Change) (f : Field) : Prop :=
  ch.what = .deleted ∨ ∃ f' ∈ fields ch.what, f'.same f = true

theorem replay_append (log : List Change) (ch : Change) (u : String) :
    replay (log ++ [ch]) u = if ch.user = u then apply ch.what (replay log u) else replay log u := by
  unfold replay
  rw [List.filter_append]
  split_ifs with h
  · simp [h]
  · simp [h]

theorem has_setField (u : UserRecord) (f : Field) : Has (setField u f) f := by
  cases f <;> rfl

theorem setField_of_has {u : UserRecord} {f : Field} (h : Has u f) : setField u f = u := by
  cases f <;> cases h <;> rfl

theorem has_setField_of_not_same {u : UserRecord} {f g : Field} (h : Has u f) (hg : g.same f = false) :
    Has (setField u g) f := by
  cases f <;> cases g <;> first | exact h | cases hg

theorem has_foldl_setField {f : Field} : ∀ (fs : List Field) (u : UserRecord), Has u f →
    (∀ g ∈ fs, g.same f = false) → Has (fs.foldl setField u) f
  | [], _, h, _ => h
  | g :: fs, u, h, hg =>
    has_foldl_setField fs (setField u g) (has_setField_of_not_same h (hg g (by simp)))
      fun g' hg' => hg g' (by simp [hg'])

/-- A field stays through the changes that do not touch it. -/
theorem has_apply {what : What} {o : Option UserRecord} {u : UserRecord} {f : Field}
    (ho : o = some u) (h : Has u f) (hd : what ≠ .deleted)
    (hc : ∀ r, what ≠ .created r) (hf : ∀ g ∈ fields what, g.same f = false) :
    ∃ r, apply what o = some r ∧ Has r f := by
  subst ho
  cases what with
  | created r => exact absurd rfl (hc r)
  | set fs => exact ⟨_, rfl, has_foldl_setField fs u h hf⟩
  | deleted => exact absurd rfl hd

theorem has_foldl_of_mem {f : Field} : ∀ (fs : List Field) (u : UserRecord),
    fs.Pairwise (fun g g' => g'.same g = false) → f ∈ fs → Has (fs.foldl setField u) f
  | g :: fs, u, hp, hf => by
    rw [List.pairwise_cons] at hp
    rcases List.mem_cons.mp hf with rfl | hf
    · exact has_foldl_setField fs _ (has_setField u f) fun g' hg' => hp.1 g' hg'
    · exact has_foldl_of_mem fs _ hp.2 hf

theorem fieldsOf_sublist (patch : UserPatch) (r : UserRecord) :
    (fieldsOf patch r).Sublist [.username r.username, .role r.role, .tenantId r.tenantId,
      .enabled r.enabled, .passwordHash r.passwordHash] := by
  have hif : ∀ (b : Bool) (f : Field), (if b then [f] else []).Sublist [f] := by
    intro b f
    split_ifs
    · exact List.Sublist.refl _
    · exact List.nil_sublist _
  unfold fieldsOf
  exact ((((hif _ _).append (hif _ _)).append (hif _ _)).append (hif _ _)).append (hif _ _)

theorem pairwise_fieldsOf (patch : UserPatch) (r : UserRecord) :
    (fieldsOf patch r).Pairwise fun g g' => g'.same g = false := by
  refine List.Pairwise.sublist (fieldsOf_sublist patch r) ?_
  simp [Field.same]

theorem foldl_optional {b : Bool} {f : Field} {u : UserRecord} (h : b = false → Has u f) :
    (if b then [f] else []).foldl setField u = setField u f := by
  cases b with
  | false => exact (setField_of_has (h rfl)).symm
  | true => rfl

/-- What `update_user` writes is what its fields make of the record it has read. -/
theorem foldl_fieldsOf {current : UserRecord} {patch : UserPatch} {name hash : String} {now : ℕ}
    (hname : patch.username = none → name = current.username) :
    (fieldsOf patch (updatedRecord current patch name hash now)).foldl setField current.core =
      (updatedRecord current patch name hash now).core := by
  let updated := updatedRecord current patch name hash now
  let u1 := setField current.core (.username updated.username)
  let u2 := setField u1 (.role updated.role)
  let u3 := setField u2 (.tenantId updated.tenantId)
  let u4 := setField u3 (.enabled updated.enabled)
  -- a field that the patch does not have is that of the record
  have hkept : ∀ {α : Type} (o : Option α) (d : α), o.isSome = false → d = o.getD d := by
    intro α o d hnone
    cases o with
    | none => rfl
    | some _ => cases hnone
  have husername : patch.username.isSome = false → Has current.core (.username updated.username) :=
    fun hnone => (hname (by simpa using hnone)).symm
  have hrole : patch.role.isSome = false → Has u1 (.role updated.role) := hkept patch.role current.role
  have htenant : patch.tenantId.isSome = false → Has u2 (.tenantId updated.tenantId) :=
    hkept patch.tenantId current.tenantId
  have henabled : patch.enabled.isSome = false → Has u3 (.enabled updated.enabled) :=
    hkept patch.enabled current.enabled
  have hpassword : patch.password.isSome = false → Has u4 (.passwordHash updated.passwordHash) :=
    fun hnone => (if_neg (by simp [hnone])).symm
  unfold fieldsOf
  rw [List.foldl_append, List.foldl_append, List.foldl_append, List.foldl_append, foldl_optional husername,
    foldl_optional hrole, foldl_optional htenant, foldl_optional henabled, foldl_optional hpassword]
  rfl

/-! ### The index of usernames -/

/-- The index has the user under its name, unless a call is between the row and the index; while a new user
is, the index does not have it at all. -/
def Filed (st : Store) (u : String) : Option Call → Prop
  | none => ∀ r, st.userRows.lookup u = some r → st.usernames.lookup r.username = some u
  | some c =>
    if stage c = .rowWritten then isCreate c = true → ∀ n, st.usernames.lookup n ≠ some u
    else ∀ r, st.userRows.lookup u = some r → st.usernames.lookup r.username = some u

structure IndexOk (s : State) : Prop where
  unique : ∀ u v r q, s.store.userRows.lookup u = some r → s.store.userRows.lookup v = some q →
    r.username = q.username → u = v
  filed : ∀ u o, On held s.calls u o → Filed s.store u o
  sound : ∀ n u, s.store.usernames.lookup n = some u →
    (∃ r, s.store.userRows.lookup u = some r ∧ r.username = n) ∨
      ∃ i c, s.calls.lookup i = some c ∧ held c = some u ∧ stage c = .rowWritten

section index

variable {cfg : Config} {s s' : State} {st st' : Store} {i : ℕ} {a : Answer} {c c' : Call} {u : String}

theorem filed_of_stage (h : stage c ≠ .rowWritten) : Filed st u (some c) ↔ Filed st u none := by
  simp only [Filed, h, if_false]

theorem Filed.frame {o : Option Call} (h : Filed st u o)
    (hrow : ∀ r, st'.userRows.lookup u = some r → ∃ q, st.userRows.lookup u = some q ∧ q.username = r.username)
    (hkeep : ∀ q, st.userRows.lookup u = some q → st.usernames.lookup q.username = some u →
      st'.usernames.lookup q.username = some u)
    (hnew : ∀ n, st'.usernames.lookup n = some u → st.usernames.lookup n = some u) : Filed st' u o := by
  have hnone : Filed st u none → Filed st' u none := by
    intro hf r hr
    obtain ⟨q, hq, hqr⟩ := hrow r hr
    rw [← hqr]
    exact hkeep q hq (hf q hq)
  cases o with
  | none => exact hnone h
  | some c =>
    by_cases hst : stage c = .rowWritten
    · simp only [Filed, hst, if_true] at h ⊢
      exact fun hc n hn => h hc n (hnew n hn)
    · rw [filed_of_stage hst] at h ⊢
      exact hnone h

theorem indexOk_quiet (hsy : Synced s) (h : IndexOk s) (log : List Change) (hi : s.calls.lookup i = some c)
    (hm : Move cfg s a c st' c') (hst : stage c ≠ .rowWritten) (hst' : stage c' ≠ .rowWritten)
    (hidx : st'.usernames = s.store.usernames)
    (hrow : ∀ v, (st'.userRows.lookup v).map UserRecord.username =
      (s.store.userRows.lookup v).map UserRecord.username) :
    IndexOk ⟨st', s.calls.insert i c', log⟩ := by
  have hback : ∀ v r, st'.userRows.lookup v = some r →
      ∃ q, s.store.userRows.lookup v = some q ∧ q.username = r.username := by
    intro v r hr
    have := hrow v
    rw [hr] at this
    exact Option.map_eq_some_iff.mp this.symm
  have hframe : ∀ v o, Filed s.store v o → Filed st' v o := fun v o hf =>
    hf.frame (hback v) (fun q _ hq => by rw [hidx]; exact hq) fun n hn => by rw [← hidx]; exact hn
  refine ⟨fun v w r q hv hw he => ?_, ?_, fun n v hn => ?_⟩
  · obtain ⟨r0, hr0, he0⟩ := hback v r hv
    obtain ⟨q0, hq0, he1⟩ := hback w q hw
    exact h.unique v w r0 q0 hr0 hq0 (by rw [he0, he1, he])
  · have hnone : ∀ u, Filed s.store u (some c) → Filed st' u none := fun u hf =>
      hframe u none ((filed_of_stage hst).mp hf)
    refine forall_on_move hsy.exclusive hi hm h.filed (fun v o _ _ hf => hframe v o hf)
      (fun u _ _ hf => (filed_of_stage hst').mpr (hnone u hf)) (fun u _ _ hf => hnone u hf) ?_
    rintro n p role t b name r - rfl - - -
    exact absurd rfl hst'
  · rcases h.sound n v (by rw [← hidx]; exact hn) with ⟨q, hq, hqn⟩ | ⟨j, d, hj, hd, hds⟩
    · left
      have := hrow v
      rw [hq] at this
      obtain ⟨r, hr, hrq⟩ := Option.map_eq_some_iff.mp this
      exact ⟨r, hr, hrq.trans hqn⟩
    · refine Or.inr ⟨j, d, ?_, hd, hds⟩
      show (s.calls.insert i c').lookup j = some d
      rw [lookup_insert, if_neg]
      · exact hj
      · rintro rfl
        rw [hi] at hj
        cases hj
        exact hst hds

theorem indexOk_reindexed (hsy : Synced s) (h : IndexOk s) (log : List Change)
    (hi : s.calls.lookup i = some c) (hu : held c = some u) (hu' : held c' = some u)
    (hst' : stage c' ≠ .rowWritten) (hrows : st'.userRows = s.store.userRows)
    (hown : ∀ r, s.store.userRows.lookup u = some r → st'.usernames.lookup r.username = some u)
    (hkeep : ∀ n v, v ≠ u → s.store.usernames.lookup n = some v →
      (∀ r, s.store.userRows.lookup u = some r → r.username ≠ n) → st'.usernames.lookup n = some v)
    (hnew : ∀ n v, st'.usernames.lookup n = some v → (v ≠ u ∧ s.store.usernames.lookup n = some v) ∨
      (v = u ∧ ∃ r, s.store.userRows.lookup u = some r ∧ r.username = n)) :
    IndexOk ⟨st', s.calls.insert i c', log⟩ := by
  refine ⟨fun v w r q hv hw he => ?_, ?_, fun n v hn => ?_⟩
  · exact h.unique v w r q (hrows ▸ hv) (hrows ▸ hw) he
  · refine forall_on_step hsy.exclusive hi hu (fun v hv => ?_) h.filed (fun v o hv _ hf => ?_) (fun _ => ?_)
      fun hn => ?_
    · rw [hu'] at hv
      exact (Option.some.inj hv).symm
    · refine hf.frame (fun r hr => ⟨r, hrows ▸ hr, rfl⟩) (fun q hq hqv => ?_) fun n hn => ?_
      · exact hkeep _ v hv hqv fun r hr he => hv (h.unique v u q r hq hr he.symm)
      · rcases hnew n v hn with ⟨-, hn⟩ | ⟨hvu, -⟩
        · exact hn
        · exact absurd hvu hv
    · rw [filed_of_stage hst']
      intro r hr
      exact hown r (hrows ▸ hr)
    · rw [hu'] at hn
      cases hn
  · rcases hnew n v hn with ⟨hv, hn⟩ | ⟨rfl, r, hr, hrn⟩
    · rcases h.sound n v hn with ⟨q, hq, hqn⟩ | ⟨j, d, hj, hd, hds⟩
      · exact Or.inl ⟨q, hrows ▸ hq, hqn⟩
      · refine Or.inr ⟨j, d, ?_, hd, hds⟩
        show (s.calls.insert i c').lookup j = some d
        rw [lookup_insert, if_neg]
        · exact hj
        · rintro rfl
          rw [hi] at hj
          cases hj
          rw [hu] at hd
          exact hv (Option.some.inj hd).symm
    · exact Or.inl ⟨r, hrows ▸ hr, hrn⟩

theorem indexOk_row (hsy : Synced s) (h : IndexOk s) (log : List Change) (hi : s.calls.lookup i = some c)
    (hu : held c = some u) (hu' : held c' = some u) (hst : stage c ≠ .rowWritten)
    (hst' : stage c' = .rowWritten) (hcreate : isCreate c' = false)
    (hidx : st'.usernames = s.store.usernames)
    (hframe : ∀ v, v ≠ u → st'.userRows.lookup v = s.store.userRows.lookup v)
    (hfree : ∀ v r q, v ≠ u → st'.userRows.lookup u = some r → s.store.userRows.lookup v = some q →
      q.username ≠ r.username) :
    IndexOk ⟨st', s.calls.insert i c', log⟩ := by
  refine ⟨fun v w r q hv hw he => ?_, ?_, fun n v hn => ?_⟩
  · by_cases hvu : v = u
    · by_cases hwu : w = u
      · rw [hvu, hwu]
      · subst hvu
        exact absurd he.symm (hfree w r q hwu hv (hframe w hwu ▸ hw))
    · by_cases hwu : w = u
      · subst hwu
        exact absurd he (hfree v q r hvu hw (hframe v hvu ▸ hv))
      · exact h.unique v w r q (hframe v hvu ▸ hv) (hframe w hwu ▸ hw) he
  · refine forall_on_step hsy.exclusive hi hu (fun v hv => ?_) h.filed (fun v o hv _ hf => ?_) (fun _ => ?_)
      fun hn => ?_
    · rw [hu'] at hv
      exact (Option.some.inj hv).symm
    · exact hf.frame (fun r hr => ⟨r, hframe v hv ▸ hr, rfl⟩) (fun q _ hq => by rw [hidx]; exact hq)
        fun n hn => by rw [← hidx]; exact hn
    · simp [Filed, hst', hcreate]
    · rw [hu'] at hn
      cases hn
  · have hself : (s.calls.insert i c').lookup i = some c' := by rw [lookup_insert, if_pos rfl]
    by_cases hvu : v = u
    · exact Or.inr ⟨i, c', hself, hvu ▸ hu', hst'⟩
    · rcases h.sound n v (hidx ▸ hn) with ⟨q, hq, hqn⟩ | ⟨j, d, hj, hd, hds⟩
      · exact Or.inl ⟨q, hframe v hvu ▸ hq, hqn⟩
      · refine Or.inr ⟨j, d, ?_, hd, hds⟩
        show (s.calls.insert i c').lookup j = some d
        rw [lookup_insert, if_neg]
        · exact hj
        · rintro rfl
          rw [hi] at hj
          cases hj
          exact hst hds

theorem indexOk_insertRow (h : IndexOk s) (log : List Change) {v p : String} {role : UserRole}
    {t b : Option String} {name : String} {r : UserRecord}
    (hi : s.calls.lookup i = some (.createUser v p role t b (.inserting name)))
    (hfree : taken s.store.userRows r.id r.username = false) (hfresh : freshUser s r.id = true) :
    IndexOk ⟨s.store.write (.insertRow r), s.calls.insert i (.createUser v p role t b (.indexing r)), log⟩ := by
  have hnone := on_none_of_fresh hfresh
  have hrow : s.store.userRows.lookup r.id = none := (newUser_of_fresh hfresh).row
  have hunused : ∀ n, s.store.usernames.lookup n ≠ some r.id := by
    intro n hn
    rcases h.sound n r.id hn with ⟨q, hq, -⟩ | ⟨j, d, hj, hd, -⟩
    · rw [hrow] at hq
      cases hq
    · exact hnone j d hj hd
  have hslot : ∀ j d, s.calls.lookup j = some d → (held d).isSome →
      (s.calls.insert i (.createUser v p role t b (.indexing r))).lookup j = some d := by
    intro j d hj hd
    rw [lookup_insert, if_neg]
    · exact hj
    · rintro rfl
      rw [hi] at hj
      cases hj
      cases hd
  refine ⟨fun w w' q q' hw hw' he => ?_, ?_, fun n w hn => ?_⟩
  · rw [lookup_insertRow] at hw hw'
    split_ifs at hw hw' with h1 h2 h2
    · rw [h1, h2]
    · cases hw
      exact absurd he.symm (ne_of_not_taken hfree h2 hw')
    · cases hw'
      exact absurd he (ne_of_not_taken hfree h1 hw)
    · exact h.unique w w' q q' hw hw' he
  · refine forall_on_take (fun d hd => ?_) hnone rfl h.filed (fun w o hw _ hf => ?_) fun _ => ?_
    · rw [hi] at hd
      cases hd
      rfl
    · refine hf.frame (fun q hq => ⟨q, ?_, rfl⟩) (fun _ _ hq => hq) fun _ hn => hn
      rw [lookup_insertRow, if_neg hw] at hq
      exact hq
    · exact fun _ => hunused
  · rcases h.sound n w hn with ⟨q, hq, hqn⟩ | ⟨j, d, hj, hd, hds⟩
    · refine Or.inl ⟨q, ?_, hqn⟩
      rw [lookup_insertRow, if_neg]
      · exact hq
      · rintro rfl
        rw [hrow] at hq
        cases hq
    · exact Or.inr ⟨j, d, hslot j d hj (by rw [hd]; rfl), hd, hds⟩

theorem indexOk_start (h : IndexOk s) {request : Request} (hfree : s.calls.lookup i = none)
    (hC : ∀ u, held request.call = some u → On held s.calls u none) :
    IndexOk { s with calls := s.calls.insert i request.call } := by
  have hstage : stage request.call ≠ .rowWritten := by
    cases request with
    | key r => simp [stage, Request.call]
    | createUser | updateUser | deleteUser | setUserPassword | recordLogin => simp [stage, Request.call]
  have hnone : ∀ c, s.calls.lookup i = some c → held c = none := by
    intro c hc
    rw [hfree] at hc
    cases hc
  refine ⟨h.unique, ?_, fun n u hn => ?_⟩
  · cases hu : held request.call with
    | none => exact forall_on_free hnone hu h.filed fun _ _ _ hs => hs
    | some u =>
      exact forall_on_take hnone (hC u hu) hu h.filed (fun _ _ _ _ hs => hs)
        fun hs => (filed_of_stage hstage).mpr hs
  · rcases h.sound n u hn with hq | ⟨j, d, hj, hd, hds⟩
    · exact Or.inl hq
    · refine Or.inr ⟨j, d, ?_, hd, hds⟩
      show (s.calls.insert i request.call).lookup j = some d
      rw [lookup_insert, if_neg]
      · exact hj
      · rintro rfl
        rw [hfree] at hj
        cases hj

/-- **A step of a call** keeps the index. -/
theorem indexOk_move (hsy : Synced s) (h : IndexOk s) (log : List Change) (hi : s.calls.lookup i = some c)
    (hm : Move cfg s a c st' c') : IndexOk ⟨st', s.calls.insert i c', log⟩ := by
  have hsync : ∀ u, held c = some u → Sync s.store u (some c) :=
    fun u hu => hsy.sync u (some c) ⟨hu, i, hi⟩
  have hmove := hm
  cases hm with
  | wait _ _ hheld hb hb' =>
    exact indexOk_quiet hsy h log hi hmove (by simp [hb]) (by simp [hb']) rfl fun _ => rfl
  | leave _ _ hheld hb hb' =>
    exact indexOk_quiet hsy h log hi hmove (by simp [hb]) (by simp [hb']) rfl fun _ => rfl
  | insertRow u p role t b name r hname hfree hfresh hen => exact indexOk_insertRow h log hi hfree hfresh
  | index u p role t b r =>
    obtain ⟨q, hq, hqc⟩ := map_core_eq_some (hsync r.id rfl).1
    have hname : q.username = r.username := (UserRecord.eq_of_core hqc).2.2.1
    have hun : ∀ n, s.store.usernames.lookup n ≠ some r.id := h.filed r.id (some _) ⟨rfl, i, hi⟩ rfl
    refine indexOk_reindexed hsy h log hi rfl rfl (by simp [stage]) rfl (fun q' hq' => ?_)
      (fun n v _ hn hne => ?_) fun n v hn => ?_
    · rw [hq] at hq'
      cases hq'
      rw [lookup_index, if_pos hname]
    · rw [lookup_index, if_neg]
      · exact hn
      · rintro rfl
        exact hne q hq hname
    · rw [lookup_index] at hn
      split_ifs at hn with hnr
      · cases hn
        exact Or.inr ⟨rfl, q, hq, hname.trans hnr.symm⟩
      · exact Or.inl ⟨by rintro rfl; exact hun n hn, hn⟩
  | created u p role t b r =>
    exact indexOk_quiet hsy h log hi hmove (by simp [stage]) (by simp [stage]) rfl fun _ => rfl
  | updateRow id patch current name hash now hfree =>
    have hold := hsync id rfl
    simp only [Sync, stage] at hold
    obtain ⟨q, hq, hqc⟩ := map_core_eq_some (hold.1.trans (hold.2 current rfl))
    refine indexOk_row hsy h log hi rfl rfl (by simp [stage]) rfl rfl rfl (fun v hv => ?_)
      fun v r q' hv hr hq' => ?_
    · rw [lookup_changeRow, if_neg hv]
    · rw [lookup_changeRow, if_pos rfl, hq] at hr
      cases hr
      exact ne_of_not_taken (hfree (by rw [hq]; rfl)) hv hq'
  | reindex id patch current r =>
    obtain ⟨q, hq, hqc⟩ := map_core_eq_some (hsync id rfl).1
    have hname : q.username = r.username := (UserRecord.eq_of_core hqc).2.2.1
    refine indexOk_reindexed hsy h log hi rfl rfl (by simp [stage]) rfl (fun q' hq' => ?_)
      (fun n v hv hn hne => ?_) fun n v hn => ?_
    · rw [hq] at hq'
      cases hq'
      rw [lookup_reindex, if_pos hname]
    · rw [lookup_reindex, if_neg, hn]
      · simp [hv]
      · rintro rfl
        exact hne q hq hname
    · rw [lookup_reindex] at hn
      split_ifs at hn with hnr
      · cases hn
        exact Or.inr ⟨rfl, q, hq, hname.trans hnr.symm⟩
      · obtain ⟨hn, hv⟩ := Option.filter_eq_some_iff.mp hn
        exact Or.inl ⟨by simpa using hv, hn⟩
  | publish id patch current r pc hpc =>
    refine indexOk_quiet hsy h log hi hmove (by simp [stage]) ?_ rfl fun _ => rfl
    rw [hpc]
    split_ifs <;> simp [stage]
  | sweepUpdate id patch r b hb pc pc' st' hsw q hq =>
    obtain ⟨-, hrows, hnames⟩ := users_of_sweepStep hsw
    refine indexOk_quiet hsy h log hi hmove (by simp [stage]) ?_ hnames fun _ => by rw [hrows]
    rw [hq]
    split_ifs <;> simp [stage]
  | sweepDelete id b hb pc pc' st' hsw q hq =>
    obtain ⟨-, hrows, hnames⟩ := users_of_sweepStep hsw
    refine indexOk_quiet hsy h log hi hmove (by simp [stage]) ?_ hnames fun _ => by rw [hrows]
    rw [hq]
    split_ifs <;> simp [stage]
  | deleteRow id =>
    refine indexOk_row hsy h log hi rfl rfl (by simp [stage]) rfl rfl rfl (fun v hv => ?_)
      fun v r q' hv hr => ?_
    · rw [lookup_deleteRow, if_neg hv]
    · rw [lookup_deleteRow, if_pos rfl] at hr
      cases hr
  | unindex id =>
    have hnone : s.store.userRows.lookup id = none := by
      have := (hsync id rfl).1
      simpa [target] using this
    refine indexOk_reindexed hsy h log hi rfl rfl (by simp [stage]) rfl (fun q' hq' => ?_)
      (fun n v hv hn _ => ?_) fun n v hn => ?_
    · rw [hnone] at hq'
      cases hq'
    · rw [lookup_unindex, hn]
      simp [hv]
    · rw [lookup_unindex] at hn
      obtain ⟨hn, hv⟩ := Option.filter_eq_some_iff.mp hn
      exact Or.inl ⟨by simpa using hv, hn⟩
  | remove id =>
    exact indexOk_quiet hsy h log hi hmove (by simp [stage]) (by simp [stage]) rfl fun _ => rfl
  | passwordRow id p current hash now =>
    refine indexOk_quiet hsy h log hi hmove (by simp [stage]) (by simp [stage]) rfl ?_
    exact map_lookup_modify UserRecord.username
      (f := fun row => { row with passwordHash := hash, updatedAt := now }) (fun _ => rfl) id _
  | password id p current hash now =>
    exact indexOk_quiet hsy h log hi hmove (by simp [stage]) (by simp [stage]) rfl fun _ => rfl
  | loginRow id now =>
    refine indexOk_quiet hsy h log hi hmove (by simp [stage]) (by simp [stage]) rfl ?_
    exact map_lookup_modify UserRecord.username
      (f := fun row => { row with lastLoginAt := now, updatedAt := now }) (fun _ => rfl) id _
  | login id now =>
    exact indexOk_quiet hsy h log hi hmove (by simp [stage]) (by simp [stage]) rfl fun _ => rfl
  | key b hb c c' keys hposs hc =>
    exact indexOk_quiet hsy h log hi hmove (by simp [stage]) (by simp [stage]) rfl fun _ => rfl

end index

/-! ### The log -/

/-- The change that the call is making turns what the log says of the user into what the call writes. -/
def Applies (log : List Change) (u : String) (c : Call) : Prop :=
  ∃ ch, pendingChange c = some ch ∧ apply ch.what (replay log u) = (target c).map UserRecord.core ∧
    ∀ r, apply ch.what (replay log u) = some r → ∀ f ∈ fields ch.what, Has r f

/-- Memory has what the log says, until a call writes to it. -/
def Logged (users : HashMap String UserRecord) (log : List Change) (u : String) : Option Call → Prop
  | none => (users.lookup u).map UserRecord.core = replay log u
  | some c =>
    match stage c with
    | .before => (users.lookup u).map UserRecord.core = replay log u
    | .rowWritten | .indexed => (users.lookup u).map UserRecord.core = replay log u ∧ Applies log u c
    | .published => Applies log u c

/-- Each change in the log had a user to change, and set its fields. -/
def Sensible (log : List Change) : Prop :=
  ∀ pre ch post, log = pre ++ ch :: post → ch.what ≠ .deleted →
    ∃ r, apply ch.what (replay pre ch.user) = some r ∧ ∀ f ∈ fields ch.what, Has r f

/-- The name that a call of `update_user` goes on with is the old one, if the patch has none. -/
def Formed : Call → Prop
  | .updateUser _ patch (.checking current name _) => patch.username = none → name = current.username
  | .updateUser _ patch (.updatingRow current name) => patch.username = none → name = current.username
  | _ => True

structure LogOk (s : State) : Prop where
  logged : ∀ u o, On held s.calls u o → Logged s.store.users s.log u o
  sensible : Sensible s.log
  formed : ∀ i c, s.calls.lookup i = some c → Formed c

section log

variable {cfg : Config} {s s' : State} {st st' : Store} {i : ℕ} {a : Answer} {c c' : Call} {u : String}

theorem formed_step (hf : Formed c) (h : callStep cfg st a c = some (st', c')) : Formed c' := by
  cases c with
  | updateUser id patch pc =>
    obtain ⟨⟨st1, pc'⟩, h1, he⟩ := Option.map_eq_some_iff.mp h
    cases he
    cases pc with
    | start =>
      simp only [updateUserStep] at h1
      split at h1
      · cases h1
        trivial
      · split at h1
        · cases h1
          trivial
        · next name hname =>
          cases h1
          intro hnone
          rw [hnone] at hname
          exact (Except.ok.inj hname).symm
    | checking current name checks =>
      cases checks with
      | nil =>
        cases h1
        exact hf
      | cons check checks =>
        obtain ⟨r, -, hr⟩ := Option.map_eq_some_iff.mp h1
        cases r with
        | error e => cases hr; trivial
        | ok _ => cases hr; exact hf
    | updatingRow current name =>
      simp only [updateUserStep] at h1
      split at h1
      · split_ifs at h1 <;> cases h1 <;> trivial
      · cases h1
        trivial
      · cases h1
    | reindexing current r => cases h1; trivial
    | publishing current r =>
      cases h1
      split_ifs <;> trivial
    | sweeping r pc =>
      simp only [updateUserStep] at h1
      split at h1
      · obtain ⟨p, -, he⟩ := Option.map_eq_some_iff.mp h1
        cases he
        split_ifs <;> trivial
      · cases h1
    | done r => cases h1
  | createUser | deleteUser | setUserPassword | recordLogin =>
    obtain ⟨p, -, he⟩ := Option.map_eq_some_iff.mp h
    cases he
    trivial
  | key c =>
    simp only [callStep] at h
    split at h
    · obtain ⟨p, -, he⟩ := Option.map_eq_some_iff.mp h
      cases he
      trivial
    · cases h

theorem held_of_pendingChange {ch : Change} (h : pendingChange c = some ch) : held c = some ch.user := by
  cases c with
  | createUser n p role t b pc => cases pc <;> cases h <;> rfl
  | updateUser id patch pc => cases pc <;> cases h <;> rfl
  | deleteUser id pc => cases pc <;> cases h <;> rfl
  | setUserPassword id p pc =>
    cases pc <;> cases h
    rfl
  | recordLogin id pc => cases h
  | key c => cases h

theorem pendingChange_of_before (h : stage c = .before) : pendingChange c = none := by
  cases c with
  | createUser n p role t b pc => cases pc <;> first | rfl | cases h
  | updateUser id patch pc => cases pc <;> first | rfl | cases h
  | deleteUser id pc => cases pc <;> first | rfl | cases h
  | setUserPassword id p pc => cases pc <;> first | rfl | cases h
  | recordLogin id pc => rfl
  | key c => rfl

theorem completed_of_before (h : stage c = .before) : completed c c' = [] := by
  simp [completed, pendingChange_of_before h]

theorem completed_of_held (h : held c' = some u) : completed c c' = [] := by
  simp [completed, h]

theorem replay_completed (log : List Change) {v : String} (hv : held c ≠ some v) :
    replay (log ++ completed c c') v = replay log v := by
  unfold completed
  split_ifs
  · cases hp : pendingChange c with
    | none => simp
    | some ch =>
      have hne : ch.user ≠ v := by
        rintro rfl
        exact hv (held_of_pendingChange hp)
      simp [replay_append, hne]
  · simp

theorem replay_completed_self {log : List Change} (h : Applies log u c) (hu : held c = some u)
    (hc' : held c' = none) :
    replay (log ++ completed c c') u = (target c).map UserRecord.core := by
  obtain ⟨ch, hch, happ, -⟩ := h
  have hcu : ch.user = u := by
    have := held_of_pendingChange hch
    rw [hu] at this
    exact (Option.some.inj this).symm
  simp only [completed, hc', hch]
  exact (replay_append log ch u).trans ((if_pos hcu).trans happ)

theorem deleted_of_target {ch : Change} (h : pendingChange c = some ch) (ht : target c = none) :
    ch.what = .deleted := by
  cases c with
  | createUser n p role t b pc => cases pc <;> cases h <;> cases ht
  | updateUser id patch pc => cases pc <;> cases h <;> cases ht
  | deleteUser id pc => cases pc <;> cases h <;> rfl
  | setUserPassword id p pc =>
    cases pc <;> cases h
    cases ht
  | recordLogin id pc => cases h
  | key c => cases h

theorem Logged.applies {users : HashMap String UserRecord} {log : List Change}
    (h : Logged users log u (some c)) (hst : stage c ≠ .before) : Applies log u c := by
  unfold Logged at h
  cases hc : stage c <;> simp only [hc] at h
  · exact absurd hc hst
  · exact h.2
  · exact h.2
  · exact h

theorem sensible_completed {log : List Change} (hs : Sensible log)
    (h : ∀ u, held c = some u → stage c ≠ .before → Applies log u c) : Sensible (log ++ completed c c') := by
  unfold completed
  split_ifs
  · cases hp : pendingChange c with
    | none => simpa using hs
    | some ch =>
      intro pre d post hlog hd
      have hlog' : log ++ [ch] = pre ++ d :: post := hlog
      rcases List.eq_nil_or_concat post with rfl | ⟨post', e, rfl⟩
      · obtain ⟨rfl, hde⟩ := List.append_inj' hlog' rfl
        cases hde
        have hst : stage c ≠ .before := by
          intro hb
          rw [pendingChange_of_before hb] at hp
          cases hp
        obtain ⟨ch', hch', happ, hall⟩ := h ch.user (held_of_pendingChange hp) hst
        rw [hp] at hch'
        cases hch'
        cases ht : target c with
        | none => exact absurd (deleted_of_target hp ht) hd
        | some r => exact ⟨r.core, by rw [happ, ht]; rfl, hall _ (by rw [happ, ht]; rfl)⟩
      · rw [List.concat_eq_append, ← List.cons_append, ← List.append_assoc] at hlog'
        obtain ⟨hpre, -⟩ := List.append_inj' hlog' rfl
        exact hs pre d post' hpre hd
  · simpa using hs

theorem Logged.frame {users users' : HashMap String UserRecord} {log log' : List Change} {o : Option Call}
    (h : Logged users log u o)
    (hu : (users'.lookup u).map UserRecord.core = (users.lookup u).map UserRecord.core)
    (hl : replay log' u = replay log u) : Logged users' log' u o := by
  have happ : ∀ c, Applies log u c → Applies log' u c := by
    rintro c ⟨ch, h1, h2, h3⟩
    exact ⟨ch, h1, by rw [hl]; exact h2, by rw [hl]; exact h3⟩
  cases o with
  | none => exact hu.trans (h.trans hl.symm)
  | some c =>
    unfold Logged at h ⊢
    cases hst : stage c <;> simp only [hst] at h ⊢
    · exact hu.trans (h.trans hl.symm)
    · exact ⟨hu.trans (h.1.trans hl.symm), happ c h.2⟩
    · exact ⟨hu.trans (h.1.trans hl.symm), happ c h.2⟩
    · exact happ c h

theorem formed_insert (h : LogOk s) (hc' : Formed c') (j : ℕ) (d : Call)
    (hj : (s.calls.insert i c').lookup j = some d) : Formed d := by
  rw [lookup_insert] at hj
  split_ifs at hj
  · cases hj
    exact hc'
  · exact h.formed j d hj

theorem logOk_start (h : LogOk s) {request : Request} (hfree : s.calls.lookup i = none)
    (hC : ∀ u, held request.call = some u → On held s.calls u none) :
    LogOk { s with calls := s.calls.insert i request.call } := by
  have hstage : stage request.call = .before := by
    cases request with
    | key r => rfl
    | createUser | updateUser | deleteUser | setUserPassword | recordLogin => rfl
  have hf : Formed request.call := by
    cases request with
    | key r => trivial
    | createUser | updateUser | deleteUser | setUserPassword | recordLogin => trivial
  have hnone : ∀ c, s.calls.lookup i = some c → held c = none := by
    intro c hc
    rw [hfree] at hc
    cases hc
  refine ⟨?_, h.sensible, formed_insert h hf⟩
  cases hu : held request.call with
  | none => exact forall_on_free hnone hu h.logged fun _ _ _ hs => hs
  | some u =>
    refine forall_on_take hnone (hC u hu) hu h.logged (fun _ _ _ _ hs => hs) fun hs => ?_
    simp only [Logged, hstage]
    exact hs

/-- What `update_user` writes is its change, applied. -/
theorem applies_updateRow {log : List Change} {id : String} {patch : UserPatch} {current : UserRecord}
    {name hash : String} {now : ℕ} (hname : patch.username = none → name = current.username)
    (hcur : replay log id = some current.core) :
    Applies log id (.updateUser id patch
      (.reindexing current (updatedRecord current patch name hash now))) := by
  refine ⟨_, rfl, ?_, fun r hr f hf => ?_⟩
  · rw [hcur]
    exact congrArg some (foldl_fieldsOf hname)
  · rw [hcur] at hr
    cases hr
    exact has_foldl_of_mem _ _ (pairwise_fieldsOf _ _) hf

theorem applies_created {log : List Change} {n p : String} {role : UserRole} {t b : Option String}
    {r : UserRecord} : Applies log r.id (.createUser n p role t b (.indexing r)) := by
  refine ⟨_, rfl, rfl, fun q hq f hf => ?_⟩
  cases hq
  simp only [fields, List.mem_cons, List.not_mem_nil, or_false] at hf
  rcases hf with rfl | rfl | rfl | rfl | rfl <;> rfl

theorem applies_password {log : List Change} {id p hash : String} {current : UserRecord}
    (hcur : replay log id = some current.core) :
    Applies log id (.setUserPassword id p (.writing current hash)) := by
  refine ⟨_, rfl, by rw [hcur]; rfl, fun r hr f hf => ?_⟩
  rw [hcur] at hr
  cases hr
  cases List.mem_singleton.mp hf
  rfl

/-- **What a step of a call makes of the user that it holds.** -/
theorem Logged.move (h : Logged s.store.users s.log u (some c)) (hsync : Sync s.store u (some c)) (hf : Formed c)
    (hm : Move cfg s a c st' c') (hu : held c = some u) :
    (held c' = some u → Logged st'.users s.log u (some c')) ∧
    (held c' = none → (st'.users.lookup u).map UserRecord.core = replay (s.log ++ completed c c') u) := by
  cases hm with
  | wait _ _ hheld hb hb' =>
    simp only [Logged, hb] at h
    refine ⟨fun _ => ?_, fun hn => ?_⟩
    · simp only [Logged, hb']
      exact h
    · rw [hheld, hu] at hn
      cases hn
  | leave _ _ hheld hb _ _ _ =>
    simp only [Logged, hb] at h
    refine ⟨fun hn => ?_, fun _ => ?_⟩
    · rw [hheld] at hn
      cases hn
    · rw [completed_of_before hb, List.append_nil]
      exact h
  | insertRow n p role t b name r => cases hu
  | index n p role t b r => exact ⟨fun _ => h, fun hn => (by cases hn)⟩
  | created n p role t b r =>
    cases hu
    refine ⟨fun hn => (by cases hn), fun hn => ?_⟩
    rw [replay_completed_self h.2 rfl hn, lookup_publish, if_pos rfl]
    rfl
  | updateRow id patch current name hash now =>
    cases hu
    have hcur := hsync.2 current rfl
    exact ⟨fun _ => ⟨h, applies_updateRow hf (h.symm.trans hcur)⟩, fun hn => (by cases hn)⟩
  | reindex id patch current r => exact ⟨fun _ => h, fun hn => (by cases hn)⟩
  | publish id patch current r pc hpc =>
    cases hu
    have happ := h.2
    refine ⟨fun hn => ?_, fun hn => ?_⟩
    · rw [hpc] at hn ⊢
      split_ifs at hn ⊢
      · cases hn
      · exact happ
    · rw [replay_completed_self happ rfl hn, lookup_publish, if_pos rfl]
      rfl
  | sweepUpdate id patch r b hb pc pc' st' hsw q hq =>
    cases hu
    have happ : Applies s.log u (.updateUser u patch (.sweeping r pc)) := h
    refine ⟨fun hn => ?_, fun hn => ?_⟩
    · rw [hq] at hn ⊢
      split_ifs at hn ⊢
      · cases hn
      · exact happ
    · rw [replay_completed_self happ rfl hn, (users_of_sweepStep hsw).1]
      exact hsync.1.symm.trans hsync.2
  | sweepDelete id b hb pc pc' st' hsw q hq =>
    rw [(users_of_sweepStep hsw).1, hq]
    split_ifs
    · exact ⟨fun _ => h, fun hn => (by cases hn)⟩
    · exact ⟨fun _ => h, fun hn => (by cases hn)⟩
  | deleteRow id =>
    cases hu
    exact ⟨fun _ => ⟨h, _, rfl, rfl, fun r hr => (by cases hr)⟩, fun hn => (by cases hn)⟩
  | unindex id => exact ⟨fun _ => h, fun hn => (by cases hn)⟩
  | remove id =>
    cases hu
    refine ⟨fun hn => (by cases hn), fun hn => ?_⟩
    rw [replay_completed_self h.2 rfl hn, lookup_remove, if_pos rfl]
    rfl
  | passwordRow id p current hash now =>
    cases hu
    have hcur := hsync.2 current rfl
    exact ⟨fun _ => ⟨h, applies_password (h.symm.trans hcur)⟩, fun hn => (by cases hn)⟩
  | password id p current hash now =>
    cases hu
    obtain ⟨q, hq, -⟩ := map_core_eq_some (hsync.2 current rfl)
    refine ⟨fun hn => (by cases hn), fun hn => ?_⟩
    rw [replay_completed_self h.2 rfl hn, lookup_changeUser, if_pos rfl, hq]
    rfl
  | loginRow id now => cases hu
  | login id now => cases hu
  | key b hb c c' keys hposs hc =>
    refine ⟨fun _ => h, fun _ => ?_⟩
    rw [completed_of_before rfl, List.append_nil]
    exact h

/-- **A step of a call** keeps the log. -/
theorem logOk_move (hsy : Synced s) (h : LogOk s) (hi : s.calls.lookup i = some c)
    (hm : Move cfg s a c st' c') (hf : Formed c') :
    LogOk ⟨st', s.calls.insert i c', s.log ++ completed c c'⟩ := by
  have hmove : ∀ u, held c = some u → Logged s.store.users s.log u (some c) →
      (held c' = some u → Logged st'.users s.log u (some c')) ∧
      (held c' = none → (st'.users.lookup u).map UserRecord.core = replay (s.log ++ completed c c') u) :=
    fun u hu hl => hl.move (hsy.sync u (some c) ⟨hu, i, hi⟩) (h.formed i c hi) hm hu
  refine ⟨?_, sensible_completed h.sensible fun u hu hst => ?_, formed_insert h hf⟩
  · refine forall_on_move hsy.exclusive hi hm h.logged
      (fun v o hv _ hl => hl.frame (users_frame hm hv) (replay_completed s.log hv)) (fun u hu hu' hl => ?_)
      (fun u hu hn hl => (hmove u hu hl).2 hn) ?_
    · rw [completed_of_held hu', List.append_nil]
      exact (hmove u hu hl).1 hu'
    · rintro n p role t b name r rfl rfl rfl - hl
      rw [completed_of_before rfl, List.append_nil]
      exact ⟨hl, applies_created⟩
  · exact (h.logged u (some c) ⟨hu, i, hi⟩).applies hst

end log

/-! ### At rest -/

/-- The call has returned. -/
def returned : Call → Bool
  | .createUser _ _ _ _ _ (.done _) | .updateUser _ _ (.done _) | .deleteUser _ (.done _)
  | .setUserPassword _ _ (.done _) | .recordLogin _ .done => true
  | .key (.authorizeRecord _ (.done _)) | .key (.createIn _ _ _ (.failed _)) | .key (.createIn _ _ _ (.done _ _))
  | .key (.delete _ (.failed _)) | .key (.delete _ (.done _)) => true
  | .key (.disableKeysForOwner _ pc) => isOver pc
  | _ => false

def Quiescent (s : State) : Prop := ∀ c ∈ values s.calls, returned c = true

/-- Memory and table agree on every user, up to time stamps. -/
def TablesAgree (st : Store) : Prop :=
  ∀ u, (st.users.lookup u).map UserRecord.core = (st.userRows.lookup u).map UserRecord.core

/-- The index has every user under its name, and nothing else. -/
def IndexExact (st : Store) : Prop :=
  ∀ n u, st.usernames.lookup n = some u ↔ ∃ r, st.users.lookup u = some r ∧ r.username = n

/-- A field that a completed change has set still has its value, unless a later one has set it or deleted
the user. -/
def Kept (s : State) : Prop :=
  ∀ pre ch post f, s.log = pre ++ ch :: post → f ∈ fields ch.what →
    (∀ ch' ∈ post, ch'.user = ch.user → ¬ Overrides ch' f) →
    ∃ r, s.store.users.lookup ch.user = some r ∧ Has r f

/-- A call on a user begins when no call on that user is under way, and the process does not restart. -/
def Orderly (s : State) (l : Label) : Prop := Serial s l ∧ l ≠ .restart

instance (s : State) : Decidable (Quiescent s) := inferInstanceAs (Decidable (∀ c ∈ values s.calls, _))

instance (s : State) (l : Label) : Decidable (Orderly s l) := inferInstanceAs (Decidable (_ ∧ _))

section rest

variable {cfg : Config} {s s' : State} {c : Call} {u : String}

theorem held_of_returned (h : returned c = true) : held c = none := by
  cases c with
  | createUser n p role t b pc => cases pc <;> first | rfl | cases h
  | updateUser id patch pc => cases pc <;> first | rfl | cases h
  | deleteUser id pc => cases pc <;> first | rfl | cases h
  | setUserPassword id p pc => cases pc <;> first | rfl | cases h
  | recordLogin id pc => rfl
  | key c =>
    cases c with
    | authorizeRecord token pc => rfl
    | createIn tenantId owner name pc => cases pc <;> first | rfl | cases h
    | delete id pc => rfl
    | disableKeysForOwner owner pc =>
      simp only [returned] at h
      simp [held, h]

theorem on_none_of_quiescent (h : Quiescent s) (u : String) : On held s.calls u none := by
  intro i c hi hu
  rw [held_of_returned (h c ((mem_values _ _).mpr ⟨i, hi⟩))] at hu
  cases hu

theorem indexExact_of_quiescent (hsy : Synced s) (hix : IndexOk s) (hq : Quiescent s) :
    IndexExact s.store := by
  have hnone := on_none_of_quiescent hq
  intro n u
  have hsame : Same s.store u := hsy.sync u none (hnone u)
  constructor
  · intro hn
    rcases hix.sound n u hn with ⟨q, hq, hqn⟩ | ⟨i, c, hi, hc, -⟩
    · unfold Same at hsame
      rw [hq] at hsame
      obtain ⟨r, hr, he⟩ := map_core_eq_some hsame.symm
      exact ⟨r, hr, (UserRecord.eq_of_core he).2.2.1.trans hqn⟩
    · exact absurd hc (hnone u i c hi)
  · rintro ⟨r, hr, rfl⟩
    unfold Same at hsame
    rw [hr] at hsame
    obtain ⟨q, hq, he⟩ := map_core_eq_some hsame
    rw [← (UserRecord.eq_of_core he).2.2.1]
    exact hix.filed u none (hnone u) q hq

theorem overrides_created {ch : Change} {r : UserRecord} (h : ch.what = .created r) (f : Field) :
    Overrides ch f := by
  refine Or.inr ?_
  rw [h]
  cases f with
  | username => exact ⟨.username r.username, by simp [fields], rfl⟩
  | role => exact ⟨.role r.role, by simp [fields], rfl⟩
  | tenantId => exact ⟨.tenantId r.tenantId, by simp [fields], rfl⟩
  | enabled => exact ⟨.enabled r.enabled, by simp [fields], rfl⟩
  | passwordHash => exact ⟨.passwordHash r.passwordHash, by simp [fields], rfl⟩

/-- What a change has set stays in the replay. -/
theorem has_replay {pre : List Change} {ch : Change} {f : Field} {r : UserRecord}
    (hr : apply ch.what (replay pre ch.user) = some r) (hf : Has r f) :
    ∀ post : List Change, (∀ ch' ∈ post, ch'.user = ch.user → ¬ Overrides ch' f) →
      ∃ q, replay (pre ++ ch :: post) ch.user = some q ∧ Has q f := by
  intro post
  induction post using List.reverseRecOn with
  | nil =>
    intro _
    rw [replay_append, if_pos rfl]
    exact ⟨r, hr, hf⟩
  | append_singleton post e ih =>
    intro hpost
    obtain ⟨q, hq, hqf⟩ := ih fun ch' hch' => hpost ch' (by simp [hch'])
    rw [← List.cons_append, ← List.append_assoc, replay_append]
    split_ifs with he
    · have hno := hpost e (by simp) he
      refine has_apply hq hqf (fun hd => hno (Or.inl hd)) (fun r' hc => hno (overrides_created hc f)) ?_
      intro g hg
      exact Bool.eq_false_iff.mpr fun hsame => hno (Or.inr ⟨g, hg, hsame⟩)
    · exact ⟨q, hq, hqf⟩

theorem has_of_core {r : UserRecord} {f : Field} (h : Has r.core f) : Has r f := by
  cases f <;> exact h

theorem kept_of_quiescent (hlog : LogOk s) (hq : Quiescent s) : Kept s := by
  intro pre ch post f hsplit hf hpost
  have hd : ch.what ≠ .deleted := by
    intro hd
    rw [hd] at hf
    cases hf
  obtain ⟨r, hr, hall⟩ := hlog.sensible pre ch post hsplit hd
  obtain ⟨q, hq', hqf⟩ := has_replay hr (hall f hf) post hpost
  have hmem : (s.store.users.lookup ch.user).map UserRecord.core = replay s.log ch.user :=
    hlog.logged ch.user none (on_none_of_quiescent hq ch.user)
  rw [hsplit, hq'] at hmem
  obtain ⟨x, hx, rfl⟩ := Option.map_eq_some_iff.mp hmem
  exact ⟨x, hx, has_of_core hqf⟩

theorem orderly_step {l : Label} (h : Synced s ∧ IndexOk s ∧ LogOk s) (hC : Orderly s l)
    (hs : step cfg s l = some s') : Synced s' ∧ IndexOk s' ∧ LogOk s' := by
  obtain ⟨hsy, hix, hlog⟩ := h
  refine ⟨synced_step hsy hC.1 hs, ?_⟩
  rcases step_cases hs with ⟨i, request, rfl, hi, rfl⟩ | ⟨i, a, c, st', c', -, hi, hm, hc, rfl⟩ | ⟨hl, -⟩
  · exact ⟨indexOk_start hix hi hC.1, logOk_start hlog hi hC.1⟩
  · exact ⟨indexOk_move hsy hix _ hi hm, logOk_move hsy hlog hi hm (formed_step (hlog.formed i c hi) hc)⟩
  · exact absurd hl hC.2

theorem indexOk_init : IndexOk init := by
  refine ⟨fun _ _ _ _ h => (by cases h), forall_on_empty fun u => ?_, fun _ _ h => (by cases h)⟩
  exact fun _ h => (by cases h)

theorem logOk_init : LogOk init := by
  refine ⟨forall_on_empty fun _ => rfl, fun pre ch post h => ?_, fun _ _ h => (by cases h)⟩
  exact absurd h (by simp [init])

end rest

/-- **No lost update.** If no call on a user begins while another one on that user is under way, then
whatever the other calls do between its steps, when every call has returned memory and table agree, the
index of usernames is exact, and every change is still there that no later one has overridden. -/
theorem no_lost_update (cfg : Config) (ls : List Label) (s : State) (hs : run (step cfg) init ls = some s)
    (hC : AllSteps (step cfg) Orderly init ls) (hq : Quiescent s) :
    TablesAgree s.store ∧ IndexExact s.store ∧ Kept s := by
  obtain ⟨hsy, hix, hlog⟩ := run_invariant_of (fun s l s' h hC hs => orderly_step h hC hs) ls init s
    ⟨synced_init, indexOk_init, logOk_init⟩ hC hs
  refine ⟨fun u => ?_, indexExact_of_quiescent hsy hix hq, kept_of_quiescent hlog hq⟩
  exact (hsy.sync u none (on_none_of_quiescent hq u)).symm

/-! ### Two runs -/

/-- `set_user_password` begins, and has read the user. -/
def readsUser : List Label := [.start 1 (.setUserPassword "u1" "battery staple"), .step 1 .silent]

/-- It writes the row, then memory. -/
def writesPassword : List Label := [.step 1 (.written "" "h2" 2), .step 1 (.clock 2)]

/-- `update_user` disables the user. -/
def disables : List Label :=
  [.start 2 (.updateUser "u1" ⟨none, none, none, some false, none⟩), .step 2 .silent,
    .step 2 (.tenant (some true)), .step 2 .silent, .step 2 (.written "" "" 3), .step 2 .silent,
    .step 2 .silent, .step 2 (.key .silent)]

/-- The user logs in. -/
def logsIn : List Label :=
  [.start 3 (.recordLogin "u1"), .step 3 (.clock 4), .step 3 (.written "" "" 4), .step 3 .silent]

/-- One after the other, with a login in between, the two changes are both there. -/
theorem no_lost_update_serial : ∃ s, run (step Revocation.exampleConfig) init
    (createsUser ++ readsUser ++ logsIn ++ writesPassword ++ disables) = some s ∧
    (TablesAgree s.store ∧ IndexExact s.store ∧ Kept s) ∧
    (s.store.users.lookup "u1").map (fun u => (u.enabled, u.passwordHash)) = some (false, "h2") := by
  obtain ⟨s, hs, hq, hu⟩ := exists_run (step Revocation.exampleConfig) init
    (createsUser ++ readsUser ++ logsIn ++ writesPassword ++ disables) (fun s => Quiescent s ∧
      (s.store.users.lookup "u1").map (fun u => (u.enabled, u.passwordHash)) = some (false, "h2"))
    (by decide +kernel)
  exact ⟨s, hs, no_lost_update Revocation.exampleConfig _ s hs (by decide +kernel) hq, hu⟩

/-- The user is disabled while a call of `set_user_password` is under way. When both have returned, the
user is enabled in memory, though not in the table. -/
theorem update_lost : ∃ s, run (step Revocation.exampleConfig) init
    (createsUser ++ readsUser ++ disables ++ writesPassword) = some s ∧ Quiescent s ∧
    ¬ TablesAgree s.store ∧ ¬ Kept s ∧
    (s.store.users.lookup "u1").map UserRecord.enabled = some true ∧
    (s.store.userRows.lookup "u1").map UserRecord.enabled = some false := by
  obtain ⟨s, hs, hq, hlog, hu, hrow⟩ := exists_run (step Revocation.exampleConfig) init
    (createsUser ++ readsUser ++ disables ++ writesPassword) (fun s => Quiescent s ∧
      s.log.drop 1 = [⟨"u1", .set [.enabled false]⟩, ⟨"u1", .set [.passwordHash "h2"]⟩] ∧
      (s.store.users.lookup "u1").map UserRecord.enabled = some true ∧
      (s.store.userRows.lookup "u1").map UserRecord.enabled = some false)
    (by decide +kernel)
  refine ⟨s, hs, hq, fun h => ?_, fun h => ?_, hu, hrow⟩
  · have hcore : ∀ o : Option UserRecord, (o.map UserRecord.core).map UserRecord.enabled =
        o.map UserRecord.enabled := fun o => by cases o <;> rfl
    have := congrArg (Option.map UserRecord.enabled) (h "u1")
    rw [hcore, hcore, hu, hrow] at this
    cases this
  · have hsplit : s.log = s.log.take 1 ++ ⟨"u1", .set [.enabled false]⟩ ::
        [⟨"u1", .set [.passwordHash "h2"]⟩] := by
      rw [← hlog, List.take_append_drop]
    obtain ⟨r, hr, hf⟩ := h _ _ _ (.enabled false) hsplit (List.mem_singleton.mpr rfl) (by
      intro ch' hch'
      cases List.mem_singleton.mp hch'
      simp [Overrides, fields, Field.same])
    rw [hr] at hu
    exact absurd (hf.symm.trans (Option.some.inj hu)) (by decide)

end HomeLlmGateway.Storage.UserUpdates
