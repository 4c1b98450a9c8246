import HomeLlmGateway.Storage.Sessions

/-! # Sessions in memory and in the table

What a step of a call on sessions can do (`Effect`), and what is known of memory and table at every time
(`Tables`): a row that is not in memory belongs to a login under way or has expired. So a start loads nothing
but what memory had or was about to get (`loaded`). -/

namespace HomeLlmGateway.Storage.SessionTables

open HomeLlmGateway.Lib.Assoc
open HomeLlmGateway.Storage.Keys (Config)
open HomeLlmGateway.Storage.Sessions

/-! ### What a call on sessions can do -/

/-- The user that a login has read, after so many changes, while its session is not yet in memory. -/
def reading : Call → Option (String × ℕ)
  | .login _ _ _ (.verifying (some user) seen)
  | .login _ _ _ (.checkingTenant user seen) => some (user.id, seen)
  | .login _ _ _ (.creating userId seen) | .login _ _ _ (.inserting userId seen) => some (userId, seen)
  | .login _ _ _ (.publishing record seen) => some (record.userId, seen)
  | _ => none

/-- The session that a login has put into the table and not yet into memory. -/
def inFlight : Call → Option (SessionRecord × ℕ)
  | .login _ _ _ (.publishing record seen) => some (record, seen)
  | _ => none

/-- The hashes whose rows are deleted, or belong to sessions that have expired. -/
def doomed (cfg : Config) : Call → List String
  | .revokeSession token .removing => [cfg.lookupOf token]
  | .revokeUserSessions _ _ (.removing hashes) => hashes
  | .pruneExpiredSessions (.deletingRows hashes) | .pruneExpiredSessions (.removing hashes) => hashes
  | _ => []

/-- A session is revoked and its row is not deleted. -/
def fails (cfg : Config) : Call → Answer → Bool
  | .revokeSession token .deletingRow, .deleted failed => cfg.lookupOf token ∈ failed
  | .revokeUserSessions _ _ (.deletingRows hashes), .deleted failed => hashes.any (· ∈ failed)
  | _, _ => false

/-- What a step of a call does to the store. -/
inductive Effect (cfg : Config) (s : State) : Call → Store → Call → Prop
  /-- it reads or checks something, or returns -/
  | pass (c c' : Call)
      (hread : reading c' = none ∨ reading c' = reading c ∨
        ∃ u, reading c' = some (u, s.history.changes.length))
      (hf : inFlight c = none) (hf' : inFlight c' = none)
      (hd : ∀ h ∈ doomed cfg c', ∃ r, s.store.sessions.lookup h = some r ∧ r.expiresAt ≤ s.clock) :
      Effect cfg s c s.store c'
  | insertRow (u p : String) (ttl seen : ℕ) (r : SessionRecord) (hfresh : freshHash cfg s r.tokenHash = true) :
      Effect cfg s (.login u p ttl (.inserting r.userId seen))
        { s.store with rows := s.store.rows.insert r.tokenHash r } (.login u p ttl (.publishing r seen))
  | publish (u p : String) (ttl seen : ℕ) (r : SessionRecord) :
      Effect cfg s (.login u p ttl (.publishing r seen))
        { s.store with sessions := s.store.sessions.insert r.tokenHash r } (.login u p ttl (.done (.ok r)))
  | deleteRows (c c' : Call) (hashes failed : List String) (hread : reading c' = none) (hf : inFlight c = none)
      (hf' : inFlight c' = none)
      (hd : ∀ h ∈ doomed cfg c', h ∈ doomed cfg c ∨ (h ∈ hashes ∧ h ∉ failed)) :
      Effect cfg s c (s.store.deleteRows hashes failed) c'
  | remove (c c' : Call) (hashes : List String) (hread : reading c' = none) (hf : inFlight c = none)
      (hf' : inFlight c' = none) (hd : ∀ h ∈ hashes, h ∈ doomed cfg c) (hd' : doomed cfg c' = []) :
      Effect cfg s c (s.store.removeAll hashes) c'

section calls

variable {cfg : Config} {s : State} {st' : Store} {a : Answer} {c c' : Call}

theorem mem_hashesWhere {p : String → SessionRecord → Bool} {sessions : HashMap String SessionRecord}
    {h : String} : h ∈ hashesWhere p sessions ↔ ∃ r, sessions.lookup h = some r ∧ p h r = true := by
  simp only [hashesWhere, List.mem_map, List.mem_filter]
  constructor
  · rintro ⟨⟨h', r⟩, ⟨hm, hp⟩, rfl⟩
    exact ⟨r, (mem_entries_iff _ _ _).mp hm, hp⟩
  · rintro ⟨r, hr, hp⟩
    exact ⟨⟨h, r⟩, ⟨(mem_entries_iff _ _ _).mpr hr, hp⟩, rfl⟩

theorem effect_login {u p : String} {ttl : ℕ} {pc pc' : LoginPc}
    (hposs : possible cfg s (.login u p ttl pc) a = true)
    (h : loginStep cfg s.accounts.store s.store s.clock s.history.changes.length a u p ttl pc =
      some (st', pc')) :
    Effect cfg s (.login u p ttl pc) st' (.login u p ttl pc') := by
  have hpass : ∀ {pc pc' : LoginPc}, inFlight (.login u p ttl pc) = none →
      inFlight (.login u p ttl pc') = none →
      (reading (.login u p ttl pc') = none ∨ reading (.login u p ttl pc') = reading (.login u p ttl pc) ∨
        ∃ v, reading (.login u p ttl pc') = some (v, s.history.changes.length)) →
      Effect cfg s (.login u p ttl pc) s.store (.login u p ttl pc') := by
    intro pc pc' hf hf' hr
    exact .pass _ _ hr hf hf' (by simp [doomed])
  cases pc with
  | start =>
    cases h
    refine hpass rfl rfl ?_
    cases userByUsername s.accounts.store u with
    | none => exact Or.inl rfl
    | some user => exact Or.inr (Or.inr ⟨user.id, rfl⟩)
  | verifying user seen =>
    cases user with
    | none =>
      cases h
      exact hpass rfl rfl (Or.inl rfl)
    | some user =>
      simp only [loginStep] at h
      split_ifs at h <;> cases h
      · exact hpass rfl rfl (Or.inl rfl)
      · unfold afterPassword
        split_ifs
        · exact hpass rfl rfl (Or.inr (Or.inl rfl))
        · exact hpass rfl rfl (Or.inr (Or.inl rfl))
  | checkingTenant user seen =>
    simp only [loginStep] at h
    split at h <;> cases h
    · exact hpass rfl rfl (Or.inl rfl)
    · exact hpass rfl rfl (Or.inl rfl)
    · exact hpass rfl rfl (Or.inr (Or.inl rfl))
  | creating userId seen =>
    simp only [loginStep] at h
    split at h
    · cases h
      exact hpass rfl rfl (Or.inl rfl)
    · split_ifs at h <;> cases h
      · exact hpass rfl rfl (Or.inl rfl)
      · exact hpass rfl rfl (Or.inr (Or.inl rfl))
  | inserting userId seen =>
    simp only [loginStep] at h
    split at h <;> cases h
    · exact .insertRow u p ttl seen ⟨_, userId, _, _, _⟩ hposs
    · exact hpass rfl rfl (Or.inl rfl)
  | publishing r seen =>
    cases h
    exact .publish u p ttl seen r
  | done r => cases h

theorem effect_revoke {token : String} {pc pc' : RevokePc}
    (hok : fails cfg (.revokeSession token pc) a = false)
    (h : revokeStep s.store (cfg.lookupOf token) a pc = some (st', pc')) :
    Effect cfg s (.revokeSession token pc) st' (.revokeSession token pc') := by
  cases pc with
  | deletingRow =>
    simp only [revokeStep] at h
    split at h <;> cases h
    refine .deleteRows _ _ _ _ rfl rfl rfl fun h hh => Or.inr ⟨hh, ?_⟩
    simp only [doomed, List.mem_singleton] at hh
    subst hh
    simpa [fails] using hok
  | removing =>
    cases h
    exact .remove _ _ _ rfl rfl rfl (fun h hh => hh) rfl
  | done found => cases h

theorem effect_revokeUser {user : String} {keep : Option String} {pc pc' : RemovePc}
    (hok : fails cfg (.revokeUserSessions user keep pc) a = false)
    (h : revokeUserSessionsStep s.store user keep a pc = some (st', pc')) :
    Effect cfg s (.revokeUserSessions user keep pc) st' (.revokeUserSessions user keep pc') := by
  cases pc with
  | start =>
    cases h
    refine .pass _ _ (Or.inl rfl) rfl rfl fun h hh => ?_
    split_ifs at hh <;> cases hh
  | deletingRows hashes =>
    simp only [revokeUserSessionsStep, removeStep] at h
    split at h <;> cases h
    refine .deleteRows _ _ _ _ rfl rfl rfl fun h hh => Or.inr ⟨hh, ?_⟩
    simp only [fails, List.any_eq_false, decide_eq_true_eq] at hok
    exact hok h hh
  | removing hashes =>
    cases h
    exact .remove _ _ _ rfl rfl rfl (fun h hh => hh) rfl
  | done n => cases h

theorem effect_prune {pc pc' : RemovePc} (h : pruneExpiredSessionsStep s.store s.clock a pc = some (st', pc')) :
    Effect cfg s (.pruneExpiredSessions pc) st' (.pruneExpiredSessions pc') := by
  cases pc with
  | start =>
    cases h
    refine .pass _ _ (Or.inl rfl) rfl rfl fun h hh => ?_
    split_ifs at hh
    · cases hh
    · simp only [doomed, mem_hashesWhere, decide_eq_true_eq] at hh
      exact hh
  | deletingRows hashes =>
    simp only [pruneExpiredSessionsStep, removeStep] at h
    split at h <;> cases h
    exact .deleteRows _ _ _ _ rfl rfl rfl fun h hh => Or.inl hh
  | removing hashes =>
    cases h
    exact .remove _ _ _ rfl rfl rfl (fun h hh => hh) rfl
  | done n => cases h

/-- **One step of a call on sessions.** -/
theorem effect_of_callStep (hposs : possible cfg s c a = true) (hok : fails cfg c a = false)
    (h : callStep cfg s.accounts.store s.store s.clock s.history.changes.length a c = some (st', c')) :
    Effect cfg s c st' c' := by
  cases c with
  | login u p ttl pc =>
    obtain ⟨⟨st1, pc1⟩, h1, he⟩ := Option.map_eq_some_iff.mp h
    cases he
    exact effect_login hposs h1
  | revokeSession token pc =>
    obtain ⟨⟨st1, pc1⟩, h1, he⟩ := Option.map_eq_some_iff.mp h
    cases he
    exact effect_revoke hok h1
  | revokeUserSessions user keep pc =>
    obtain ⟨⟨st1, pc1⟩, h1, he⟩ := Option.map_eq_some_iff.mp h
    cases he
    exact effect_revokeUser hok h1
  | pruneExpiredSessions pc =>
    obtain ⟨⟨st1, pc1⟩, h1, he⟩ := Option.map_eq_some_iff.mp h
    cases he
    exact effect_prune h1

end calls

/-! ### Memory and table -/

/-- What is known of the sessions in memory and in the table, of the calls under way and of the logins so
far. -/
structure Tables (cfg : Config) (st : Store) (clock : ℕ) (calls : HashMap (ℕ ⊕ ℕ) Call)
    (opened : List Opening) : Prop where
  agree : ∀ h r r', st.sessions.lookup h = some r → st.rows.lookup h = some r' → r' = r
  /-- a row that is not in memory has expired, or is about to get there -/
  covered : ∀ h r, st.rows.lookup h = some r → (st.sessions.lookup h).isSome ∨
    (∃ slot c r' n, calls.lookup slot = some c ∧ inFlight c = some (r', n) ∧ r'.tokenHash = h) ∨
    r.expiresAt ≤ clock
  flight : ∀ slot c r n r', calls.lookup slot = some c → inFlight c = some (r, n) →
    st.rows.lookup r.tokenHash = some r' → r' = r
  deleted : ∀ slot c h r, calls.lookup slot = some c → h ∈ doomed cfg c → st.rows.lookup h = some r →
    r.expiresAt ≤ clock
  openings : ∀ o ∈ opened, ∀ r, st.sessions.lookup o.hash = some r → r.userId = o.user
  openingsFlight : ∀ o ∈ opened, ∀ slot c r n, calls.lookup slot = some c → inFlight c = some (r, n) →
    r.tokenHash = o.hash → r.userId = o.user ∧ n = o.seen

section tables

variable {cfg : Config} {s : State} {st st' : Store} {clock : ℕ} {calls : HashMap (ℕ ⊕ ℕ) Call}
  {opened : List Opening} {slot : ℕ ⊕ ℕ} {c c' : Call}

theorem flight_insert (hold : ∀ c, calls.lookup slot = some c → inFlight c = none) {slot' : ℕ ⊕ ℕ} {d : Call}
    {x : SessionRecord × ℕ} (hd : calls.lookup slot' = some d) (hx : inFlight d = some x) :
    (calls.insert slot c').lookup slot' = some d := by
  rw [lookup_insert, if_neg]
  · exact hd
  · rintro rfl
    rw [hold d hd] at hx
    cases hx

theorem Tables.frame (h : Tables cfg st clock calls opened) (hsess : st'.sessions = st.sessions)
    (hrows : ∀ h r, st'.rows.lookup h = some r → st.rows.lookup h = some r)
    (hold : ∀ c, calls.lookup slot = some c → inFlight c = none) (hf' : inFlight c' = none)
    (hd : ∀ h ∈ doomed cfg c', ∀ r, st'.rows.lookup h = some r → r.expiresAt ≤ clock) :
    Tables cfg st' clock (calls.insert slot c') opened := by
  have hback : ∀ {slot' d x}, (calls.insert slot c').lookup slot' = some d → inFlight d = some x →
      calls.lookup slot' = some d := by
    intro slot' d x hd' hx
    rw [lookup_insert] at hd'
    split_ifs at hd'
    · cases hd'
      rw [hf'] at hx
      cases hx
    · exact hd'
  refine ⟨?_, ?_, ?_, ?_, ?_, ?_⟩
  · intro k r r' hr hr'
    exact h.agree k r r' (hsess ▸ hr) (hrows k r' hr')
  · intro k r hr
    rw [hsess]
    rcases h.covered k r (hrows k r hr) with h1 | ⟨slot', d, r', n, hd', hx, hk⟩ | h1
    · exact Or.inl h1
    · exact Or.inr (Or.inl ⟨slot', d, r', n, flight_insert hold hd' hx, hx, hk⟩)
    · exact Or.inr (Or.inr h1)
  · intro slot' d r n r' hd' hx hr'
    exact h.flight slot' d r n r' (hback hd' hx) hx (hrows _ _ hr')
  · intro slot' d k r hd' hk hr
    rw [lookup_insert] at hd'
    split_ifs at hd'
    · cases hd'
      exact hd k hk r hr
    · exact h.deleted slot' d k r hd' hk (hrows k r hr)
  · intro o ho r hr
    exact h.openings o ho r (hsess ▸ hr)
  · intro o ho slot' d r n hd' hx
    exact h.openingsFlight o ho slot' d r n (hback hd' hx) hx

theorem not_named_of_fresh {h : String} (hf : freshHash cfg s h = true) {slot : ℕ ⊕ ℕ} {c : Call}
    (hc : s.calls.lookup slot = some c) : h ∉ named cfg c := by
  simp only [freshHash, Bool.and_eq_true, List.all_eq_true, decide_eq_true_eq] at hf
  exact hf.1.2 c ((mem_values _ _).mpr ⟨slot, hc⟩)

theorem named_of_inFlight {r : SessionRecord} {n : ℕ} (h : inFlight c = some (r, n)) :
    r.tokenHash ∈ named cfg c := by
  cases c with
  | login u p ttl pc =>
    cases pc with
    | publishing r' seen =>
      cases h
      simp [named]
    | start | verifying | checkingTenant | creating | inserting | done => cases h
  | revokeSession | revokeUserSessions | pruneExpiredSessions => cases h

theorem named_of_doomed {h : String} (hd : h ∈ doomed cfg c) : h ∈ named cfg c := by
  cases c with
  | login u p ttl pc => cases hd
  | revokeSession token pc => cases pc <;> first | exact hd | cases hd
  | revokeUserSessions user keep pc => cases pc <;> first | exact hd | cases hd
  | pruneExpiredSessions pc => cases pc <;> exact hd

theorem tables_insertRow (h : Tables cfg s.store s.clock s.calls s.history.opened) {u p : String}
    {ttl seen : ℕ}
    {r : SessionRecord} (hi : s.calls.lookup slot = some (.login u p ttl (.inserting r.userId seen)))
    (hfresh : freshHash cfg s r.tokenHash = true) :
    Tables cfg { s.store with rows := s.store.rows.insert r.tokenHash r } s.clock
      (s.calls.insert slot (.login u p ttl (.publishing r seen)))
      (s.history.opened ++ [⟨r.tokenHash, r.userId, seen⟩]) := by
  have hnew := hfresh
  simp only [freshHash, Bool.and_eq_true, List.all_eq_true, decide_eq_true_eq,
    Option.isNone_iff_eq_none] at hnew
  obtain ⟨⟨⟨hsess, hrow⟩, -⟩, hopen⟩ := hnew
  have hnamed : ∀ {slot' d}, s.calls.lookup slot' = some d → r.tokenHash ∉ named cfg d :=
    fun hd => not_named_of_fresh hfresh hd
  have hold : ∀ c, s.calls.lookup slot = some c → inFlight c = none := by
    intro c hc
    rw [hi] at hc
    cases hc
    rfl
  refine ⟨?_, ?_, ?_, ?_, ?_, ?_⟩
  · intro k r1 r2 h1 h2
    rw [lookup_insert] at h2
    split_ifs at h2 with hk
    · rw [hk, hsess] at h1
      cases h1
    · exact h.agree k r1 r2 h1 h2
  · intro k r1 h1
    rw [lookup_insert] at h1
    split_ifs at h1 with hk
    · exact Or.inr (Or.inl ⟨slot, _, r, seen, by rw [lookup_insert, if_pos rfl], rfl, hk.symm⟩)
    · rcases h.covered k r1 h1 with h2 | ⟨slot', d, r', n, hd', hx, hk'⟩ | h2
      · exact Or.inl h2
      · exact Or.inr (Or.inl ⟨slot', d, r', n, flight_insert hold hd' hx, hx, hk'⟩)
      · exact Or.inr (Or.inr h2)
  · intro slot' d r1 n r2 hd hx h2
    rw [lookup_insert] at hd h2
    split_ifs at hd h2 with hs hk hk
    · cases hd
      cases hx
      exact (Option.some.inj h2).symm
    · cases hd
      cases hx
      exact absurd rfl hk
    · exact absurd (hk ▸ named_of_inFlight hx) (hnamed hd)
    · exact h.flight slot' d r1 n r2 hd hx h2
  · intro slot' d k r1 hd hk h1
    rw [lookup_insert] at hd h1
    split_ifs at hd h1 with hs hk1 hk1
    · cases hd
      cases hk
    · cases hd
      cases hk
    · exact absurd (hk1 ▸ named_of_doomed hk) (hnamed hd)
    · exact h.deleted slot' d k r1 hd hk h1
  · intro o ho r1 h1
    rcases List.mem_append.mp ho with ho | ho
    · exact h.openings o ho r1 h1
    · simp only [List.mem_singleton] at ho
      subst ho
      rw [hsess] at h1
      cases h1
  · intro o ho slot' d r1 n hd hx hk
    rw [lookup_insert] at hd
    rcases List.mem_append.mp ho with ho | ho
    · split_ifs at hd with hs
      · cases hd
        cases hx
        exact absurd hk.symm (hopen o ho)
      · exact h.openingsFlight o ho slot' d r1 n hd hx hk
    · simp only [List.mem_singleton] at ho
      subst ho
      split_ifs at hd with hs
      · cases hd
        cases hx
        exact ⟨rfl, rfl⟩
      · have hk' : r1.tokenHash = r.tokenHash := hk
        exact absurd (hk' ▸ named_of_inFlight hx) (hnamed hd)

theorem tables_publish (h : Tables cfg st clock calls opened) {u p : String} {ttl seen : ℕ}
    {r : SessionRecord} (hi : calls.lookup slot = some (.login u p ttl (.publishing r seen))) :
    Tables cfg { st with sessions := st.sessions.insert r.tokenHash r } clock
      (calls.insert slot (.login u p ttl (.done (.ok r)))) opened := by
  have hback : ∀ {slot' d x}, (calls.insert slot (.login u p ttl (.done (.ok r)))).lookup slot' = some d →
      inFlight d = some x → calls.lookup slot' = some d := by
    intro slot' d x hd' hx
    rw [lookup_insert] at hd'
    split_ifs at hd'
    · cases hd'
      cases hx
    · exact hd'
  refine ⟨?_, ?_, ?_, ?_, ?_, ?_⟩
  · intro k r1 r2 h1 h2
    rw [lookup_insert] at h1
    split_ifs at h1 with hk
    · cases h1
      exact h.flight slot _ r seen r2 hi rfl (hk ▸ h2)
    · exact h.agree k r1 r2 h1 h2
  · intro k r1 h1
    rw [lookup_insert]
    split_ifs with hk
    · exact Or.inl rfl
    · rcases h.covered k r1 h1 with h2 | ⟨slot', d, r', n, hd', hx, hk'⟩ | h2
      · exact Or.inl h2
      · refine Or.inr (Or.inl ⟨slot', d, r', n, ?_, hx, hk'⟩)
        rw [lookup_insert, if_neg]
        · exact hd'
        · rintro rfl
          rw [hi] at hd'
          cases hd'
          cases hx
          exact hk hk'.symm
      · exact Or.inr (Or.inr h2)
  · intro slot' d r1 n r2 hd hx
    exact h.flight slot' d r1 n r2 (hback hd hx) hx
  · intro slot' d k r1 hd hk
    rw [lookup_insert] at hd
    split_ifs at hd with hs
    · cases hd
      cases hk
    · exact h.deleted slot' d k r1 hd hk
  · intro o ho r1 h1
    rw [lookup_insert] at h1
    split_ifs at h1 with hk
    · cases h1
      exact (h.openingsFlight o ho slot _ r seen hi rfl hk.symm).1
    · exact h.openings o ho r1 h1
  · intro o ho slot' d r1 n hd hx
    exact h.openingsFlight o ho slot' d r1 n (hback hd hx) hx

theorem opens_eq_nil (h : inFlight c' = none) : opens c c' = [] := by
  have ho : openingOf c' = none := by
    cases c' with
    | login u p ttl pc => cases pc <;> first | rfl | cases h
    | revokeSession | revokeUserSessions | pruneExpiredSessions => rfl
  simp [opens, ho]

theorem tables_remove (h : Tables cfg s.store s.clock s.calls s.history.opened) {hashes : List String}
    (hi : s.calls.lookup slot = some c) (hf : inFlight c = none) (hf' : inFlight c' = none)
    (hd : ∀ h ∈ hashes, h ∈ doomed cfg c) (hd' : doomed cfg c' = []) :
    Tables cfg (s.store.removeAll hashes) s.clock (s.calls.insert slot c') s.history.opened := by
  have hold : ∀ d, s.calls.lookup slot = some d → inFlight d = none := by
    intro d hd1
    rw [hi] at hd1
    cases hd1
    exact hf
  have hbase : Tables cfg s.store s.clock (s.calls.insert slot c') s.history.opened :=
    h.frame rfl (fun _ _ hr => hr) hold hf' (by simp [hd'])
  have hsub : ∀ {k r}, (s.store.removeAll hashes).sessions.lookup k = some r →
      s.store.sessions.lookup k = some r := by
    intro k r hr
    simp only [Store.removeAll, lookup_retain, Option.filter_eq_some_iff] at hr
    exact hr.1
  refine { hbase with agree := ?_, covered := ?_, openings := ?_ }
  · intro k r r' hr hr'
    exact hbase.agree k r r' (hsub hr) hr'
  · intro k r hr
    by_cases hk : k ∈ hashes
    · exact Or.inr (Or.inr (h.deleted slot c k r hi (hd k hk) hr))
    · rcases hbase.covered k r hr with h1 | h1
      · refine Or.inl ?_
        obtain ⟨r', hr'⟩ := Option.isSome_iff_exists.mp h1
        simp [Store.removeAll, lookup_retain, hr', hk]
      · exact Or.inr h1
  · intro o ho r hr
    exact hbase.openings o ho r (hsub hr)

/-- **One step of a call on sessions** keeps what is known. -/
theorem tables_effect (h : Tables cfg s.store s.clock s.calls s.history.opened)
    (hi : s.calls.lookup slot = some c) (he : Effect cfg s c st' c') :
    Tables cfg st' s.clock (s.calls.insert slot c') (s.history.opened ++ opens c c') := by
  have hold : inFlight c = none → ∀ d, s.calls.lookup slot = some d → inFlight d = none := by
    intro hf d hd
    rw [hi] at hd
    cases hd
    exact hf
  cases he with
  | pass _ _ hread hf hf' hd =>
    rw [opens_eq_nil hf', List.append_nil]
    refine h.frame rfl (fun _ _ hr => hr) (hold hf) hf' fun k hk r hr => ?_
    obtain ⟨r', hr', hexp⟩ := hd k hk
    rw [h.agree k r' r hr' hr]
    exact hexp
  | insertRow u p ttl seen r hfresh => exact tables_insertRow h hi hfresh
  | publish u p ttl seen r =>
    rw [opens_eq_nil rfl, List.append_nil]
    exact tables_publish h hi
  | deleteRows _ _ hashes failed hread hf hf' hd =>
    rw [opens_eq_nil hf', List.append_nil]
    have hsub : ∀ k r, (s.store.deleteRows hashes failed).rows.lookup k = some r →
        s.store.rows.lookup k = some r ∧ (k ∉ hashes ∨ k ∈ failed) := by
      intro k r hr
      simpa [Store.deleteRows, lookup_retain, Option.filter_eq_some_iff] using hr
    refine h.frame rfl (fun k r hr => (hsub k r hr).1) (hold hf) hf' fun k hk r hr => ?_
    rcases hd k hk with h1 | ⟨h1, h2⟩
    · exact h.deleted slot c k r hi h1 (hsub k r hr).1
    · exact absurd h1 ((hsub k r hr).2.resolve_right h2)
  | remove _ _ hashes hread hf hf' hd hd' =>
    rw [opens_eq_nil hf', List.append_nil]
    exact tables_remove h hi hf hf' hd hd'

theorem Tables.later (h : Tables cfg st clock calls opened) {now : ℕ} (hnow : clock ≤ now) :
    Tables cfg st now calls opened := by
  refine { h with covered := ?_, deleted := ?_ }
  · intro k r hr
    rcases h.covered k r hr with h1 | h1 | h1
    · exact Or.inl h1
    · exact Or.inr (Or.inl h1)
    · exact Or.inr (Or.inr (h1.trans hnow))
  · intro slot c k r hc hk hr
    exact (h.deleted slot c k r hc hk hr).trans hnow

/-- What is loaded at a start was in memory or about to get there. -/
theorem loaded (h : Tables cfg st clock calls opened) {k : String} {r : SessionRecord}
    (hr : (retain (fun _ r => clock < r.expiresAt) st.rows).lookup k = some r) :
    st.sessions.lookup k = some r ∨
      ∃ slot c n, calls.lookup slot = some c ∧ inFlight c = some (r, n) ∧ r.tokenHash = k := by
  simp only [lookup_retain, Option.filter_eq_some_iff, decide_eq_true_eq] at hr
  obtain ⟨hr, hexp⟩ := hr
  rcases h.covered k r hr with h1 | ⟨slot, c, r', n, hc, hx, hk⟩ | h1
  · obtain ⟨r', hr'⟩ := Option.isSome_iff_exists.mp h1
    rw [hr', h.agree k r' r hr' hr]
    exact Or.inl rfl
  · have he : r = r' := h.flight slot c r' n r hc hx (hk ▸ hr)
    subst he
    exact Or.inr ⟨slot, c, n, hc, hx, hk⟩
  · omega

theorem tables_restart (h : Tables cfg st clock calls opened) :
    Tables cfg { st with sessions := retain (fun _ r => clock < r.expiresAt) st.rows } clock ∅ opened := by
  refine ⟨?_, ?_, ?_, ?_, ?_, ?_⟩
  · intro k r r' hr hr'
    simp only [lookup_retain, Option.filter_eq_some_iff] at hr
    rw [hr.1] at hr'
    exact (Option.some.inj hr').symm
  · intro k r hr
    by_cases hexp : clock < r.expiresAt
    · left
      have hr1 : st.rows.lookup k = some r := hr
      simp [lookup_retain, hr1, hexp]
    · exact Or.inr (Or.inr (by omega))
  · intro slot c r n r' hc
    cases hc
  · intro slot c k r hc
    cases hc
  · intro o ho r hr
    rcases loaded h hr with h1 | ⟨slot, c, n, hc, hx, hk⟩
    · exact h.openings o ho r h1
    · exact (h.openingsFlight o ho slot c r n hc hx hk).1
  · intro o ho slot c r n hc
    cases hc

end tables

end HomeLlmGateway.Storage.SessionTables
