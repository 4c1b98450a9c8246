import HomeLlmGateway.Storage.Deletions
import HomeLlmGateway.Storage.SessionTables

/-! # Sessions end with what they were opened under

When a user has been disabled, deleted, or given another role, tenant or password, and the call that did so
has returned, no session opened before is accepted any more, also after a restart
(`sessions_end_with_change`), as long as

* no `DELETE` of a revoked session fails,
* no login that read the user before the change is still on its way when the sessions to revoke are collected,
* `update_user` finds the user it has read when it writes it back,
* the clock is not set back.

A login that verifies the old password and opens its session after the revocation shows that the code does not
see to it (`session_outlives_password`). -/

namespace HomeLlmGateway.Storage.SessionRevocation

open HomeLlmGateway.Lib.Runs HomeLlmGateway.Lib.Assoc HomeLlmGateway.Lib.Holding
open HomeLlmGateway.Storage.Keys (Config)
open HomeLlmGateway.Storage.Users HomeLlmGateway.Storage.Sessions
open HomeLlmGateway.Storage.UserSync (Move)
open HomeLlmGateway.Storage.Deletions HomeLlmGateway.Storage.SessionTables

/-! ### Passwords that are written back -/

/-- `update_user` writes the password that it has read, or a new one. -/
def KeepsPassword : Accounts.Call → Prop
  | .updateUser _ patch (.reindexing current updated) | .updateUser _ patch (.publishing current updated) =>
    updated.passwordHash = current.passwordHash ∨ patch.password.isSome
  | _ => True

section passwords

variable {cfg : Config} {s s' : Accounts.State} {st' : Accounts.Store} {a : Accounts.Answer}
  {c c' : Accounts.Call}

theorem keepsPassword_of_before (h : UserSync.stage c = .before) : KeepsPassword c := by
  cases c with
  | updateUser id patch pc => cases pc <;> trivial
  | createUser | deleteUser | setUserPassword | recordLogin | key => trivial

theorem keepsPassword_of_move (h : KeepsPassword c) (hm : Move cfg s a c st' c') : KeepsPassword c' := by
  cases hm with
  | wait _ _ _ _ hb' => exact keepsPassword_of_before hb'
  | leave _ _ _ _ hb' => exact keepsPassword_of_before hb'
  | updateRow id patch current name hash now hfree =>
    by_cases hp : patch.password.isSome
    · exact Or.inr hp
    · left
      simp [Accounts.updatedRecord, hp]
  | reindex id patch current r => exact h
  | publish id patch current r pc hpc =>
    subst hpc
    split_ifs <;> trivial
  | sweepUpdate id patch r b hb pc pc' st1 h1 q hq =>
    subst hq
    split_ifs <;> trivial
  | insertRow | index | created | sweepDelete | deleteRow | unindex | remove | passwordRow | password | loginRow
  | login | key => trivial

theorem keepsPassword_step {l : Accounts.Label} (h : ∀ i c, s.calls.lookup i = some c → KeepsPassword c)
    (hs : Accounts.step cfg s l = some s') : ∀ i c, s'.calls.lookup i = some c → KeepsPassword c := by
  intro j d hj
  cases l with
  | start i request =>
    simp only [Accounts.step] at hs
    split at hs <;> cases hs
    rw [lookup_insert] at hj
    split_ifs at hj
    · cases hj
      cases request <;> trivial
    · exact h j d hj
  | step i a =>
    obtain ⟨c, st', c', hi, hm, -, rfl⟩ := accounts_step_eq_some hs
    rw [lookup_insert] at hj
    split_ifs at hj
    · cases hj
      exact keepsPassword_of_move (h i c hi) hm
    · exact h j d hj
  | restart =>
    cases hs
    cases hj

end passwords

/-! ### Sessions opened before a change -/

/-- Of the sessions opened before the change `k`, only those in `hashes` are left besides the one that it
keeps, and no login that read the user before is on its way. -/
structure Within (sessions : HashMap String SessionRecord) (calls : HashMap (ℕ ⊕ ℕ) Call)
    (opened : List Opening) (ch : Change) (k : ℕ) (hashes : List String) : Prop where
  left : ∀ o ∈ opened, (sessions.lookup o.hash).isSome → o.user = ch.user → o.seen ≤ k →
    ch.keepHash = some o.hash ∨ o.hash ∈ hashes
  readers : ∀ slot c n, calls.lookup slot = some c → reading c = some (ch.user, n) → k < n

section within

variable {cfg : Config} {s : State} {st st' : Store} {clock : ℕ} {calls : HashMap (ℕ ⊕ ℕ) Call}
  {sessions sessions' : HashMap String SessionRecord} {opened : List Opening} {slot : ℕ ⊕ ℕ} {c c' : Call}
  {ch : Change} {k : ℕ} {hashes : List String}

theorem Within.mono (h : Within sessions calls opened ch k hashes)
    (hs : ∀ h r, sessions'.lookup h = some r → sessions.lookup h = some r) :
    Within sessions' calls opened ch k hashes := by
  refine ⟨fun o ho hsome hu hn => h.left o ho ?_ hu hn, h.readers⟩
  obtain ⟨r, hr⟩ := Option.isSome_iff_exists.mp hsome
  rw [hs _ r hr]
  rfl

theorem Within.insert (h : Within sessions calls opened ch k hashes)
    (hread : ∀ n, reading c' = some (ch.user, n) → k < n) :
    Within sessions (calls.insert slot c') opened ch k hashes := by
  refine ⟨h.left, fun slot' d n hd hr => ?_⟩
  rw [lookup_insert] at hd
  split_ifs at hd
  · cases hd
    exact hread n hr
  · exact h.readers slot' d n hd hr

theorem reading_of_inFlight {r : SessionRecord} {n : ℕ} (h : inFlight c = some (r, n)) :
    reading c = some (r.userId, n) := by
  cases c with
  | login u p ttl pc => cases pc <;> cases h; rfl
  | revokeSession | revokeUserSessions | pruneExpiredSessions => cases h

/-- A session in flight was opened after the change. -/
theorem Within.not_inFlight (h : Within st.sessions calls opened ch k hashes)
    (ht : Tables cfg st clock calls opened) {o : Opening} (ho : o ∈ opened) (hu : o.user = ch.user)
    (hn : o.seen ≤ k)
    {r : SessionRecord} {n : ℕ} (hc : calls.lookup slot = some c) (hx : inFlight c = some (r, n)) :
    r.tokenHash ≠ o.hash := by
  intro hk
  obtain ⟨huser, hseen⟩ := ht.openingsFlight o ho slot c r n hc hx hk
  have hread : reading c = some (ch.user, n) := by
    rw [reading_of_inFlight hx, huser, hu]
  have := h.readers slot c n hc hread
  omega

theorem within_effect (h : Within s.store.sessions s.calls s.history.opened ch k hashes)
    (ht : Tables cfg s.store s.clock s.calls s.history.opened) (hk : k < s.history.changes.length)
    (hi : s.calls.lookup slot = some c) (he : Effect cfg s c st' c') :
    Within st'.sessions (s.calls.insert slot c') (s.history.opened ++ opens c c') ch k hashes := by
  cases he with
  | pass _ _ hread hf hf' hd =>
    rw [opens_eq_nil hf', List.append_nil]
    refine h.insert fun n hn => ?_
    rcases hread with h1 | h1 | ⟨u, h1⟩
    · rw [h1] at hn
      cases hn
    · exact h.readers slot c n hi (h1 ▸ hn)
    · rw [h1] at hn
      cases hn
      exact hk
  | insertRow u p ttl seen r hfresh =>
    have hbase : Within s.store.sessions (s.calls.insert slot (.login u p ttl (.publishing r seen)))
        s.history.opened ch k hashes := h.insert fun n hn => h.readers slot _ n hi hn
    refine ⟨fun o ho hsome hu hn => ?_, hbase.readers⟩
    rcases List.mem_append.mp ho with ho | ho
    · exact hbase.left o ho hsome hu hn
    · simp only [opens, insertsRow, openingOf, if_true, Option.toList_some, List.mem_singleton] at ho
      subst ho
      simp only [freshHash, Bool.and_eq_true, Option.isNone_iff_eq_none] at hfresh
      have hnone : s.store.sessions.lookup r.tokenHash = none := hfresh.1.1.1
      rw [hnone] at hsome
      cases hsome
  | publish u p ttl seen r =>
    rw [opens_eq_nil rfl, List.append_nil]
    have hbase : Within s.store.sessions (s.calls.insert slot (.login u p ttl (.done (.ok r))))
        s.history.opened ch k hashes := h.insert fun n hn => (by cases hn)
    refine ⟨fun o ho hsome hu hn => ?_, hbase.readers⟩
    rw [lookup_insert, if_neg (Ne.symm (h.not_inFlight ht ho hu hn hi rfl))] at hsome
    exact h.left o ho hsome hu hn
  | deleteRows _ _ hashes failed hread hf hf' hd =>
    rw [opens_eq_nil hf', List.append_nil]
    exact h.insert fun n hn => (by rw [hread] at hn; cases hn)
  | remove _ _ hashes hread hf hf' hd hd' =>
    rw [opens_eq_nil hf', List.append_nil]
    refine Within.insert (h.mono fun h r hr => ?_) fun n hn => (by rw [hread] at hn; cases hn)
    simp only [Store.removeAll, lookup_retain, Option.filter_eq_some_iff] at hr
    exact hr.1

theorem within_restart (h : Within st.sessions calls opened ch k hashes)
    (ht : Tables cfg st clock calls opened) :
    Within (retain (fun _ r => clock < r.expiresAt) st.rows) ∅ opened ch k hashes := by
  refine ⟨fun o ho hsome hu hn => ?_, fun slot c n hc => (by cases hc)⟩
  obtain ⟨r, hr⟩ := Option.isSome_iff_exists.mp hsome
  rcases loaded ht hr with h1 | ⟨slot, c, n, hc, hx, hk⟩
  · refine h.left o ho ?_ hu hn
    rw [h1]
    rfl
  · exact absurd hk (h.not_inFlight ht ho hu hn hc hx)

/-- The sessions that a revocation collects are all that were opened before the change. -/
theorem within_collect (ht : Tables cfg st clock calls opened)
    (hread : ∀ slot c n, calls.lookup slot = some c → reading c = some (ch.user, n) → k < n) :
    Within st.sessions calls opened ch k
      (hashesWhere (fun h r => r.userId = ch.user && some h ≠ ch.keepHash) st.sessions) := by
  refine ⟨fun o ho hsome hu hn => ?_, hread⟩
  obtain ⟨r, hr⟩ := Option.isSome_iff_exists.mp hsome
  by_cases hkeep : ch.keepHash = some o.hash
  · exact Or.inl hkeep
  · refine Or.inr (mem_hashesWhere.mpr ⟨r, hr, ?_⟩)
    simp only [Bool.and_eq_true, decide_eq_true_eq]
    exact ⟨(ht.openings o ho r hr).trans hu, fun he => hkeep he.symm⟩

theorem within_removed (h : Within st.sessions calls opened ch k hashes) :
    Within (st.removeAll hashes).sessions calls opened ch k [] := by
  refine ⟨fun o ho hsome hu hn => Or.inl ?_, h.readers⟩
  obtain ⟨r, hr⟩ := Option.isSome_iff_exists.mp hsome
  simp only [Store.removeAll, lookup_retain, Option.filter_eq_some_iff, decide_eq_true_eq] at hr
  have hsome' : (st.sessions.lookup o.hash).isSome := by
    rw [hr.1]
    rfl
  exact (h.left o ho hsome' hu hn).resolve_right hr.2

end within

/-! ### Changes that have been made -/

/-- Nothing opened before the change `k` is accepted: the sessions are revoked, or the user is deleted. -/
def Settled (s : State) (k : ℕ) : Prop :=
  ∃ ch, s.history.changes[k]? = some ch ∧
    (Within s.store.sessions s.calls s.history.opened ch k [] ∨ Gone s.accounts ch.user)

/-- How far the revocation for the change `k` is. -/
def Collected (s : State) (ch : Change) (k : ℕ) : RemovePc → Prop
  | .start => True
  | .deletingRows hashes | .removing hashes => Within s.store.sessions s.calls s.history.opened ch k hashes
  | .done _ => False

/-- How far the call `i` is with its change. -/
def Progress (s : State) (i k : ℕ) : Prop :=
  Settled s k ∨ ∃ ch pc, s.history.changes[k]? = some ch ∧
    s.calls.lookup (.inl i) = some (.revokeUserSessions ch.user ch.keepHash pc) ∧ Collected s ch k pc

structure Inv (cfg : Config) (s : State) : Prop where
  consistent : Consistent s.accounts
  passwords : ∀ i c, s.accounts.calls.lookup i = some c → KeepsPassword c
  tables : Tables cfg s.store s.clock s.calls s.history.opened
  tickets : ∀ i k, s.history.tickets.lookup i = some k → Progress s i k
  returned : ∀ k ∈ s.history.returned, Settled s k

/-- What a step keeps of every change. -/
structure Stable (s s' : State) : Prop where
  changes : ∀ (k : ℕ) (ch : Change), s.history.changes[k]? = some ch → s'.history.changes[k]? = some ch
  within : ∀ (k : ℕ) (ch : Change) (hashes : List String), s.history.changes[k]? = some ch →
    Within s.store.sessions s.calls s.history.opened ch k hashes →
    Within s'.store.sessions s'.calls s'.history.opened ch k hashes
  gone : ∀ u, Gone s.accounts u → Gone s'.accounts u

/-- `update_user` writes over the role, the tenant and the password that it has read. -/
def writesBack (s : State) (i : ℕ) : Bool :=
  match s.accounts.calls.lookup i with
  | some (.updateUser id _ (.publishing current _)) => (s.accounts.store.users.lookup id).any fun u =>
      u.role = current.role && u.tenantId = current.tenantId && u.passwordHash = current.passwordHash
  | _ => true

/-- The sessions to revoke are collected while a login that read the user before the change is on its way. -/
def overtakes (s : State) (slot : ℕ ⊕ ℕ) : Bool :=
  match slot, s.calls.lookup slot with
  | .inl i, some (.revokeUserSessions user _ .start) => (s.history.tickets.lookup i).any fun k =>
      (values s.calls).any fun c => (reading c).any fun p => p.1 = user && p.2 ≤ k
  | _, _ => false

/-- The steps after which revoked sessions stay revoked. -/
def orderly (cfg : Config) (s : State) : Label → Bool
  | .go i _ => writesBack s i
  | .step slot a => !overtakes s slot && (s.calls.lookup slot).all fun c => !fails cfg c a
  | .clock now => s.clock ≤ now
  | _ => true

section inv

variable {cfg : Config} {s s' : State} {i k : ℕ}

theorem Settled.stable (h : Settled s k) (hs : Stable s s') : Settled s' k := by
  obtain ⟨ch, hch, h | h⟩ := h
  · exact ⟨ch, hs.changes k ch hch, Or.inl (hs.within k ch [] hch h)⟩
  · exact ⟨ch, hs.changes k ch hch, Or.inr (hs.gone _ h)⟩

theorem Collected.stable {ch : Change} {pc : RemovePc} (h : Collected s ch k pc)
    (hch : s.history.changes[k]? = some ch) (hs : Stable s s') : Collected s' ch k pc := by
  cases pc with
  | start => trivial
  | deletingRows hashes => exact hs.within k ch hashes hch h
  | removing hashes => exact hs.within k ch hashes hch h
  | done n => exact h

theorem Progress.stable (h : Progress s i k) (hs : Stable s s')
    (hcall : s'.calls.lookup (.inl i) = s.calls.lookup (.inl i)) : Progress s' i k := by
  rcases h with h | ⟨ch, pc, hch, hc, h⟩
  · exact Or.inl (h.stable hs)
  · exact Or.inr ⟨ch, pc, hs.changes k ch hch, hcall.trans hc, h.stable hch hs⟩

theorem Progress.settled (h : Progress s i k) (hover : (s.calls.lookup (.inl i)).any underWay = false) :
    Settled s k := by
  rcases h with h | ⟨ch, pc, hch, hc, h⟩
  · exact h
  · rw [hc] at hover
    cases pc with
    | done n => exact h.elim
    | start | deletingRows | removing => cases hover

theorem inv_settle (h : Inv cfg s) (i : ℕ) : Inv cfg (s.settle i) := by
  unfold State.settle
  split_ifs with hover hret
  · exact h
  · refine { h with returned := fun k hk => ?_ }
    rcases List.mem_append.mp hk with hk | hk
    · exact h.returned k hk
    · exact (h.tickets i k (Option.mem_toList.mp hk)).settled (by simpa using hover)
  · exact h

/-! ### One step -/

theorem present_of_writesBack {a : Accounts.Answer} (h : writesBack s i = true) :
    Present s.accounts (.step i a) := by
  intro c u hc hu
  cases c with
  | updateUser id patch pc =>
    cases pc with
    | publishing current updated =>
      cases hu
      simp only [writesBack, hc, Option.any_eq_true] at h
      obtain ⟨r, hr, -⟩ := h
      rw [hr]
      rfl
    | start | checking | updatingRow | reindexing | sweeping | done => cases hu
  | createUser | deleteUser | setUserPassword | recordLogin | key => cases hu

theorem revokes_of_alters {current old updated : UserRecord} {patch : UserPatch}
    (hagree : old.role = current.role ∧ old.tenantId = current.tenantId ∧
      old.passwordHash = current.passwordHash)
    (hpass : updated.passwordHash = current.passwordHash ∨ patch.password.isSome)
    (h : alters old patch updated = true) : revokes current patch updated = true := by
  obtain ⟨hr, ht, hp⟩ := hagree
  simp only [alters, Bool.or_eq_true, decide_eq_true_eq, hr, ht, hp] at h
  simp only [revokes, Bool.or_eq_true, decide_eq_true_eq]
  rcases h with (hchange | hhash) | hpatch
  · exact Or.inl hchange
  · exact Or.inr (hpass.resolve_left hhash)
  · exact Or.inr hpatch

theorem note_opened (hist : History) (i : ℕ) (m : Option Change) : (hist.note i m).opened = hist.opened := by
  cases m <;> rfl

theorem note_returned (hist : History) (i : ℕ) (m : Option Change) : (hist.note i m).returned = hist.returned := by
  cases m <;> rfl

theorem note_changes {hist : History} {i : ℕ} (m : Option Change) {ch : Change}
    (h : hist.changes[k]? = some ch) : (hist.note i m).changes[k]? = some ch := by
  cases m with
  | none => exact h
  | some m =>
    have hk : k < hist.changes.length := (List.getElem?_eq_some_iff.mp h).1
    simp only [History.note]
    rw [List.getElem?_append_left hk]
    exact h

theorem revoking_other {j : ℕ} (d : Option (String × Option String)) (h : j ≠ i) :
    (s.revoking i d).lookup (.inl j) = s.calls.lookup (.inl j) := by
  cases d with
  | none => rfl
  | some u =>
    simp only [State.revoking, lookup_insert]
    rw [if_neg]
    simpa using h

theorem progress_of_change {c : Accounts.Call} {a : Accounts.Answer} {acc : Accounts.State}
    {keep : Option String}
    {ch : Change} (h : Inv cfg s) (hC : writesBack s i = true) (hi : s.accounts.calls.lookup i = some c)
    (hs : Accounts.step cfg s.accounts (.step i a) = some acc)
    (hch : changeOf s.accounts.store.users keep c = some ch) :
    (acc.calls.lookup i).bind (due keep c) = some (ch.user, ch.keepHash) ∨ Gone acc ch.user := by
  obtain ⟨c1, st', c', hi1, -, -, hacc⟩ := accounts_step_eq_some hs
  have hc' : acc.calls.lookup i = some c' := by
    rw [hacc, lookup_insert, if_pos rfl]
  rw [hc', Option.bind_some]
  cases c with
  | updateUser id patch pc =>
    cases pc with
    | publishing current updated =>
      simp only [writesBack, hi, Option.any_eq_true, Bool.and_eq_true, decide_eq_true_eq] at hC
      obtain ⟨old, hold, ⟨hr, ht⟩, hp⟩ := hC
      simp only [changeOf, hold, Option.all_some] at hch
      split_ifs at hch with halt
      cases hch
      left
      simp [due, revokes_of_alters ⟨hr, ht, hp⟩ (h.passwords i _ hi) halt]
    | start | checking | updatingRow | reindexing | sweeping | done => cases hch
  | deleteUser id pc =>
    cases pc with
    | removing =>
      cases hch
      exact Or.inr (gone_of_removing h.consistent hi hs)
    | start | checking | sweeping | deletingRow | unindexing | done => cases hch
  | setUserPassword id p pc =>
    cases pc with
    | writing current hash =>
      cases hch
      exact Or.inl rfl
    | start | updatingRow | done => cases hch
  | createUser | recordLogin | key => cases hch

theorem inv_go {c : Accounts.Call} {a : Accounts.Answer} {acc : Accounts.State} (h : Inv cfg s)
    (hC : writesBack s i = true) (hover : (s.calls.lookup (.inl i)).any underWay = false)
    (hi : s.accounts.calls.lookup i = some c) (hs : Accounts.step cfg s.accounts (.step i a) = some acc) :
    Inv cfg (s.go i c acc) := by
  refine inv_settle ?_ i
  have hpresent := present_of_writesBack (a := a) hC
  have hold : ∀ d, s.calls.lookup (.inl i) = some d → inFlight d = none := by
    intro d hd
    rw [hd] at hover
    cases d with
    | revokeUserSessions user keep pc => rfl
    | login | revokeSession | pruneExpiredSessions => cases hover
  generalize hkeep : (s.keeps.lookup i).join = keep
  generalize hdue : (acc.calls.lookup i).bind (due keep c) = d
  generalize hnote : changeOf s.accounts.store.users keep c = m
  have hst : Stable s { s with accounts := acc, calls := s.revoking i d, history := s.history.note i m } := by
    refine ⟨fun k ch hch => note_changes m hch, fun k ch hashes _ hw => ?_,
      fun u hu => gone_step hu hpresent hs⟩
    simp only [note_opened]
    cases d with
    | none => exact hw
    | some d => exact hw.insert fun n hn => (by cases hn)
  refine ⟨consistent_step h.consistent hpresent hs, keepsPassword_step h.passwords hs, ?_, fun j k hk => ?_, ?_⟩
  · simp only [note_opened]
    cases d with
    | none => exact h.tables
    | some d => exact h.tables.frame rfl (fun _ _ hr => hr) hold rfl (by simp [doomed])
  · by_cases hj : j = i
    · subst hj
      cases m with
      | none => exact Or.inl (((h.tickets j k hk).settled hover).stable hst)
      | some ch =>
        simp only [History.note, lookup_insert, if_true, Option.some.injEq] at hk
        subst hk
        have hch : (s.history.note j (some ch)).changes[s.history.changes.length]? = some ch := by
          simp [History.note]
        rcases progress_of_change h hC hi hs hnote with h1 | h1
        · refine Or.inr ⟨ch, .start, hch, ?_, trivial⟩
          rw [← hdue, h1]
          simp [State.revoking]
        · exact Or.inl ⟨ch, hch, Or.inr h1⟩
    · have hk' : s.history.tickets.lookup j = some k := by
        cases m with
        | none => exact hk
        | some ch => simpa [History.note, lookup_insert, hj] using hk
      exact (h.tickets j k hk').stable hst (revoking_other d hj)
  · intro k hk
    rw [note_returned] at hk
    exact (h.returned k hk).stable hst

theorem stable_effect {slot : ℕ ⊕ ℕ} {c c' : Call} {st' : Store} (h : Inv cfg s)
    (hi : s.calls.lookup slot = some c) (he : Effect cfg s c st' c') :
    Stable s { s with
      store := st'
      calls := s.calls.insert slot c'
      history := { s.history with opened := s.history.opened ++ opens c c' } } := by
  refine ⟨fun k ch hch => hch, fun k ch hashes hch hw => ?_, fun u hu => hu⟩
  exact within_effect hw h.tables (List.getElem?_eq_some_iff.mp hch).1 hi he

theorem progress_revoke {ch : Change} {pc : RemovePc} {a : Answer} {st' : Store} {c' : Call} (h : Inv cfg s)
    (hC : overtakes s (.inl i) = false) (hok : fails cfg (.revokeUserSessions ch.user ch.keepHash pc) a = false)
    (hk : s.history.tickets.lookup i = some k) (hch : s.history.changes[k]? = some ch)
    (hi : s.calls.lookup (.inl i) = some (.revokeUserSessions ch.user ch.keepHash pc))
    (hpc : Collected s ch k pc)
    (hs : callStep cfg s.accounts.store s.store s.clock s.history.changes.length a
      (.revokeUserSessions ch.user ch.keepHash pc) = some (st', c')) :
    Progress { s with
      store := st'
      calls := s.calls.insert (.inl i) c'
      history := { s.history with
        opened := s.history.opened ++ opens (.revokeUserSessions ch.user ch.keepHash pc) c' } } i k := by
  obtain ⟨⟨st1, pc'⟩, h1, he⟩ := Option.map_eq_some_iff.mp hs
  cases he
  have hst := stable_effect h hi (effect_of_callStep (by rfl) hok hs)
  have hcall : ∀ c', (s.calls.insert (.inl i) c').lookup (.inl i) = some c' := by
    intro c'
    rw [lookup_insert, if_pos rfl]
  cases pc with
  | start =>
    -- all that is left of the sessions opened before is collected, as no login is on its way with them
    have hread : ∀ slot c n, s.calls.lookup slot = some c → reading c = some (ch.user, n) → k < n := by
      intro slot c n hc hr
      simp only [overtakes, hi, hk, Option.any_some, List.any_eq_false, Option.any_eq_true, mem_values] at hC
      by_contra hn
      exact hC c ⟨slot, hc⟩ ⟨(ch.user, n), hr, by simpa using hn⟩
    have hw := within_collect h.tables hread
    cases h1
    split_ifs at hst ⊢ with hempty
    · rw [List.isEmpty_iff.mp hempty] at hw
      exact Or.inl ⟨ch, hch, Or.inl (hst.within k ch _ hch hw)⟩
    · exact Or.inr ⟨ch, _, hch, hcall _, hst.within k ch _ hch hw⟩
  | deletingRows hashes =>
    simp only [revokeUserSessionsStep, removeStep] at h1
    split at h1 <;> cases h1
    exact Or.inr ⟨ch, _, hch, hcall _, hst.within k ch hashes hch hpc⟩
  | removing hashes =>
    cases h1
    refine Or.inl ⟨ch, hch, Or.inl ?_⟩
    rw [opens_eq_nil rfl, List.append_nil]
    exact (within_removed hpc).insert fun n hn => (by cases hn)
  | done n => cases h1

theorem inv_call {slot : ℕ ⊕ ℕ} {a : Answer} {c c' : Call} {st' : Store} (h : Inv cfg s)
    (hC : overtakes s slot = false) (hok : fails cfg c a = false) (hi : s.calls.lookup slot = some c)
    (hposs : possible cfg s c a = true)
    (hs : callStep cfg s.accounts.store s.store s.clock s.history.changes.length a c = some (st', c')) :
    Inv cfg { s with
      store := st'
      calls := s.calls.insert slot c'
      history := { s.history with opened := s.history.opened ++ opens c c' } } := by
  have he := effect_of_callStep hposs hok hs
  have hst := stable_effect h hi he
  refine ⟨h.consistent, h.passwords, tables_effect h.tables hi he, fun i k hk => ?_, fun k hk => ?_⟩
  · by_cases hslot : slot = .inl i
    · subst hslot
      rcases h.tickets i k hk with h1 | ⟨ch, pc, hch, hc, hpc⟩
      · exact Or.inl (h1.stable hst)
      · rw [hi] at hc
        cases hc
        exact progress_revoke h hC hok hk hch hi hpc hs
    · refine (h.tickets i k hk).stable hst ?_
      rw [lookup_insert, if_neg (fun he => hslot he.symm)]
  · exact (h.returned k hk).stable hst

/-- **One step.** -/
theorem inv_step {l : Label} (h : Inv cfg s) (hC : orderly cfg s l = true) (hs : step cfg s l = some s') :
    Inv cfg s' := by
  cases l with
  | begin i request keep =>
    obtain ⟨acc, hacc, rfl⟩ := Option.map_eq_some_iff.mp hs
    have hp : Present s.accounts (.start i request) := trivial
    have hst : Stable s { s with accounts := acc, keeps := s.keeps.insert i keep } :=
      ⟨fun k ch hch => hch, fun k ch hashes _ hw => hw, fun u hu => gone_step hu hp hacc⟩
    exact ⟨consistent_step h.consistent hp hacc, keepsPassword_step h.passwords hacc, h.tables,
      fun j k hk => (h.tickets j k hk).stable hst rfl, fun k hk => (h.returned k hk).stable hst⟩
  | go i a =>
    simp only [step] at hs
    split_ifs at hs with hover
    obtain ⟨c, hi, hs⟩ := Option.bind_eq_some_iff.mp hs
    obtain ⟨acc, hacc, rfl⟩ := Option.map_eq_some_iff.mp hs
    exact inv_go h hC (by simpa using hover) hi hacc
  | start j request =>
    simp only [step] at hs
    split at hs <;> cases hs
    next hfree =>
    have hf : inFlight request.call = none := by cases request <;> rfl
    have hr : reading request.call = none := by cases request <;> rfl
    have hd : doomed cfg request.call = [] := by cases request <;> rfl
    have hst : Stable s { s with calls := s.calls.insert (.inr j) request.call } := by
      refine ⟨fun k ch hch => hch, fun k ch hashes _ hw => hw.insert fun n hn => ?_, fun u hu => hu⟩
      rw [hr] at hn
      cases hn
    refine ⟨h.consistent, h.passwords, ?_, fun i k hk => ?_, fun k hk => (h.returned k hk).stable hst⟩
    · refine h.tables.frame rfl (fun _ _ hr => hr) (fun c hc => ?_) hf (by simp [hd])
      rw [hfree] at hc
      cases hc
    · refine (h.tickets i k hk).stable hst ?_
      rw [lookup_insert, if_neg (by simp)]
  | step slot a =>
    obtain ⟨c, hi, hs⟩ := Option.bind_eq_some_iff.mp hs
    simp only [orderly, hi, Option.all_some, Bool.and_eq_true, Bool.not_eq_true'] at hC
    split_ifs at hs with hposs
    obtain ⟨⟨st', c'⟩, hstep, he⟩ := Option.map_eq_some_iff.mp hs
    have hinv := inv_call h hC.1 hC.2 hi hposs hstep
    cases slot with
    | inl i =>
      cases he
      exact inv_settle hinv i
    | inr j =>
      cases he
      exact hinv
  | clock now =>
    cases hs
    exact { h with tables := h.tables.later (by simpa [orderly] using hC) }
  | restart =>
    simp only [step, Option.map_eq_some_iff] at hs
    obtain ⟨acc, hacc, rfl⟩ := hs
    have hp : Present s.accounts .restart := trivial
    refine ⟨consistent_step h.consistent hp hacc, keepsPassword_step h.passwords hacc, tables_restart h.tables,
      fun i k hk => (by cases hk), fun k hk => ?_⟩
    obtain ⟨ch, hch, h1 | h1⟩ := h.returned k hk
    · exact ⟨ch, hch, Or.inl (within_restart h1 h.tables)⟩
    · exact ⟨ch, hch, Or.inr (gone_step h1 hp hacc)⟩

theorem settle_accounts (s : State) (i : ℕ) : (s.settle i).accounts = s.accounts := by
  unfold State.settle
  split_ifs <;> rfl

theorem accounts_of_step {l : Label} (hC : orderly cfg s l = true) (hs : step cfg s l = some s') :
    s'.accounts = s.accounts ∨
      ∃ l', Present s.accounts l' ∧ Accounts.step cfg s.accounts l' = some s'.accounts := by
  cases l with
  | begin i request keep =>
    obtain ⟨acc, hacc, rfl⟩ := Option.map_eq_some_iff.mp hs
    exact Or.inr ⟨.start i request, trivial, hacc⟩
  | go i a =>
    simp only [step] at hs
    split_ifs at hs with hover
    obtain ⟨c, hi, hs⟩ := Option.bind_eq_some_iff.mp hs
    obtain ⟨acc, hacc, rfl⟩ := Option.map_eq_some_iff.mp hs
    refine Or.inr ⟨.step i a, present_of_writesBack hC, ?_⟩
    rw [State.go, settle_accounts]
    exact hacc
  | start j request =>
    simp only [step] at hs
    split at hs <;> cases hs
    exact Or.inl rfl
  | step slot a =>
    obtain ⟨c, hi, hs⟩ := Option.bind_eq_some_iff.mp hs
    split_ifs at hs with hposs
    obtain ⟨p, hstep, rfl⟩ := Option.map_eq_some_iff.mp hs
    cases slot with
    | inl i => exact Or.inl (settle_accounts _ i)
    | inr j => exact Or.inl rfl
  | clock now =>
    cases hs
    exact Or.inl rfl
  | restart =>
    simp only [step, Option.map_eq_some_iff] at hs
    obtain ⟨acc, hacc, rfl⟩ := hs
    exact Or.inr ⟨.restart, trivial, hacc⟩

theorem gone_system_step {l : Label} {u : String} (h : Gone s.accounts u) (hC : orderly cfg s l = true)
    (hs : step cfg s l = some s') : Gone s'.accounts u := by
  rcases accounts_of_step hC hs with h1 | ⟨l', hp, h1⟩
  · rw [h1]
    exact h
  · exact gone_step h hp h1

theorem inv_init : Inv cfg init := by
  have hdel : Consistent Accounts.init := by
    refine ⟨?_, exclusive_empty, ?_, ?_⟩
    · intro i c u hi
      cases hi
    · intro i j c c' u hi
      cases hi
    · intro i c u hi
      cases hi
  have htab : Tables cfg ⟨∅, ∅⟩ 0 ∅ [] := by
    refine ⟨?_, ?_, ?_, ?_, by simp, by simp⟩
    · intro h r r' hr
      cases hr
    · intro h r hr
      cases hr
    · intro slot c r n r' hc
      cases hc
    · intro slot c h r hc
      cases hc
  refine ⟨hdel, ?_, htab, ?_, ?_⟩
  · intro i c hi
    cases hi
  · intro i k hk
    cases hk
  · intro k hk
    cases hk

end inv

/-! ### The result -/

/-- The session of the token was opened under what its user had before a change whose call has returned `Ok`,
and it is not the one that the change keeps. -/
def stale (cfg : Config) (s : State) (token : String) : Bool :=
  s.history.returned.any fun k => (s.history.changes[k]?).any fun ch => s.history.opened.any fun o =>
    o.hash = cfg.lookupOf token && o.user = ch.user && o.seen ≤ k && ch.keepHash ≠ some o.hash

theorem stale_eq_true {cfg : Config} {s : State} {token : String} (h : stale cfg s token = true) :
    ∃ k ∈ s.history.returned, ∃ ch o, s.history.changes[k]? = some ch ∧ o ∈ s.history.opened ∧
      o.hash = cfg.lookupOf token ∧ o.user = ch.user ∧ o.seen ≤ k ∧ ch.keepHash ≠ some o.hash := by
  obtain ⟨k, hk, h⟩ := List.any_eq_true.mp h
  obtain ⟨ch, hch, h⟩ := (Option.any_eq_true _ _).mp h
  obtain ⟨o, ho, h⟩ := List.any_eq_true.mp h
  simp only [Bool.and_eq_true, decide_eq_true_eq] at h
  obtain ⟨⟨⟨hhash, hu⟩, hn⟩, hkeep⟩ := h
  exact ⟨k, hk, ch, o, hch, ho, hhash, hu, hn, hkeep⟩

/-- **Sessions end with what they were opened under.** Once a change has returned, `authorize_session`
accepts no session opened before it; it may read the session in one state and the user in a later one. -/
theorem sessions_end_with_change (cfg : Config) (as bs : List Label) (s1 s2 : State)
    (h1 : run (step cfg) init as = some s1) (h2 : run (step cfg) s1 bs = some s2)
    (hC : AllSteps (step cfg) (fun s l => orderly cfg s l = true) init (as ++ bs)) (token : String)
    (hold : stale cfg s1 token = true) (tenantEnabled : String → Option Bool) (now : ℕ) :
    authorizeSession cfg s1.store.sessions s2.accounts.store.users tenantEnabled now token = none := by
  obtain ⟨hCa, hCb⟩ := allSteps_append hC h1
  have hinv : Inv cfg s1 := run_invariant_of (fun s l s' h hl hs => inv_step h hl hs) as init s1 inv_init hCa h1
  obtain ⟨k, hk, ch, o, hch, ho, hhash, hu, hn, hkeep⟩ := stale_eq_true hold
  obtain ⟨ch', hch', hw | hg⟩ := hinv.returned k hk
  · -- it is not in memory
    rw [hch] at hch'
    cases hch'
    have hnone : s1.store.sessions.lookup o.hash = none := by
      by_contra hne
      rcases hw.left o ho (Option.isSome_iff_ne_none.mpr hne) hu hn with h | h
      · exact hkeep h
      · cases h
    rw [hhash] at hnone
    simp [authorizeSession, hnone]
  · -- its user is deleted, and stays so
    rw [hch] at hch'
    cases hch'
    have hgone : Gone s2.accounts ch.user :=
      run_invariant_of (fun s l s' h hl hs => gone_system_step h hl hs) bs s1 s2 hg hCb h2
    cases hr : s1.store.sessions.lookup (cfg.lookupOf token) with
    | none => simp [authorizeSession, hr]
    | some r =>
      have huser : r.userId = ch.user := (hinv.tables.openings o ho r (hhash ▸ hr)).trans hu
      have hnone : s2.accounts.store.users.lookup r.userId = none := by
        rw [huser]
        exact hgone.user
      simp [authorizeSession, hr, hnone]

/-- The token of the examples, and its hash. -/
def sessionToken : String := "5f5f5f5f5f5f5f5f5f5f5f5f5f5f5f5f5f5f5f5f5f5f5f5f5f5f5f5f5f5f5f5f"

@[inherit_doc sessionToken]
def sessionHash : String := "ce63c4ebf143f2aade4d14b4e5d941832c7af9ef9a000df459c9b6a07f155486"

/-- `sha2` and `argon2` on the values of the examples. -/
def sessionConfig : Config where
  maxEntries := 0
  ttl := 0
  lookupOf token := if token == sessionToken then sessionHash else token
  verifyArgon2 password hash := password == "correct horse" && hash == "h1"

/-- The user `u1` of the tenant `alpha` is created. -/
def createsUser : List Label :=
  [.begin 0 (.createUser "alice" "correct horse" .user (some "alpha") none) none, .go 0 (.tenant (some true)),
    .go 0 .silent, .go 0 (.written "u1" "h1" 1), .go 0 .silent, .go 0 .silent]

/-- A login verifies the password of `u1`. -/
def verifies : List Label :=
  [.start 1 (.login "alice" "correct horse" 3600), .step (.inr 1) .silent, .step (.inr 1) .silent,
    .step (.inr 1) (.tenant (some true))]

/-- It goes on with `create_session`. -/
def opensSession : List Label :=
  [.step (.inr 1) .silent, .step (.inr 1) (.inserted "s1" sessionToken), .step (.inr 1) .silent]

/-- The password of `u1` is changed. -/
def changesPassword : List Label :=
  [.begin 2 (.setUserPassword "u1" "battery staple") none, .go 2 .silent, .go 2 (.written "" "h2" 2),
    .go 2 (.clock 2)]

/-- Its sessions are revoked, and the call returns. -/
def revokesSessions : List Label :=
  [.step (.inl 2) .silent, .step (.inl 2) (.deleted []), .step (.inl 2) .silent]

theorem sessions_end_with_change_restart : ∃ s1,
    run (step sessionConfig) init
      (createsUser ++ verifies ++ opensSession ++ changesPassword ++ revokesSessions ++ [.restart]) = some s1 ∧
    stale sessionConfig s1 sessionToken = true ∧
    authorizeSession sessionConfig s1.store.sessions s1.accounts.store.users (fun _ => some true) 3
      sessionToken = none := by
  obtain ⟨s1, h1, hold⟩ := exists_run (step sessionConfig) init
    (createsUser ++ verifies ++ opensSession ++ changesPassword ++ revokesSessions ++ [.restart])
    (fun s => stale sessionConfig s sessionToken = true) (by decide +kernel)
  refine ⟨s1, h1, hold, ?_⟩
  exact sessions_end_with_change sessionConfig _ [] s1 s1 h1 rfl (by decide +kernel) sessionToken hold _ 3

/-- A login that has verified the old password opens its session when the change has returned. -/
theorem session_outlives_password : ¬ ∀ (cfg : Config) (as bs : List Label) (s1 s2 : State),
    run (step cfg) init as = some s1 → run (step cfg) s1 bs = some s2 → ∀ token,
    stale cfg s1 token = true → ∀ (tenantEnabled : String → Option Bool) (now : ℕ),
    authorizeSession cfg s1.store.sessions s2.accounts.store.users tenantEnabled now token = none := by
  intro h
  obtain ⟨s1, h1, hold, hacc⟩ := exists_run (step sessionConfig) init
    (createsUser ++ verifies ++ changesPassword ++ [.step (.inl 2) .silent] ++ opensSession)
    (fun s => stale sessionConfig s sessionToken = true ∧
      (authorizeSession sessionConfig s.store.sessions s.accounts.store.users (fun _ => some true) 3
        sessionToken).isSome) (by decide +kernel)
  rw [h sessionConfig _ [] s1 s1 h1 rfl sessionToken hold] at hacc
  cases hacc

end HomeLlmGateway.Storage.SessionRevocation
