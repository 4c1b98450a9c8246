import HomeLlmGateway.Storage.KeyRows

/-! # Keys and the users that own them

`update_user` and `delete_user` disable the keys of a user that is disabled or deleted. They do not look at
the result, `create_in` does not ask whether the owner is enabled, and the users and the keys are written by
separate statements. If none of this goes wrong (`careful`) and calls on one user do not overlap, no enabled
key belongs to a user that is disabled or gone, in memory and in the table; the one exception is the time
from the write of the disabled user to the marking of its keys. -/

namespace HomeLlmGateway.Storage.KeyOwners

open HomeLlmGateway.Lib.Runs HomeLlmGateway.Lib.Assoc HomeLlmGateway.Lib.Holding
open HomeLlmGateway.Storage.Cache (KeyRecord)
open HomeLlmGateway.Storage.Keys (Config DisablePc loadEnabled)
open HomeLlmGateway.Storage.Users HomeLlmGateway.Storage.Accounts HomeLlmGateway.Storage.UserSync
open HomeLlmGateway.Storage.KeyRows

/-! ### What is known of a user and its keys -/

/-- The user is there, and enabled. -/
def Active (users : HashMap String UserRecord) (u : String) : Prop :=
  (users.lookup u).map UserRecord.enabled = some true

/-- The user has an enabled key. -/
def Live (keys : HashMap String KeyRecord) (u : String) : Prop :=
  ∃ k r, keys.lookup k = some r ∧ r.ownerUserId = some u ∧ r.enabled = true

/-- A call of `update_user` that has disabled a user and not yet marked its keys. -/
def unmarked : Call → Bool
  | .updateUser _ _ (.sweeping _ .start) | .updateUser _ _ (.sweeping _ (.updatingRows _))
  | .updateUser _ _ (.sweeping _ (.marking _)) => true
  | _ => false

/-- The same in the tables: the row of the user is written, those of its keys are not. -/
def unswept : Call → Bool
  | .updateUser _ _ (.reindexing _ r) | .updateUser _ _ (.publishing _ r) => !r.enabled
  | .updateUser _ _ (.sweeping _ .start) | .updateUser _ _ (.sweeping _ (.updatingRows _)) => true
  | _ => false

/-- What is known of the keys of a user in a sweep. -/
def Swept (st : Store) (u : String) : Sweep → Prop
  | .none | .amid .start | .amid (.failed _) => True
  | .amid (.updatingRows ids) => ∀ k r, st.keys.runtime.lookup k = some r → r.ownerUserId = some u →
      r.enabled = true → r.id ∈ ids
  | .amid (.marking _) => ¬ Live st.keyRows u
  | .amid _ | .past => ¬ Live st.keys.runtime u ∧ ¬ Live st.keyRows u

/-- An enabled row is enabled in memory. -/
def Paired (st : Store) : Prop :=
  ∀ k row r, st.keyRows.lookup k = some row → row.enabled = true → st.keys.runtime.lookup k = some r →
    r.enabled = true

/-- What is known of a user and of the call that holds it. If `W` does not hold, no user that has an enabled
key is ever disabled. -/
structure Guarded (W : Prop) (st : Store) (u : String) (o : Option Call) : Prop where
  mem : Live st.keys.runtime u → Active st.users u ∨ (W ∧ ∃ c, o = some c ∧ unmarked c = true)
  row : Live st.keyRows u → Active st.userRows u ∨ ∃ c, o = some c ∧ unswept c = true
  swept : ∀ c, o = some c → Swept st u (sweep c)
  mints : ∀ c, o = some c → minting c ≠ none → Active st.users u ∧ Active st.userRows u
  created : ∀ c, o = some c → isCreate c = true → ¬ Live st.keys.runtime u ∧ ¬ Live st.keyRows u

/-! ### The condition -/

/-- The call disables the keys of its user, and the database does not. -/
def sweepFails : Call → Answer → Bool
  | .updateUser _ _ (.sweeping _ (.updatingRows _)), .key (.database (some _)) => true
  | .deleteUser _ (.sweeping (.updatingRows _)), .key (.database (some _)) => true
  | _, _ => false

/-- The owner, if there is one, is enabled when `create_in` looks at it. -/
def ownerEnabled (st : Store) : Call → Bool
  | .key (.createIn _ (some u) _ .start) => (st.users.lookup u).all UserRecord.enabled
  | _ => true

/-- The owner of a new key is enabled, the keys of a user are disabled when the user is disabled or deleted,
and the process does not restart before that. -/
def careful (s : State) : Label → Bool
  | .start _ _ => true
  | .step i a => (s.calls.lookup i).all fun c => ownerEnabled s.store c && !sweepFails c a
  | .restart => (values s.calls).all fun c => !unswept c

/-- A call on a user begins when no call on that user is under way, and the steps are careful. -/
def Orderly (s : State) (l : Label) : Prop := Serial s l ∧ careful s l = true

/-- `update_user` puts a disabled user into memory that has an enabled key. -/
def overtakes (s : State) : Label → Bool
  | .step i _ =>
    match s.calls.lookup i with
    | some (.updateUser u _ (.publishing _ r)) =>
      !r.enabled && (values s.store.keys.runtime).any fun k => k.ownerUserId = some u && k.enabled
    | _ => false
  | _ => false

instance (s : State) (l : Label) : Decidable (Orderly s l) := inferInstanceAs (Decidable (_ ∧ _))

section keys

variable {cfg : Config} {s s' : State} {st st' : Store} {i : ℕ} {c c' : Call} {u : String} {pc pc' : DisablePc}
  {keys keys' : HashMap String KeyRecord}

/-! ### Keys -/

/-- The user's enabled keys in the one table are enabled in the other. -/
def LiveIn (keys' keys : HashMap String KeyRecord) (u : String) : Prop :=
  ∀ k r, keys'.lookup k = some r → r.ownerUserId = some u → r.enabled = true →
    ∃ r0, keys.lookup k = some r0 ∧ SameKey r0 r ∧ r0.enabled = true

theorem LiveIn.refl (keys : HashMap String KeyRecord) (u : String) : LiveIn keys keys u :=
  fun _ r hr _ he => ⟨r, hr, .refl r, he⟩

theorem liveIn_of_own (h : OwnWithin keys' keys u) : LiveIn keys' keys u := by
  intro k r hr ho he
  obtain ⟨r0, hr0, hs, hen⟩ := h k r hr ho
  exact ⟨r0, hr0, hs, hen he⟩

theorem live_of_liveIn (h : LiveIn keys' keys u) : Live keys' u → Live keys u := by
  rintro ⟨k, r, hr, ho, he⟩
  obtain ⟨r0, hr0, hs, hen⟩ := h k r hr ho he
  exact ⟨k, r0, hr0, hs.2.1.trans ho, hen⟩

theorem not_live_of_noKeys (h : NoKeys keys u) : ¬ Live keys u := by
  rintro ⟨k, r, hr, ho, -⟩
  exact h k r hr ho

theorem swept_frame {w : Sweep} (h : Swept st u w) (hk : LiveIn st'.keys.runtime st.keys.runtime u)
    (hr : LiveIn st'.keyRows st.keyRows u) : Swept st' u w := by
  have hdead : ¬ Live st.keys.runtime u ∧ ¬ Live st.keyRows u →
      ¬ Live st'.keys.runtime u ∧ ¬ Live st'.keyRows u :=
    fun hd => ⟨fun hl => hd.1 (live_of_liveIn hk hl), fun hl => hd.2 (live_of_liveIn hr hl)⟩
  cases w with
  | none => trivial
  | past => exact hdead h
  | amid pc =>
    cases pc with
    | start | failed => trivial
    | updatingRows ids =>
      intro k r hk' ho he
      obtain ⟨r0, hr0, hs, hen⟩ := hk k r hk' ho he
      rw [← hs.1]
      exact h k r0 hr0 (hs.2.1.trans ho) hen
    | marking ids => exact fun hl => h (live_of_liveIn hr hl)
    | bumping | invalidating | done => exact hdead h

theorem swept_of_dead {w : Sweep} (h : ¬ Live st.keys.runtime u) (hr : ¬ Live st.keyRows u) : Swept st u w := by
  cases w with
  | none => trivial
  | past => exact ⟨h, hr⟩
  | amid pc =>
    cases pc with
    | start | failed => trivial
    | updatingRows ids => exact fun k r hk ho he => absurd ⟨k, r, hk, ho, he⟩ h
    | marking ids => exact hr
    | bumping | invalidating | done => exact ⟨h, hr⟩

/-- An enabled row has an enabled key in memory, if no creation of a key holds the owner. -/
theorem live_of_row (hkt : KeyTables s) (hp : Paired s.store) (hsy : Synced s) (hi : s.calls.lookup i = some c)
    (hu : held c = some u) (hc : creating c = none) {k : String} {row : KeyRecord}
    (hk : s.store.keyRows.lookup k = some row) (ho : row.ownerUserId = some u) (he : row.enabled = true) :
    ∃ r, s.store.keys.runtime.lookup k = some r ∧ SameKey r row ∧ r.enabled = true := by
  obtain ⟨r, hr, hs⟩ := mem_of_row hkt hsy.exclusive (o := some c) ⟨hu, i, hi⟩
    (fun d hd => by cases hd; exact hc) hk ho
  exact ⟨r, hr, hs, hp k row r hk he hr⟩

/-- **A step of a sweep.** What it has collected is what it goes on to disable, first in the table and then
in memory. -/
theorem swept_sweepMove (hkt : KeyTables s) (hp : Paired s.store) (hsy : Synced s)
    (hi : s.calls.lookup i = some c) (hu : held c = some u) (hc : creating c = none)
    (h : Swept s.store u (.amid pc)) (hm : SweepMove s.store u pc st' pc') : Swept st' u (.amid pc') := by
  cases hm with
  | collect => exact fun k r hr ho he => mem_liveIds hr ho he
  | idle hids =>
    have hdead : ¬ Live s.store.keys.runtime u := by
      rintro ⟨k, r, hr, ho, he⟩
      have := mem_liveIds hr ho he
      rw [hids] at this
      cases this
    refine ⟨hdead, fun ⟨k, row, hk, ho, he⟩ => hdead ?_⟩
    obtain ⟨r, hr, hs, hen⟩ := live_of_row hkt hp hsy hi hu hc hk ho he
    exact ⟨k, r, hr, hs.2.1.trans ho, hen⟩
  | rows ids =>
    rintro ⟨k, row, hk, ho, he⟩
    change (disableRows ids s.store.keyRows).lookup k = some row at hk
    rw [disableRows, lookup_mapVal] at hk
    obtain ⟨row0, hk0, rfl⟩ := Option.map_eq_some_iff.mp hk
    by_cases hid : row0.id ∈ ids
    · rw [if_pos hid] at he
      cases he
    · rw [if_neg hid] at ho he
      obtain ⟨r, hr, hs, hen⟩ := live_of_row hkt hp hsy hi hu hc hk0 ho he
      exact hid (hs.1 ▸ h k r hr (hs.2.1.trans ho) hen)
  | fail => trivial
  | mark ids =>
    refine ⟨?_, h⟩
    rintro ⟨k, r, hk, ho, he⟩
    change (markOwned u s.store.keys.runtime).lookup k = some r at hk
    rw [markOwned, lookup_mapVal] at hk
    obtain ⟨r0, hr0, rfl⟩ := Option.map_eq_some_iff.mp hk
    split_ifs at ho he with hown
    exact hown (by simp [Keys.ownedBy, ho])
  | rest _ _ keys hrun hpc hpc' =>
    have hdead : ¬ Live s.store.keys.runtime u ∧ ¬ Live s.store.keyRows u := by
      cases pc <;> first | exact h | cases hpc
    refine swept_of_dead ?_ hdead.2
    show ¬ Live keys.runtime u
    rw [hrun]
    exact hdead.1

theorem paired_within (h : Paired st) (hr : Within st'.keyRows st.keyRows)
    (hk : st'.keys.runtime = st.keys.runtime) : Paired st' := by
  intro k row r hrow he hmem
  obtain ⟨row0, hrow0, -, hen⟩ := hr k row hrow
  rw [hk] at hmem
  exact h k row0 r hrow0 (hen he) hmem

theorem paired_sweep (hkt : KeyTables s) (h : Paired s.store) (hsw : Swept s.store u (.amid pc))
    (hm : SweepMove s.store u pc st' pc') : Paired st' := by
  cases hm with
  | collect | idle | fail => exact h
  | rows ids => exact paired_within h (within_disableRows ids _) rfl
  | mark ids =>
    intro k row r hrow he hmem
    change (markOwned u s.store.keys.runtime).lookup k = some r at hmem
    rw [markOwned, lookup_mapVal] at hmem
    obtain ⟨r0, hr0, rfl⟩ := Option.map_eq_some_iff.mp hmem
    have hs := sameKey_of_row hkt hrow hr0
    split_ifs with hown
    · refine absurd ⟨k, row, hrow, ?_, he⟩ hsw
      rw [← hs.2.1]
      simpa [Keys.ownedBy] using hown
    · exact h k row r0 hrow he hr0
  | rest _ _ keys hrun => exact paired_within h (.refl _) hrun

theorem paired_key {k k' : Keys.Call} (hkt : KeyTables s) (h : Paired s.store)
    (hi : s.calls.lookup i = some (.key k)) (hsw : ∀ u, held (.key k) = some u → Swept s.store u (sweep (.key k)))
    (hm : KeyMove cfg s k st' k') : Paired st' := by
  cases hm with
  | quiet _ _ keys hrun => exact paired_within h (.refl _) hrun
  | check | retry => exact h
  | insert tenantId owner name n r plaintext hfresh =>
    intro k row q hrow he hmem
    change (s.store.keyRows.insert r.lookup _).lookup k = some row at hrow
    rw [lookup_insert] at hrow
    split_ifs at hrow with hkl
    · subst hkl
      rw [(newKey_of_fresh hfresh).mem] at hmem
      cases hmem
    · exact h k row q hrow he hmem
  | bump tenantId owner name r plaintext keys hrun => exact paired_within h (.refl _) hrun
  | publish tenantId owner name r plaintext =>
    intro k row q hrow he hmem
    change (s.store.keys.runtime.insert r.lookup r).lookup k = some q at hmem
    rw [lookup_insert] at hmem
    split_ifs at hmem
    · cases hmem
      exact (hkt.owned i _ r hi rfl).2
    · exact h k row q hrow he hmem
  | deleteRow id => exact paired_within h (within_dropId id _) rfl
  | retain id pc => exact fun k row r hrow he hmem => h k row r hrow he (lookup_dropId.mp hmem).1
  | sweep owner pc pc' st' hsw' =>
    by_cases ho : isOver pc = true
    · cases hsw' with
      | rest _ _ keys hrun => exact paired_within h (.refl _) hrun
      | collect | idle | rows | fail | mark => cases ho
    · exact paired_sweep hkt h (hsw owner (by simp [held, ho])) hsw'

end keys

/-! ### Users and their keys -/

section guarded

variable {cfg : Config} {W : Prop} {s s' : State} {st st' : Store} {i : ℕ} {a : Answer} {c c' : Call}
  {u : String} {o o' : Option Call}

theorem Guarded.frame (h : Guarded W st u o) (hk : LiveIn st'.keys.runtime st.keys.runtime u)
    (hr : LiveIn st'.keyRows st.keyRows u)
    (hu : (st'.users.lookup u).map UserRecord.enabled = (st.users.lookup u).map UserRecord.enabled)
    (hur : (st'.userRows.lookup u).map UserRecord.enabled = (st.userRows.lookup u).map UserRecord.enabled) :
    Guarded W st' u o := by
  refine ⟨fun hl => ?_, fun hl => ?_, fun d hd => swept_frame (h.swept d hd) hk hr, fun d hd hm => ?_,
    fun d hd hc => ?_⟩
  · unfold Active
    rw [hu]
    exact h.mem (live_of_liveIn hk hl)
  · unfold Active
    rw [hur]
    exact h.row (live_of_liveIn hr hl)
  · unfold Active
    rw [hu, hur]
    exact h.mints d hd hm
  · exact ⟨fun hl => (h.created d hd hc).1 (live_of_liveIn hk hl),
      fun hl => (h.created d hd hc).2 (live_of_liveIn hr hl)⟩

theorem guarded_none_iff : Guarded W st u none ↔
    (Live st.keys.runtime u → Active st.users u) ∧ (Live st.keyRows u → Active st.userRows u) := by
  constructor
  · intro h
    refine ⟨fun hl => ?_, fun hl => ?_⟩
    · rcases h.mem hl with hact | ⟨-, d, hd, -⟩
      · exact hact
      · cases hd
    · rcases h.row hl with hact | ⟨d, hd, -⟩
      · exact hact
      · cases hd
  · rintro ⟨hmem, hrow⟩
    exact ⟨fun hl => Or.inl (hmem hl), fun hl => Or.inl (hrow hl), fun _ hd => (by cases hd),
      fun _ hd => (by cases hd), fun _ hd => (by cases hd)⟩

theorem guarded_updateUser_iff {id : String} {patch : UserPatch} {pc : UpdateUserPc} :
    Guarded W st u (some (.updateUser id patch pc)) ↔
      (Live st.keys.runtime u → Active st.users u ∨ (W ∧ unmarked (.updateUser id patch pc) = true)) ∧
      (Live st.keyRows u → Active st.userRows u ∨ unswept (.updateUser id patch pc) = true) ∧
      Swept st u (sweep (.updateUser id patch pc)) := by
  constructor
  · intro h
    refine ⟨fun hl => ?_, fun hl => ?_, h.swept _ rfl⟩
    · rcases h.mem hl with hact | ⟨hW, d, hd, hmd⟩
      · exact Or.inl hact
      · cases hd
        exact Or.inr ⟨hW, hmd⟩
    · rcases h.row hl with hact | ⟨d, hd, hsd⟩
      · exact Or.inl hact
      · cases hd
        exact Or.inr hsd
  · rintro ⟨hmem, hrow, hs⟩
    refine ⟨fun hl => (hmem hl).imp_right fun hm => ⟨hm.1, _, rfl, hm.2⟩,
      fun hl => (hrow hl).imp_right fun hm => ⟨_, rfl, hm⟩, fun d hd => ?_, fun d hd hm => ?_,
      fun d hd hc => ?_⟩
    · cases hd
      exact hs
    · cases hd
      exact absurd rfl hm
    · cases hd
      cases hc

theorem Guarded.active (h : Guarded W st u (some c)) (hmk : unmarked c = false) (hsw : unswept c = false) :
    (Live st.keys.runtime u → Active st.users u) ∧ (Live st.keyRows u → Active st.userRows u) := by
  refine ⟨fun hl => ?_, fun hl => ?_⟩
  · rcases h.mem hl with hact | ⟨-, d, hd, hmd⟩
    · exact hact
    · cases hd
      rw [hmk] at hmd
      cases hmd
  · rcases h.row hl with hact | ⟨d, hd, hmd⟩
    · exact hact
    · cases hd
      rw [hsw] at hmd
      cases hmd

theorem Guarded.call (h : Guarded W st u (some c)) (hmk : unmarked c = false) (hsw : unswept c = false)
    (hs : Swept st u (sweep c')) (hm : minting c' ≠ none → Active st.users u ∧ Active st.userRows u)
    (hc : isCreate c' = true → isCreate c = true) : Guarded W st u (some c') := by
  obtain ⟨hmem, hrow⟩ := h.active hmk hsw
  refine ⟨fun hl => Or.inl (hmem hl), fun hl => Or.inl (hrow hl), fun d hd => ?_, fun d hd => ?_,
    fun d hd hcr => ?_⟩
  · cases hd
    exact hs
  · cases hd
    exact hm
  · cases hd
    exact h.created c rfl (hc hcr)

theorem Guarded.left (h : Guarded W st u (some c)) (hmk : unmarked c = false) (hsw : unswept c = false) :
    Guarded W st u none :=
  guarded_none_iff.mpr (h.active hmk hsw)

theorem guarded_minting (h : Active st.users u) (hr : Active st.userRows u) (hs : sweep c = .none)
    (hc : isCreate c = false) : Guarded W st u (some c) := by
  refine ⟨fun _ => Or.inl h, fun _ => Or.inl hr, fun d hd => ?_, fun _ _ _ => ⟨h, hr⟩, fun d hd hcr => ?_⟩
  · cases hd
    rw [hs]
    trivial
  · cases hd
    rw [hc] at hcr
    cases hcr

theorem guarded_dead (h : ¬ Live st.keys.runtime u) (hr : ¬ Live st.keyRows u)
    (hm : ∀ d, o = some d → minting d = none) : Guarded W st u o :=
  ⟨fun hl => absurd hl h, fun hl => absurd hl hr, fun _ _ => swept_of_dead h hr,
    fun d hd hmd => absurd (hm d hd) hmd, fun _ _ _ => ⟨h, hr⟩⟩

theorem open_of_before (h : stage c = .before) : unmarked c = false ∧ unswept c = false := by
  cases c with
  | updateUser id patch pc => cases pc <;> first | exact ⟨rfl, rfl⟩ | cases h
  | createUser | deleteUser | setUserPassword | recordLogin | key => exact ⟨rfl, rfl⟩

theorem active_of_core {users : HashMap String UserRecord} {r : UserRecord}
    (h : (users.lookup u).map UserRecord.core = some r.core) :
    (users.lookup u).map UserRecord.enabled = some r.enabled := by
  obtain ⟨q, hq, he⟩ := map_core_eq_some h
  rw [hq]
  exact congrArg some (UserRecord.eq_of_core he).2.2.2

theorem not_database {b : Keys.Answer} {pc : DisablePc} (hf : sweepFails c a = false) (hb : a = .key b)
    (hk : keyCall c = none) (hsw : sweep c = .amid pc) : ∀ ids e, pc = .updatingRows ids → b ≠ .database (some e) := by
  rintro ids e rfl rfl
  subst hb
  unfold sweep at hsw
  split at hsw <;> cases hsw
  · cases hf
  · cases hf
  · cases hk

/-- `disable_keys_for_owner` fails only if its transaction does. -/
theorem not_failed {b : Keys.Answer} {pc pc' : DisablePc}
    (h : sweepStep cfg st u b pc = some (st', pc'))
    (hf : ∀ ids e, pc = .updatingRows ids → b ≠ .database (some e)) : ∀ e, pc' ≠ .failed e := by
  rintro e rfl
  obtain ⟨⟨keys, pc1⟩, h1, he⟩ := Option.map_eq_some_iff.mp h
  cases he
  cases pc with
  | updatingRows ids =>
    simp only [Keys.disableStep] at h1
    split at h1
    · cases h1
    · exact hf ids _ rfl rfl
    · cases h1
  | start =>
    simp only [Keys.disableStep] at h1
    split_ifs at h1 <;> cases h1
  | marking | bumping => cases h1
  | invalidating n ids => cases ids <;> cases h1
  | failed | done => cases h1

theorem dead_of_over {pc : DisablePc} (h : Swept st u (.amid pc)) (ho : isOver pc = true)
    (hf : ∀ e, pc ≠ .failed e) : ¬ Live st.keys.runtime u ∧ ¬ Live st.keyRows u := by
  cases pc with
  | done n => exact h
  | failed e => exact absurd rfl (hf e)
  | start | updatingRows | marking | bumping | invalidating => cases ho

/-- **A step of a sweep whose transaction does not fail.** -/
theorem sweepStep_spec {b : Keys.Answer} {pc pc' : DisablePc} (hkt : KeyTables s) (hp : Paired s.store)
    (hsy : Synced s) (hi : s.calls.lookup i = some c) (hu : held c = some u) (hc : creating c = none)
    (h : Swept s.store u (.amid pc)) (hstep : sweepStep cfg s.store u b pc = some (st', pc'))
    (hf : ∀ ids e, pc = .updatingRows ids → b ≠ .database (some e)) :
    (st'.users = s.store.users ∧ st'.userRows = s.store.userRows) ∧
    (∀ v, LiveIn st'.keys.runtime s.store.keys.runtime v ∧ LiveIn st'.keyRows s.store.keyRows v) ∧
    Swept st' u (.amid pc') ∧
    (isOver pc' = true → ¬ Live st'.keys.runtime u ∧ ¬ Live st'.keyRows u) := by
  have hsw := sweepMove_of_sweepStep hstep
  obtain ⟨hrows, hrun, -⟩ := sweepMove_within hsw
  have hs := swept_sweepMove hkt hp hsy hi hu hc h hsw
  exact ⟨sweepMove_users hsw, fun v => ⟨liveIn_of_own (hrun.own v), liveIn_of_own (hrows.own v)⟩, hs,
    fun ho => dead_of_over hs ho (not_failed hstep hf)⟩

/-- **A step of a call on the key store**, and the user that the call holds. -/
theorem Guarded.key {k k' : Keys.Call} (hkt : KeyTables s) (hsy : Synced s) (hp : Paired s.store)
    (h : Guarded W s.store u (some (.key k))) (hi : s.calls.lookup i = some (.key k))
    (hu : held (.key k) = some u) (hC : ownerEnabled s.store (.key k) = true) (hm : KeyMove cfg s k st' k') :
    (held (.key k') = some u → Guarded W st' u (some (.key k'))) ∧
    (held (.key k') = none → Guarded W st' u none) := by
  -- a call of `create_in` that has checked its owner goes on
  have hmint : minting (.key k) ≠ none → Active s.store.users u ∧ Active s.store.userRows u := h.mints _ rfl
  cases hm with
  | quiet _ _ keys hrun hheld =>
    have hin : LiveIn keys.runtime s.store.keys.runtime u := by
      rw [hrun]
      exact .refl _ u
    refine ⟨fun hn => ?_, fun _ => (h.left rfl rfl).frame hin (.refl _ u) rfl rfl⟩
    rw [hheld] at hn
    cases hn
  | check tenantId owner name hown =>
    refine ⟨fun _ => ?_, fun _ => h.left rfl rfl⟩
    have hsame : Same s.store u := (hsy.sync u (some _) ⟨hu, i, hi⟩).1
    obtain ⟨x, hx, -⟩ := Option.map_eq_some_iff.mp (hown u hu)
    cases hu
    have hen : x.enabled = true := by simpa [ownerEnabled, hx] using hC
    refine guarded_minting ?_ ?_ rfl rfl
    · rw [Active, hx]
      exact congrArg some hen
    · rw [Same, hx] at hsame
      rw [Active, active_of_core hsame, hen]
  | retry tenantId owner name n m =>
    obtain ⟨hact, hrow⟩ := hmint (by simp [minting])
    exact ⟨fun _ => guarded_minting hact hrow rfl rfl, fun _ => h.left rfl rfl⟩
  | insert tenantId owner name n r plaintext =>
    obtain ⟨hact, hrow⟩ := hmint (by simp [minting])
    exact ⟨fun _ => guarded_minting hact hrow rfl rfl, fun hn => absurd (hn.symm.trans hu) (by simp)⟩
  | bump tenantId owner name r plaintext keys hrun v =>
    obtain ⟨hact, hrow⟩ := hmint (by simp [minting])
    exact ⟨fun _ => guarded_minting hact hrow rfl rfl, fun hn => absurd (hn.symm.trans hu) (by simp)⟩
  | publish tenantId owner name r plaintext =>
    obtain ⟨hact, hrow⟩ := hmint (by simp [minting])
    exact ⟨fun hn => (by cases hn), fun _ => guarded_none_iff.mpr ⟨fun _ => hact, fun _ => hrow⟩⟩
  | deleteRow id => cases hu
  | retain id pc hpc => cases hu
  | sweep owner pc pc' st' hsw =>
    have hou : owner = u := by
      simp only [held] at hu
      split_ifs at hu
      exact Option.some.inj hu
    subst hou
    obtain ⟨hrows, hrun, -⟩ := sweepMove_within hsw
    obtain ⟨husers, huserRows⟩ := sweepMove_users hsw
    have hf := h.frame (liveIn_of_own (hrun.own owner)) (liveIn_of_own (hrows.own owner)) (by rw [husers])
      (by rw [huserRows])
    have hs := swept_sweepMove hkt hp hsy hi hu rfl (h.swept _ rfl) hsw
    exact ⟨fun _ => hf.call rfl rfl hs (by simp [minting]) id, fun _ => hf.left rfl rfl⟩

section update

variable {id : String} {patch : UserPatch} {current r : UserRecord}

theorem guarded_updateRow {name hash : String} {now : ℕ}
    (h : Guarded W st id (some (.updateUser id patch (.updatingRow current name))))
    (hrow : (st.userRows.lookup id).isSome) :
    Guarded W (st.write (.changeRow id (updateColumns (updatedRecord current patch name hash now)))) id
      (some (.updateUser id patch (.reindexing current (updatedRecord current patch name hash now)))) := by
  obtain ⟨hmem, -⟩ := h.active rfl rfl
  obtain ⟨q, hq⟩ := Option.isSome_iff_exists.mp hrow
  refine guarded_updateUser_iff.mpr ⟨fun hl => Or.inl (hmem hl), fun _ => ?_, trivial⟩
  cases he : UserPatch.newEnabled patch current with
  | true =>
    left
    show ((modify id _ st.userRows).lookup id).map UserRecord.enabled = some true
    rw [lookup_modify, if_pos rfl, hq]
    exact congrArg some he
  | false =>
    right
    simp [unswept, updatedRecord, he]

/-- `update_user` puts an enabled user into memory, and returns. -/
theorem guarded_publish_enabled
    (h : Guarded W st id (some (.updateUser id patch (.publishing current r)))) (hr : r.enabled = true) :
    Guarded W (st.write (.publish id r)) id none := by
  obtain ⟨-, hrow, -⟩ := guarded_updateUser_iff.mp h
  refine guarded_none_iff.mpr ⟨fun _ => ?_, fun hl => (hrow hl).resolve_right (by simp [unswept, hr])⟩
  show ((st.users.insert id r).lookup id).map UserRecord.enabled = some true
  rw [lookup_insert, if_pos rfl]
  exact congrArg some hr

/-- `update_user` puts a disabled user into memory, and goes on to the keys. -/
theorem guarded_publish_disabled (hW : W ∨ ¬ Live st.keys.runtime id) :
    Guarded W (st.write (.publish id r)) id (some (.updateUser id patch (.sweeping r .start))) :=
  guarded_updateUser_iff.mpr ⟨fun hl => Or.inr ⟨hW.resolve_right (not_not_intro hl), rfl⟩,
    fun _ => Or.inr rfl, trivial⟩

theorem guarded_sweepUpdate {pc pc' : DisablePc}
    (h : Guarded W st id (some (.updateUser id patch (.sweeping r pc))))
    (hk : LiveIn st'.keys.runtime st.keys.runtime id) (hu : st'.users = st.users)
    (hs : Swept st' id (.amid pc')) (ho : isOver pc' = false) :
    Guarded W st' id (some (.updateUser id patch (.sweeping r pc'))) := by
  have hmem : Live st'.keys.runtime id → Active st'.users id ∨ W := by
    intro hl
    rw [hu]
    exact ((guarded_updateUser_iff.mp h).1 (live_of_liveIn hk hl)).imp_right And.left
  refine guarded_updateUser_iff.mpr ⟨fun hl => ?_, fun hl => ?_, hs⟩
  · cases pc' with
    | start | updatingRows | marking => exact (hmem hl).imp_right fun hW => ⟨hW, rfl⟩
    | bumping | invalidating => exact absurd hl hs.1
    | failed | done => cases ho
  · cases pc' with
    | start | updatingRows => exact Or.inr rfl
    | marking => exact absurd hl hs
    | bumping | invalidating => exact absurd hl hs.2
    | failed | done => cases ho

theorem not_live_of_not_overtakes (hi : s.calls.lookup i = some (.updateUser id patch (.publishing current r)))
    (hr : ¬ r.enabled = true) (h : overtakes s (.step i a) = false) : ¬ Live s.store.keys.runtime id := by
  rintro ⟨k, q, hq, ho, he⟩
  simp only [overtakes, hi, hr, Bool.not_false, Bool.true_and, List.any_eq_false] at h
  exact h q ((mem_values _ _).mpr ⟨k, hq⟩) (by simp [ho, he])

end update

/-- **What a step of a call makes of the user that it holds.** -/
theorem Guarded.move (hkt : KeyTables s) (hsy : Synced s) (hp : Paired s.store) (h : Guarded W s.store u (some c))
    (hi : s.calls.lookup i = some c) (hu : held c = some u) (hC : careful s (.step i a) = true)
    (hW : W ∨ overtakes s (.step i a) = false) (hm : Move cfg s a c st' c') :
    (held c' = some u → Guarded W st' u (some c')) ∧ (held c' = none → Guarded W st' u none) := by
  have hsync : Sync s.store u (some c) := hsy.sync u (some c) ⟨hu, i, hi⟩
  obtain ⟨hen, hfail⟩ : ownerEnabled s.store c = true ∧ sweepFails c a = false := by
    simpa [careful, hi] using hC
  cases hm with
  | wait _ _ hheld hb hb' hk hk' hpatch hsweep _ =>
    obtain ⟨hmk, hsw⟩ := open_of_before hb
    refine ⟨fun hn => ?_, fun _ => h.left hmk hsw⟩
    refine h.call hmk hsw ?_ (fun hm => absurd (minting_of_keyCall hk') hm) fun hc => ?_
    · rcases hsweep with hs | hs
      · rw [hs]
        trivial
      · rw [hs]
        trivial
    · rw [not_isCreate_of_before hb' hn] at hc
      cases hc
  | leave _ _ hheld hb =>
    obtain ⟨hmk, hsw⟩ := open_of_before hb
    refine ⟨fun hn => ?_, fun _ => h.left hmk hsw⟩
    rw [hheld] at hn
    cases hn
  | insertRow v p role t b name r => cases hu
  | index v p role t b r =>
    have hg : Guarded W s.store u (some (.createUser v p role t b (.publishing r))) :=
      h.call rfl rfl trivial (fun hm => absurd rfl hm) id
    exact ⟨fun _ => hg.frame (.refl _ u) (.refl _ u) rfl rfl, fun hn => (by cases hn)⟩
  | created v p role t b r =>
    obtain ⟨hmem, hrow⟩ := h.created _ rfl rfl
    exact ⟨fun hn => (by cases hn), fun _ => guarded_dead hmem hrow fun _ hd => (by cases hd)⟩
  | updateRow id patch current name hash now =>
    cases hu
    simp only [Sync, stage] at hsync
    obtain ⟨q, hq, -⟩ := map_core_eq_some (hsync.1.trans (hsync.2 current rfl))
    exact ⟨fun _ => guarded_updateRow h (by rw [hq]; rfl), fun hn => (by cases hn)⟩
  | reindex id patch current r =>
    obtain ⟨hmem, hrow, -⟩ := guarded_updateUser_iff.mp h
    exact ⟨fun _ => guarded_updateUser_iff.mpr ⟨hmem, hrow, trivial⟩, fun hn => (by cases hn)⟩
  | publish id patch current r pc hpc =>
    cases hu
    by_cases hre : r.enabled = true
    · rw [if_pos hre] at hpc
      subst hpc
      exact ⟨fun hn => (by cases hn), fun _ => guarded_publish_enabled h hre⟩
    · rw [if_neg hre] at hpc
      subst hpc
      exact ⟨fun _ => guarded_publish_disabled (hW.imp_right (not_live_of_not_overtakes hi hre)),
        fun hn => (by cases hn)⟩
  | sweepUpdate id patch r b hb pc pc' st' hstep q hq =>
    cases hu
    obtain ⟨⟨husers, huserRows⟩, hwithin, hs, hdead⟩ :=
      sweepStep_spec hkt hp hsy hi rfl rfl (h.swept _ rfl) hstep (not_database hfail hb rfl rfl)
    rw [hq]
    split_ifs with hover
    · exact ⟨fun hn => (by cases hn), fun _ => guarded_dead (hdead hover).1 (hdead hover).2 fun _ hd => by cases hd⟩
    · exact ⟨fun _ => guarded_sweepUpdate h (hwithin u).1 husers hs (by simpa using hover),
        fun hn => (by cases hn)⟩
  | sweepDelete id b hb pc pc' st' hstep q hq =>
    cases hu
    obtain ⟨⟨husers, huserRows⟩, hwithin, hs, hdead⟩ :=
      sweepStep_spec hkt hp hsy hi rfl rfl (h.swept _ rfl) hstep (not_database hfail hb rfl rfl)
    have hg := h.frame (hwithin u).1 (hwithin u).2 (by rw [husers]) (by rw [huserRows])
    rw [hq]
    split_ifs with hover
    · exact ⟨fun _ => hg.call rfl rfl (hdead hover) (fun hm => absurd rfl hm) fun hc => (by cases hc),
        fun hn => (by cases hn)⟩
    · exact ⟨fun _ => hg.call rfl rfl hs (fun hm => absurd rfl hm) fun hc => (by cases hc),
        fun hn => (by cases hn)⟩
  | deleteRow | unindex =>
    obtain ⟨hmem, hrow⟩ := h.swept _ rfl
    refine ⟨fun _ => guarded_dead hmem hrow fun d hd => ?_, fun hn => (by cases hn)⟩
    cases hd
    rfl
  | remove id =>
    obtain ⟨hmem, hrow⟩ := h.swept _ rfl
    exact ⟨fun hn => (by cases hn), fun _ => guarded_dead hmem hrow fun _ hd => (by cases hd)⟩
  | passwordRow id p current hash now =>
    have hrow := map_lookup_modify UserRecord.enabled
      (f := fun row => { row with passwordHash := hash, updatedAt := now }) (fun _ => rfl) id s.store.userRows u
    have hg : Guarded W s.store u (some (.setUserPassword id p (.writing current hash))) :=
      h.call rfl rfl trivial (fun hm => absurd rfl hm) fun hc => (by cases hc)
    exact ⟨fun _ => hg.frame (.refl _ u) (.refl _ u) rfl hrow, fun hn => (by cases hn)⟩
  | password id p current hash now =>
    cases hu
    have hcur := hsync.2 current rfl
    obtain ⟨q, hq, -⟩ := map_core_eq_some hcur
    refine ⟨fun hn => (by cases hn), fun _ => (h.left rfl rfl).frame (.refl _ u) (.refl _ u) ?_ rfl⟩
    rw [lookup_changeUser, if_pos rfl, active_of_core hcur, hq]
    rfl
  | loginRow id now => cases hu
  | login id now => cases hu
  | key b hb k k' keys hposs hc => exact h.key hkt hsy hp hi hu hen (keyMove_of_callStep hposs hc)

/-- **A step of a call.** -/
theorem guarded_move (hkt : KeyTables s) (hsy : Synced s) (hp : Paired s.store)
    (h : ∀ v o, On held s.calls v o → Guarded W s.store v o) (hi : s.calls.lookup i = some c)
    (hC : careful s (.step i a) = true) (hW : W ∨ overtakes s (.step i a) = false)
    (hm : Move cfg s a c st' c') :
    ∀ v o, On held (s.calls.insert i c') v o → Guarded W st' v o := by
  refine forall_on_move hsy.exclusive hi hm h (fun v o hv hv' hg => ?_)
    (fun u hu hu' hg => (hg.move hkt hsy hp hi hu hC hW hm).1 hu')
    (fun u hu hn hg => (hg.move hkt hsy hp hi hu hC hW hm).2 hn) ?_
  · obtain ⟨hmem, hrow⟩ := keys_frame hkt hi hm hv
    exact hg.frame (liveIn_of_own hmem) (liveIn_of_own hrow) (map_of_core (fun _ => rfl) (users_frame hm hv))
      (map_of_core (fun _ => rfl) (userRows_frame hm hv hv'))
  · rintro n p role t b name r - rfl rfl hfresh -
    obtain ⟨hmem, hrow⟩ := noKeys_of_fresh hfresh
    refine guarded_dead (not_live_of_noKeys hmem) (not_live_of_noKeys hrow) fun d hd => ?_
    cases hd
    rfl

theorem paired_move (hkt : KeyTables s) (hp : Paired s.store)
    (h : ∀ v o, On held s.calls v o → Guarded W s.store v o) (hi : s.calls.lookup i = some c)
    (hm : Move cfg s a c st' c') : Paired st' := by
  have hswept : ∀ u, held c = some u → Swept s.store u (sweep c) :=
    fun u hu => (h u (some c) ⟨hu, i, hi⟩).swept c rfl
  rcases keys_of_move hm with ⟨-, -, hkeys, hrows⟩ | ⟨-, -, u, pc, pc', hu, hsw, hmove⟩ | ⟨k, k', rfl, rfl, hkm⟩
  · refine paired_within hp ?_ (by rw [hkeys])
    rw [hrows]
    exact .refl _
  · exact paired_sweep hkt hp (hsw ▸ hswept u hu) hmove
  · exact paired_key hkt hp hi hswept hkm

theorem guarded_start (h : ∀ v o, On held s.calls v o → Guarded W s.store v o) {request : Request}
    (hfree : s.calls.lookup i = none) (hC : ∀ u, held request.call = some u → On held s.calls u none) :
    ∀ v o, On held (s.calls.insert i request.call) v o → Guarded W s.store v o := by
  have hnone : ∀ c, s.calls.lookup i = some c → held c = none := by
    intro c hc
    rw [hfree] at hc
    cases hc
  cases hu : held request.call with
  | none => exact forall_on_free hnone hu h fun _ _ _ hf => hf
  | some u =>
    refine forall_on_take hnone (hC u hu) hu h (fun _ _ _ _ hf => hf) fun hf => ?_
    obtain ⟨hmem, hrow⟩ := guarded_none_iff.mp hf
    refine ⟨fun hl => Or.inl (hmem hl), fun hl => Or.inl (hrow hl), fun d hd => ?_, fun d hd hm => ?_,
      fun d hd hc => ?_⟩
    · cases hd
      cases request with
      | key r => cases r <;> trivial
      | createUser | updateUser | deleteUser | setUserPassword | recordLogin => trivial
    · cases hd
      cases request with
      | key r => cases r <;> exact absurd rfl hm
      | createUser | updateUser | deleteUser | setUserPassword | recordLogin => exact absurd rfl hm
    · cases hd
      cases request with
      | createUser => cases hu
      | key | updateUser | deleteUser | setUserPassword | recordLogin => cases hc

theorem guarded_restart (h : ∀ v o, On held s.calls v o → Guarded W s.store v o)
    (hC : careful s .restart = true) :
    ∀ v o, On held (∅ : HashMap ℕ Call) v o → Guarded W s.store.reload v o := by
  refine forall_on_empty fun u => ?_
  obtain ⟨o, ho⟩ := exists_on held s.calls u
  have hrow : Live s.store.keyRows u → Active s.store.userRows u := by
    intro hl
    rcases (h u o ho).row hl with hact | ⟨c, rfl, hc⟩
    · exact hact
    · obtain ⟨-, i, hi⟩ := ho
      have := List.all_eq_true.mp hC c ((mem_values _ _).mpr ⟨i, hi⟩)
      rw [hc] at this
      cases this
  refine guarded_none_iff.mpr ⟨fun hl => hrow ?_, hrow⟩
  obtain ⟨k, r, hr, hu, he⟩ := hl
  obtain ⟨row, hk, rfl⟩ := lookup_reload.mp hr
  exact ⟨k, row, hk, hu, he⟩

theorem paired_restart : Paired st.reload := by
  intro k row r hrow he hr
  obtain ⟨row', hk, rfl⟩ := lookup_reload.mp hr
  change st.keyRows.lookup k = some row at hrow
  rw [hk] at hrow
  cases hrow
  exact he

/-- What holds in every state. -/
structure Inv (W : Prop) (s : State) : Prop where
  tables : KeyTables s
  synced : Synced s
  paired : Paired s.store
  guarded : ∀ v o, On held s.calls v o → Guarded W s.store v o

theorem inv_step {l : Label} (h : Inv W s) (hC : Orderly s l) (hW : W ∨ overtakes s l = false)
    (hs : step cfg s l = some s') : Inv W s' := by
  refine ⟨keyTables_step h.tables hs, synced_step h.synced hC.1 hs, ?_, ?_⟩
  · rcases step_cases hs with ⟨i, request, rfl, hi, rfl⟩ | ⟨i, a, c, st', c', rfl, hi, hm, -, rfl⟩ | ⟨rfl, rfl⟩
    · exact h.paired
    · exact paired_move h.tables h.paired h.guarded hi hm
    · exact paired_restart
  · rcases step_cases hs with ⟨i, request, rfl, hi, rfl⟩ | ⟨i, a, c, st', c', rfl, hi, hm, -, rfl⟩ | ⟨rfl, rfl⟩
    · exact guarded_start h.guarded hi hC.1
    · exact guarded_move h.tables h.synced h.paired h.guarded hi hC.2 hW hm
    · exact guarded_restart h.guarded hC.2

theorem inv_init : Inv W init := by
  refine ⟨keyTables_init, synced_init, fun _ _ _ h => (by cases h), forall_on_empty fun u => ?_⟩
  refine guarded_dead ?_ ?_ fun _ hd => (by cases hd)
  · rintro ⟨k, r, hr, -⟩
    cases hr
  · rintro ⟨k, r, hr, -⟩
    cases hr

end guarded

/-! ### What `authorize_record` accepts -/

/-- The owner of the key, if it has one, is there and enabled. -/
def OwnerActive (s : State) (r : KeyRecord) : Prop :=
  ∀ u, r.ownerUserId = some u → Active s.store.users u

/-- The same, unless a call of `update_user` has disabled the owner and not yet marked its keys. -/
def OwnerActiveOrUnmarked (s : State) (r : KeyRecord) : Prop :=
  ∀ u, r.ownerUserId = some u → Active s.store.users u ∨
    ∃ i c, s.calls.lookup i = some c ∧ held c = some u ∧ unmarked c = true

/-- At some moment of the run, while the call was running, memory had the enabled key, with the property. -/
def During (cfg : Config) (P : State → KeyRecord → Prop) (ls : List Label) (i : ℕ) (token : String)
    (r : KeyRecord) : Prop :=
  ∃ ls1 ls2 s1 pc1, ls = ls1 ++ ls2 ∧ Label.restart ∉ ls2 ∧ run (step cfg) init ls1 = some s1 ∧
    s1.calls.lookup i = some (.key (.authorizeRecord token pc1)) ∧
    loadEnabled cfg s1.store.keys token = some r ∧ P s1 r

/-- `authorize_record` accepts only keys with the property: every key that it would read now, and every key
that a call of it has returned, at a moment during the call. -/
def AcceptsOnly (cfg : Config) (P : State → KeyRecord → Prop) (ls : List Label) (s : State) : Prop :=
  (∀ token r, loadEnabled cfg s.store.keys token = some r → P s r) ∧
    ∀ i token r, s.calls.lookup i = some (.key (.authorizeRecord token (.done (some r)))) →
      During cfg P ls i token r

section accepts

variable {cfg : Config} {W : Prop} {P : State → KeyRecord → Prop} {s s' : State}

theorem During.later {ls : List Label} {i : ℕ} {token : String} {r : KeyRecord} {l : Label}
    (h : During cfg P ls i token r) (hl : l ≠ .restart) : During cfg P (ls ++ [l]) i token r := by
  obtain ⟨ls1, ls2, s1, pc1, rfl, hno, h'⟩ := h
  refine ⟨ls1, ls2 ++ [l], s1, pc1, by rw [List.append_assoc], ?_, h'⟩
  simp [hno, Ne.symm hl]

theorem authorize_of_callStep {st st' : Store} {a : Answer} {c : Call} {token : String} {pc' : Keys.AuthorizePc}
    (h : callStep cfg st a c = some (st', .key (.authorizeRecord token pc'))) :
    ∃ pc, c = .key (.authorizeRecord token pc) ∧
      Versions.AuthorizeSpec cfg st.keys token pc st'.keys pc' := by
  cases c with
  | key k =>
    simp only [callStep] at h
    split at h
    · obtain ⟨⟨keys, k'⟩, hk, he⟩ := Option.map_eq_some_iff.mp h
      cases he
      obtain ⟨pc, rfl, hspec⟩ := (Versions.callStep_spec hk).authorize token pc' rfl
      exact ⟨pc, rfl, hspec⟩
    · cases h
  | createUser | updateUser | deleteUser | setUserPassword | recordLogin =>
    obtain ⟨p, -, he⟩ := Option.map_eq_some_iff.mp h
    cases he

/-- What a call has read was there, with the property, while it was running. -/
theorem during_step {ls : List Label} {l : Label} (hrun : run (step cfg) init ls = some s)
    (hP : ∀ token r, loadEnabled cfg s.store.keys token = some r → P s r)
    (ih : ∀ i token pc r, s.calls.lookup i = some (.key (.authorizeRecord token pc)) →
      (Versions.read pc = some r ∨ Versions.result pc = some r) → During cfg P ls i token r)
    (hs : step cfg s l = some s') :
    ∀ i token pc r, s'.calls.lookup i = some (.key (.authorizeRecord token pc)) →
      (Versions.read pc = some r ∨ Versions.result pc = some r) → During cfg P (ls ++ [l]) i token r := by
  intro i token pc' r hi hr
  rcases step_cases hs with ⟨j, request, rfl, hj, rfl⟩ | ⟨j, a, c, st', c', rfl, hj, -, hc, rfl⟩ | ⟨-, rfl⟩
  · rw [lookup_insert] at hi
    split_ifs at hi
    · refine absurd ?_ (Versions.not_carries_start (.authorizeRecord token) r)
      refine Or.inr ⟨token, pc', ?_, hr⟩
      cases request with
      | key k => cases k <;> cases hi; rfl
      | createUser | updateUser | deleteUser | setUserPassword | recordLogin => cases hi
    · exact (ih i token pc' r hi hr).later (by simp)
  · rw [lookup_insert] at hi
    split_ifs at hi with hij
    · subst hij
      cases Option.some.inj hi
      obtain ⟨pc, rfl, ha⟩ := authorize_of_callStep hc
      rcases hr with hr | hr
      · rcases ha.read r hr with hr | ⟨hr, hen⟩
        · exact (ih i token pc r hj (Or.inl hr)).later (by simp)
        · have hload : loadEnabled cfg s.store.keys token = some r := by simp [loadEnabled, hr, hen]
          exact ⟨ls, [_], s, pc, rfl, by simp, hrun, hj, hload, hP token r hload⟩
      · rcases ha.result r hr with hr | ⟨hr, -⟩
        · exact (ih i token pc r hj (Or.inr hr)).later (by simp)
        · exact (ih i token pc r hj (Or.inl hr)).later (by simp)
    · exact (ih i token pc' r hi hr).later (by simp)
  · cases hi

theorem acceptsOnly_of_invariant {I : State → Prop} {C : State → Label → Prop} (h0 : I init)
    (hstep : ∀ s l s', I s → C s l → step cfg s l = some s' → I s')
    (hP : ∀ s, I s → ∀ token r, loadEnabled cfg s.store.keys token = some r → P s r) (ls : List Label)
    (hs : run (step cfg) init ls = some s) (hC : AllSteps (step cfg) C init ls) : AcceptsOnly cfg P ls s := by
  obtain ⟨hI, hcalls⟩ := run_history (C := C) (H := fun ls s => I s ∧ ∀ i token pc r,
      s.calls.lookup i = some (.key (.authorizeRecord token pc)) →
      (Versions.read pc = some r ∨ Versions.result pc = some r) → During cfg P ls i token r)
    ⟨h0, fun _ _ _ _ hi => (by cases hi)⟩
    (fun ls s l s' hrun h hC hs => ⟨hstep s l s' h.1 hC hs, during_step hrun (hP s h.1) h.2 hs⟩) ls s hC hs
  exact ⟨hP s hI, fun i token r hi => hcalls i token _ r hi (Or.inr rfl)⟩

theorem active_of_inv (h : Inv W s) {token : String} {r : KeyRecord}
    (hr : loadEnabled cfg s.store.keys token = some r) {u : String} (hu : r.ownerUserId = some u) :
    Active s.store.users u ∨ (W ∧ ∃ i c, s.calls.lookup i = some c ∧ held c = some u ∧ unmarked c = true) := by
  obtain ⟨hmem, hen⟩ := Versions.loadEnabled_eq_some hr
  obtain ⟨o, ho⟩ := exists_on held s.calls u
  rcases (h.guarded u o ho).mem ⟨_, r, hmem, hu, hen⟩ with hact | ⟨hW, c, rfl, hc⟩
  · exact Or.inl hact
  · obtain ⟨hheld, i, hi⟩ := ho
    exact Or.inr ⟨hW, i, c, hi, hheld, hc⟩

end accepts

/-- **Keys die with their owner.** In a run in which calls on one user do not overlap, a key is created only
for an enabled owner, the transaction that disables the keys of a disabled or deleted user succeeds, and the
process does not restart between the write of a disabled user and that transaction, `authorize_record`
accepts a key only if its owner is there and enabled, or is just being disabled by `update_user`. If
`update_user` never disables a user that has an enabled key, the owner is always there and enabled. -/
theorem keys_die_with_owner (cfg : Config) (ls : List Label) (s : State)
    (hs : run (step cfg) init ls = some s) :
    (AllSteps (step cfg) (fun s l => Orderly s l ∧ overtakes s l = false) init ls →
      AcceptsOnly cfg OwnerActive ls s) ∧
    (AllSteps (step cfg) Orderly init ls → AcceptsOnly cfg OwnerActiveOrUnmarked ls s) := by
  constructor
  · refine acceptsOnly_of_invariant (I := Inv False) inv_init
      (fun s l s' h hC hs => inv_step h hC.1 (Or.inr hC.2) hs) (fun s h token r hr u hu => ?_) ls hs
    rcases active_of_inv h hr hu with hact | ⟨hF, -⟩
    · exact hact
    · exact hF.elim
  · refine acceptsOnly_of_invariant (I := Inv True) inv_init
      (fun s l s' h hC hs => inv_step h hC (Or.inl trivial) hs) (fun s h token r hr u hu => ?_) ls hs
    exact (active_of_inv h hr hu).imp_right fun h => h.2

/-! ### Three runs -/

/-- `delete_user` begins, and has collected the key of the user. -/
def beginsDelete : List Label := [.start 2 (.deleteUser "u1"), .step 2 .silent, .step 2 (.key .silent)]

/-- Its transaction disables the key, which is then marked in memory. -/
def sweeps : List Label := .step 2 (.key (.database none)) :: List.replicate 4 (.step 2 (.key .silent))

/-- Its transaction fails. -/
def sweepsInVain : List Label := [.step 2 (.key (.database (some "disk I/O error")))]

/-- It deletes the user. -/
def endsDelete : List Label := [.step 2 (.written "" "" 9), .step 2 .silent, .step 2 .silent]

/-- `update_user` disables the user, and has not yet begun to disable its keys. -/
def beginsDisable : List Label :=
  [.start 2 (.updateUser "u1" ⟨none, none, none, some false, none⟩), .step 2 .silent,
    .step 2 (.tenant (some true)), .step 2 .silent, .step 2 (.written "" "" 3), .step 2 .silent, .step 2 .silent]

/-- The token of the key is presented. -/
def authorizes : List Label :=
  .start 3 (.key (.authorizeRecord "sk-abc")) :: List.replicate 11 (.step 3 (.key .silent))

/-- The key that a call of `authorize_record` has returned belongs to the user. -/
def returnedKeyOf (u : String) : Call → Bool
  | .key (.authorizeRecord _ (.done (some r))) => r.ownerUserId = some u
  | _ => false

/-- A key is accepted, then its owner is deleted, and the key with it. Another one is accepted while
`update_user` is disabling its owner. -/
theorem keys_die_with_owner_deleted :
    (∃ s, run (step Revocation.exampleConfig) init (createsUser ++ createsKey 1 "alpha" ++ authorizes ++
        (beginsDelete ++ sweeps ++ endsDelete)) = some s ∧
      AcceptsOnly Revocation.exampleConfig OwnerActive (createsUser ++ createsKey 1 "alpha" ++ authorizes ++
        (beginsDelete ++ sweeps ++ endsDelete)) s ∧
      (s.calls.lookup 3).any (returnedKeyOf "u1") = true ∧ s.store.users.lookup "u1" = none ∧
      loadEnabled Revocation.exampleConfig s.store.keys "sk-abc" = none) ∧
    ∃ s, run (step Revocation.exampleConfig) init (createsUser ++ createsKey 1 "alpha" ++ beginsDisable) =
        some s ∧
      AcceptsOnly Revocation.exampleConfig OwnerActiveOrUnmarked
        (createsUser ++ createsKey 1 "alpha" ++ beginsDisable) s ∧
      (s.store.users.lookup "u1").map UserRecord.enabled = some false ∧
      (loadEnabled Revocation.exampleConfig s.store.keys "sk-abc").isSome = true := by
  constructor
  · obtain ⟨s, hs, hp⟩ := exists_run (step Revocation.exampleConfig) init (createsUser ++
      createsKey 1 "alpha" ++ authorizes ++ (beginsDelete ++ sweeps ++ endsDelete)) (fun s =>
        (s.calls.lookup 3).any (returnedKeyOf "u1") = true ∧ s.store.users.lookup "u1" = none ∧
        loadEnabled Revocation.exampleConfig s.store.keys "sk-abc" = none) (by decide +kernel)
    exact ⟨s, hs, (keys_die_with_owner Revocation.exampleConfig _ s hs).1 (by decide +kernel), hp⟩
  · obtain ⟨s, hs, hp⟩ := exists_run (step Revocation.exampleConfig) init (createsUser ++
      createsKey 1 "alpha" ++ beginsDisable) (fun s =>
        (s.store.users.lookup "u1").map UserRecord.enabled = some false ∧
        (loadEnabled Revocation.exampleConfig s.store.keys "sk-abc").isSome = true) (by decide +kernel)
    exact ⟨s, hs, (keys_die_with_owner Revocation.exampleConfig _ s hs).2 (by decide +kernel), hp⟩

/-- The transaction that disables the keys fails: `delete_user` returns without an error, and the key of the
deleted user is accepted, also after a restart. -/
theorem key_outlives_owner : ∃ s0 s, run (step Revocation.exampleConfig) init (createsUser ++
      createsKey 1 "alpha" ++ (beginsDelete ++ sweepsInVain ++ endsDelete) ++ [.restart]) = some s0 ∧
    ⟨"u1", .deleted⟩ ∈ s0.log ∧ s0.store.users.lookup "u1" = none ∧
    run (step Revocation.exampleConfig) s0 authorizes = some s ∧
    (s.calls.lookup 3).any (returnedKeyOf "u1") = true ∧ s.store.users.lookup "u1" = none := by
  obtain ⟨s0, hs0, hlog, hu⟩ := exists_run (step Revocation.exampleConfig) init (createsUser ++
    createsKey 1 "alpha" ++ (beginsDelete ++ sweepsInVain ++ endsDelete) ++ [.restart]) (fun s =>
      ⟨"u1", .deleted⟩ ∈ s.log ∧ s.store.users.lookup "u1" = none) (by decide +kernel)
  obtain ⟨s, hs, hp⟩ := exists_run (step Revocation.exampleConfig) init (createsUser ++
    createsKey 1 "alpha" ++ (beginsDelete ++ sweepsInVain ++ endsDelete) ++ [.restart] ++ authorizes) (fun s =>
      (s.calls.lookup 3).any (returnedKeyOf "u1") = true ∧ s.store.users.lookup "u1" = none) (by decide +kernel)
  rw [run_append, hs0] at hs
  exact ⟨s0, s, hs0, hlog, hu, hs, hp⟩

end HomeLlmGateway.Storage.KeyOwners
