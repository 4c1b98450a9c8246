import HomeLlmGateway.Storage.Versions

/-! # Revocation

A call of `authorize_record` reads the record of its token from `runtime`, in the fast path and again
under its slot, and returns a record it has read; the cache only spares it the run of argon2. So a key
that has left `runtime`, or is disabled there, is not returned by a call that starts later (`Dead`). What
the cache says is right because a lookup and a `cred_version` determine the hash that was verified. -/

namespace HomeLlmGateway.Storage.Revocation

open HomeLlmGateway.Lib.Runs HomeLlmGateway.Lib.Assoc HomeLlmGateway.Storage.Cache
open HomeLlmGateway.Storage.Keys HomeLlmGateway.Storage.Versions

variable {cfg : Config} {l : Loaded} {s s' : State} {lab : Label} {r : KeyRecord} {i : ℕ}

/-! ### Revoked keys -/

/-- The key has been in `runtime`: no key on its way there has its version, and what `runtime` has under
its lookup and version is this key. -/
structure Seen (r : KeyRecord) (s : State) : Prop where
  below : r.credVersion ≤ s.store.generation
  pending : ∀ i c p, s.calls.lookup i = some c → pending c = some p → p.credVersion ≠ r.credVersion
  same : ∀ r', s.store.runtime.lookup r.lookup = some r' → r'.credVersion = r.credVersion →
    r'.id = r.id ∧ r'.ownerUserId = r.ownerUserId

/-- The key is out of use. -/
def Dead (r : KeyRecord) (s : State) : Prop :=
  ∀ r', s.store.runtime.lookup r.lookup = some r' → r'.credVersion = r.credVersion → r'.enabled = false

theorem seen_of_lookup {k : String} (h : Versioned s) (hr : s.store.runtime.lookup k = some r) :
    Seen r s := by
  refine ⟨h.below r (Or.inl ⟨k, hr⟩), fun i c p hi hp => (h.pendingNew i c p hi hp k r hr).symm,
    fun r' hr' _ => ?_⟩
  rw [h.keyed k r hr, hr] at hr'
  cases hr'
  exact ⟨rfl, rfl⟩

/-- What a step leaves in `runtime` under the lookup and version of a seen key. -/
theorem lookup_step {k : String} {r' : KeyRecord} (h : Seen r s) (hs : step cfg s lab = some s')
    (hk : s'.store.runtime.lookup k = some r') (hv : r'.credVersion = r.credVersion) :
    ∃ r0, s.store.runtime.lookup k = some r0 ∧ r0.credVersion = r.credVersion ∧ r'.id = r0.id ∧
      r'.ownerUserId = r0.ownerUserId ∧ (r0.enabled = false → r'.enabled = false) := by
  rcases step_cases hs with ⟨i, request, hi, rfl⟩ | ⟨d, rfl⟩ | ⟨i, c, st', c', hi, hspec, rfl⟩
  · exact ⟨r', hk, hv, rfl, rfl, id⟩
  · exact ⟨r', hk, hv, rfl, rfl, id⟩
  · rcases hspec.runtime k r' hk with ⟨r0, hr0, rfl | rfl⟩ | ⟨hp, -⟩
    · exact ⟨r', hr0, hv, rfl, rfl, id⟩
    · exact ⟨r0, hr0, hv, rfl, rfl, fun _ => rfl⟩
    · exact absurd hv (h.pending i c r' hi hp)

theorem seen_step (h : Seen r s) (hs : step cfg s lab = some s') : Seen r s' := by
  refine ⟨?_, ?_, fun r' hk hv => ?_⟩
  · rcases step_cases hs with ⟨i, request, hi, rfl⟩ | ⟨d, rfl⟩ | ⟨i, c, st', c', hi, hspec, rfl⟩
    · exact h.below
    · exact h.below
    · exact Nat.le_trans h.below hspec.generation
  · intro j cj p hj hp
    rcases step_cases hs with ⟨i, request, hi, rfl⟩ | ⟨d, rfl⟩ | ⟨i, c, st', c', hi, hspec, rfl⟩
    · simp only [lookup_insert] at hj
      split_ifs at hj
      · cases hj
        rw [pending_start] at hp
        cases hp
      · exact h.pending j cj p hj hp
    · exact h.pending j cj p hj hp
    · simp only [lookup_insert] at hj
      split_ifs at hj
      · cases hj
        obtain ⟨hv, hg⟩ := hspec.pending p hp
        have := h.below
        omega
      · exact h.pending j cj p hj hp
  · obtain ⟨r0, hr0, hv0, hid, ho, -⟩ := lookup_step h hs hk hv
    obtain ⟨hid0, ho0⟩ := h.same r0 hr0 hv0
    exact ⟨hid.trans hid0, ho.trans ho0⟩

theorem dead_step (h : Seen r s) (hd : Dead r s) (hs : step cfg s lab = some s') : Dead r s' := by
  intro r' hk hv
  obtain ⟨r0, hr0, hv0, -, -, he⟩ := lookup_step h hs hk hv
  exact he (hd r0 hr0 hv0)

theorem dead_of_gone (h : Seen r s) (hg : Gone r s.store) : Dead r s := by
  intro r' hk hv
  obtain ⟨hid, ho⟩ := h.same r' hk hv
  exact hg _ r' hk hid ho

theorem past_step (h : Seen r s)
    (hpast : ∀ c, s.calls.lookup i = some c → Past r c → Dead r s)
    (hs : step cfg s lab = some s') :
    ∀ c, s'.calls.lookup i = some c → Past r c → Dead r s' := by
  intro c' hc' hp
  have hseen := seen_step h hs
  have hdead : ∀ c, s.calls.lookup i = some c → Past r c → Dead r s' :=
    fun c hc hp => dead_step h (hpast c hc hp) hs
  rcases step_cases hs with ⟨j, request, hj, rfl⟩ | ⟨d, rfl⟩ | ⟨j, c, st', c1, hj, hspec, rfl⟩
  · simp only [lookup_insert] at hc'
    split_ifs at hc'
    · cases hc'
      cases request <;> cases hp
    · exact hdead c' hc' hp
  · exact hdead c' hc' hp
  · simp only [lookup_insert] at hc'
    split_ifs at hc' with hij
    · cases hc'
      rcases hspec.past r hp with hp | hg
      · exact hdead c (hij ▸ hj) hp
      · exact dead_of_gone hseen hg
    · exact hdead c' hc' hp

/-- The call has not come upon the key. -/
def Avoids (r : KeyRecord) (c : Call) : Prop :=
  ∀ token pc r', c = .authorizeRecord token pc → (read pc = some r' ∨ result pc = some r') →
    r'.lookup = r.lookup → r'.credVersion ≠ r.credVersion

/-- A call of `authorize_record` that starts after the key went out of use does not come upon it. -/
theorem avoids_step (hv : Versioned s) (hd : Dead r s)
    (ha : ∀ c, s.calls.lookup i = some c → Avoids r c) (hs : step cfg s lab = some s') :
    ∀ c, s'.calls.lookup i = some c → Avoids r c := by
  intro c' hc'
  rcases step_cases hs with ⟨j, request, hj, rfl⟩ | ⟨d, rfl⟩ | ⟨j, c, st', c1, hj, hspec, rfl⟩
  · simp only [lookup_insert] at hc'
    split_ifs at hc'
    · cases hc'
      intro token pc r' hc hr
      exact absurd (Or.inr ⟨token, pc, hc, hr⟩) (not_carries_start request r')
    · exact ha c' hc'
  · exact ha c' hc'
  · simp only [lookup_insert] at hc'
    split_ifs at hc' with hij
    · cases hc'
      intro token pc' r' hc hr hl
      obtain ⟨pc, rfl, hauth⟩ := hspec.authorize token pc' hc
      have hold := ha _ (hij ▸ hj) token pc r' rfl
      rcases hr with hr | hr
      · rcases hauth.read r' hr with hr | ⟨hrun, hen⟩
        · exact hold (Or.inl hr) hl
        · intro hver
          have hk : r.lookup = cfg.lookupOf token := hl.symm.trans (hv.keyed _ r' hrun)
          have := hd r' (hk ▸ hrun) hver
          rw [hen] at this
          cases this
      · rcases hauth.result r' hr with hr | ⟨hr, -⟩
        · exact hold (Or.inr hr) hl
        · exact hold (Or.inl hr) hl
    · exact ha c' hc'

/-- A revoking call that has returned: `delete` of the key, or `disable_keys_for_owner` of its owner. -/
def Revoked (r : KeyRecord) : Call → Prop
  | .delete id (.done _) => id = r.id
  | .disableKeysForOwner owner (.done _) => r.ownerUserId = some owner
  | _ => False

theorem past_of_revoked {c : Call} (h : Revoked r c) : Past r c := by
  unfold Revoked at h
  split at h
  · exact h
  · exact h
  · exact h.elim

/-- A key that was in `runtime` before a revoking call dealt with it is out of use when the call has
returned. -/
theorem dead_of_revoked {s0 s1 : State} {k : String} {d : ℕ} {c : Call}
    (h0 : Reaches (step cfg) (init l) s0) (hr : s0.store.runtime.lookup k = some r)
    (hd : ∀ c, s0.calls.lookup d = some c → ¬ Past r c) (h1 : Reaches (step cfg) s0 s1)
    (hc : s1.calls.lookup d = some c) (hrev : Revoked r c) : Seen r s1 ∧ Dead r s1 := by
  have hinv := run_invariant (I := fun s => Seen r s ∧ ∀ c, s.calls.lookup d = some c → Past r c → Dead r s)
    (fun s lab s' hI hs => ⟨seen_step hI.1 hs, past_step hI.1 hI.2 hs⟩)
    ⟨seen_of_lookup (versioned_reaches h0) hr, fun c hc hp => absurd hp (hd c hc)⟩ h1
  exact ⟨hinv.1, hinv.2 c hc (past_of_revoked hrev)⟩

theorem not_returned_of_dead {s1 s2 : State} {a : ℕ} {token : String} {r' : KeyRecord}
    (hv : Versioned s1) (hseen : Seen r s1) (hdead : Dead r s1) (ha : s1.calls.lookup a = none)
    (h2 : Reaches (step cfg) s1 s2)
    (hc : s2.calls.lookup a = some (.authorizeRecord token (.done (some r')))) :
    ¬ (r'.lookup = r.lookup ∧ r'.credVersion = r.credVersion) := by
  have hinv := run_invariant (I := fun s => (Versioned s ∧ Seen r s ∧ Dead r s) ∧
      ∀ c, s.calls.lookup a = some c → Avoids r c)
    (fun s lab s' hI hs => ⟨⟨versioned_step hI.1.1 hs, seen_step hI.1.2.1 hs,
      dead_step hI.1.2.1 hI.1.2.2 hs⟩, avoids_step hI.1.1 hI.1.2.2 hI.2 hs⟩)
    ⟨⟨hv, hseen, hdead⟩, fun c hc => by rw [ha] at hc; cases hc⟩ h2
  rintro ⟨hl, hver⟩
  exact hinv.2 _ hc token _ r' rfl (Or.inr rfl) hl hver

/-! ### What is returned was verified -/

/-- No two of the tokens presented so far have the same lookup. -/
def NoCollision (cfg : Config) (s : State) : Prop :=
  ∀ i j c c' t t', s.calls.lookup i = some c → s.calls.lookup j = some c' → presented c = some t →
    presented c' = some t' → cfg.lookupOf t = cfg.lookupOf t' → t = t'

theorem presented_step (hs : step cfg s lab = some s') {c : Call} (hc : s.calls.lookup i = some c) :
    ∃ c', s'.calls.lookup i = some c' ∧ presented c' = presented c := by
  rcases step_cases hs with ⟨j, request, hj, rfl⟩ | ⟨d, rfl⟩ | ⟨j, c1, st', c', hj, hspec, rfl⟩
  · refine ⟨c, ?_, rfl⟩
    have hne : i ≠ j := by
      rintro rfl
      rw [hj] at hc
      cases hc
    simp only [lookup_insert, if_neg hne]
    exact hc
  · exact ⟨c, hc, rfl⟩
  · by_cases hij : i = j
    · subst hij
      rw [hj] at hc
      cases hc
      exact ⟨c', by simp, hspec.presented⟩
    · exact ⟨c, by simp only [lookup_insert, if_neg hij]; exact hc, rfl⟩

theorem noCollision_back (hs : step cfg s lab = some s') (h : NoCollision cfg s') :
    NoCollision cfg s := by
  intro i j c c' t t' hi hj ht ht'
  obtain ⟨c1, hi1, hp1⟩ := presented_step hs hi
  obtain ⟨c2, hj2, hp2⟩ := presented_step hs hj
  exact h i j c1 c2 t t' hi1 hj2 (hp1.trans ht) (hp2.trans ht')

/-- What a call settles on, and what the cache has, was verified. -/
structure Sound (cfg : Config) (s : State) : Prop where
  carried : ∀ i token pc r, s.calls.lookup i = some (.authorizeRecord token pc) →
    (read pc = some r ∨ result pc = some r) → r.lookup = cfg.lookupOf token
  results : ∀ i token pc r, s.calls.lookup i = some (.authorizeRecord token pc) →
    result pc = some r → cfg.verifyArgon2 token r.keyHash = true
  entries : ∀ k v, s.store.verified.entries.lookup k = some v → v.record.lookup = k ∧
    ∃ i c token, s.calls.lookup i = some c ∧ presented c = some token ∧ cfg.lookupOf token = k ∧
      cfg.verifyArgon2 token v.record.keyHash = true

theorem sound_init : Sound cfg (init l) where
  carried i token pc r h := by cases h
  results i token pc r h := by cases h
  entries k v h := by cases h

/-- A cached identity stands for a run of argon2 on the same hash. -/
theorem verified_of_cached (h : Sound cfg s) (hv : Versioned s) (hn : NoCollision cfg s)
    {token : String} {pc : AuthorizePc} (hi : s.calls.lookup i = some (.authorizeRecord token pc))
    (hr : read pc = some r)
    (hc : s.store.verified.isCached cfg.ttl s.store.now (cfg.lookupOf token) r.credVersion = true) :
    cfg.verifyArgon2 token r.keyHash = true := by
  obtain ⟨hit, hhit, hver⟩ := VerifiedCache.isCached_eq_true hc
  obtain ⟨hl, j, c, token', hj, hp, hl', hverify⟩ := h.entries _ hit hhit
  have htok : token' = token := hn j i c _ token' token hj hi hp rfl hl'
  have hhash : hit.record.keyHash = r.keyHash :=
    hv.unique hit.record r (Or.inr (Or.inl ⟨_, hit, hhit, rfl⟩))
      (Or.inr (Or.inr ⟨i, _, hi, Or.inr ⟨token, pc, rfl, Or.inl hr⟩⟩))
      (hl.trans (h.carried i token pc r hi (Or.inl hr)).symm) hver
  rw [← htok, ← hhash]
  exact hverify

/-- **One step** keeps what is returned and cached verified. -/
theorem sound_step (h : Sound cfg s) (hv : Versioned s) (hn : NoCollision cfg s)
    (hs : step cfg s lab = some s') : Sound cfg s' := by
  have hkeep : ∀ k v, s.store.verified.entries.lookup k = some v → v.record.lookup = k ∧
      ∃ i c token, s'.calls.lookup i = some c ∧ presented c = some token ∧ cfg.lookupOf token = k ∧
        cfg.verifyArgon2 token v.record.keyHash = true := by
    intro k v hkv
    obtain ⟨hl, j, c, token, hj, hp, hk, hver⟩ := h.entries k v hkv
    obtain ⟨c', hj', hp'⟩ := presented_step hs hj
    exact ⟨hl, j, c', token, hj', hp'.trans hp, hk, hver⟩
  rcases step_cases hs with ⟨i, request, hi, rfl⟩ | ⟨d, rfl⟩ | ⟨i, c, st', c', hi, hspec, rfl⟩
  · have hold : ∀ j token pc r, (s.calls.insert i request.call).lookup j =
        some (.authorizeRecord token pc) → (read pc = some r ∨ result pc = some r) →
        s.calls.lookup j = some (.authorizeRecord token pc) := by
      intro j token pc r hj hr
      rw [lookup_insert] at hj
      split_ifs at hj
      · refine absurd ?_ (not_carries_start request r)
        exact Or.inr ⟨token, pc, Option.some.inj hj, hr⟩
      · exact hj
    exact ⟨fun j token pc r hj hr => h.carried j token pc r (hold j token pc r hj hr) hr,
      fun j token pc r hj hr => h.results j token pc r (hold j token pc r hj (Or.inr hr)) hr, hkeep⟩
  · exact ⟨h.carried, h.results, hkeep⟩
  · refine ⟨fun j token pc' r hj hr => ?_, fun j token pc' r hj hr => ?_, fun k v hkv => ?_⟩
    · simp only [lookup_insert] at hj
      split_ifs at hj
      · obtain ⟨pc, rfl, ha⟩ := hspec.authorize token pc' (Option.some.inj hj)
        rcases hr with hr | hr
        · rcases ha.read r hr with hr | ⟨hr, -⟩
          · exact h.carried i token pc r hi (Or.inl hr)
          · exact hv.keyed _ r hr
        · rcases ha.result r hr with hr | ⟨hr, -⟩
          · exact h.carried i token pc r hi (Or.inr hr)
          · exact h.carried i token pc r hi (Or.inl hr)
      · exact h.carried j token pc' r hj hr
    · simp only [lookup_insert] at hj
      split_ifs at hj
      · obtain ⟨pc, rfl, ha⟩ := hspec.authorize token pc' (Option.some.inj hj)
        rcases ha.result r hr with hr | ⟨hread, hver | hcached⟩
        · exact h.results i token pc r hi hr
        · exact hver
        · exact verified_of_cached h hv hn hi hread hcached
      · exact h.results j token pc' r hj hr
    · rcases hspec.entries k v hkv with hkv | ⟨token, pc, rfl, rfl, hr⟩
      · exact hkeep k v hkv
      · obtain ⟨c1, hc1, hp1⟩ := presented_step hs hi
        exact ⟨h.carried i token pc _ hi (Or.inr hr), i, c1, token, hc1, hp1, rfl,
          h.results i token pc _ hi hr⟩

theorem sound_reaches (h : Reaches (step cfg) (init l) s) (hn : NoCollision cfg s) : Sound cfg s := by
  have hinv := run_invariant (I := fun s => Versioned s ∧ (NoCollision cfg s → Sound cfg s))
    (fun s lab s' hI hs => ⟨versioned_step hI.1 hs, fun hn' =>
      have hn := noCollision_back hs hn'
      sound_step (hI.2 hn) hI.1 hn hs⟩)
    ⟨versioned_init l, fun _ => sound_init⟩ h
  exact hinv.2 hn

/-! ### What is returned was enabled during the call -/

/-- At some moment of the run, while the call was running, `runtime` had the enabled record. -/
def EnabledDuring (cfg : Config) (l : Loaded) (ls : List Label) (i : ℕ) (token : String)
    (r : KeyRecord) : Prop :=
  ∃ ls1 ls2 s1 pc1, ls = ls1 ++ ls2 ∧ run (step cfg) (init l) ls1 = some s1 ∧
    s1.calls.lookup i = some (.authorizeRecord token pc1) ∧ (∀ o, pc1 ≠ .done o) ∧
    s1.store.runtime.lookup (cfg.lookupOf token) = some r ∧ r.enabled = true

theorem EnabledDuring.later {ls : List Label} {token : String} (lab : Label)
    (h : EnabledDuring cfg l ls i token r) : EnabledDuring cfg l (ls ++ [lab]) i token r := by
  obtain ⟨ls1, ls2, s1, pc1, rfl, h'⟩ := h
  exact ⟨ls1, ls2 ++ [lab], s1, pc1, by rw [List.append_assoc], h'⟩

theorem enabledDuring_run (ls : List Label) (s : State) (h : run (step cfg) (init l) ls = some s) :
    ∀ i token pc r, s.calls.lookup i = some (.authorizeRecord token pc) →
      (read pc = some r ∨ result pc = some r) → EnabledDuring cfg l ls i token r := by
  refine run_history (C := fun _ _ => True) (H := fun ls s => ∀ i token pc r,
    s.calls.lookup i = some (.authorizeRecord token pc) → (read pc = some r ∨ result pc = some r) →
      EnabledDuring cfg l ls i token r) ?_ ?_ ls s (allSteps_true ls _) h
  · intro i token pc r hi
    cases hi
  · intro ls s lab s' hrun ih _ hs i token pc' r hi hr
    rcases step_cases hs with ⟨j, request, hj, rfl⟩ | ⟨d, rfl⟩ | ⟨j, c, st', c', hj, hspec, rfl⟩
    · simp only [lookup_insert] at hi
      split_ifs at hi
      · refine absurd ?_ (not_carries_start request r)
        exact Or.inr ⟨token, pc', Option.some.inj hi, hr⟩
      · exact (ih i token pc' r hi hr).later lab
    · exact (ih i token pc' r hi hr).later lab
    · simp only [lookup_insert] at hi
      split_ifs at hi with hij
      · obtain ⟨pc, rfl, ha⟩ := hspec.authorize token pc' (Option.some.inj hi)
        subst hij
        rcases hr with hr | hr
        · rcases ha.read r hr with hr | ⟨hr, hen⟩
          · exact (ih i token pc r hj (Or.inl hr)).later lab
          · exact ⟨ls, [lab], s, pc, rfl, hrun, hj, ha.running, hr, hen⟩
        · rcases ha.result r hr with hr | ⟨hr, -⟩
          · exact (ih i token pc r hj (Or.inr hr)).later lab
          · exact (ih i token pc r hj (Or.inl hr)).later lab
      · exact (ih i token pc' r hi hr).later lab

/-- **Revocation is linearizable against the cache.** Let a key be in `runtime` at a moment when a call
that revokes it (`delete` of its id, `disable_keys_for_owner` of its owner) has not started, or has not yet
dealt with it. Once that call has returned, no call of `authorize_record` that starts afterwards returns
the key. And every record that a call returns was in `runtime` and enabled while the call was running,
and the token it presented matches the record's hash, unless two tokens were presented with the same
SHA-256. -/
theorem revocation_linearizable (ls : List Label) (h : run (step cfg) (init l) ls = some s) :
    (∀ ls0 ls1 ls2 s0 s1 k r d c a token r', ls = ls0 ++ (ls1 ++ ls2) →
      run (step cfg) (init l) ls0 = some s0 → s0.store.runtime.lookup k = some r →
      (∀ c, s0.calls.lookup d = some c → ¬ Past r c) →
      run (step cfg) s0 ls1 = some s1 → s1.calls.lookup d = some c → Revoked r c →
      s1.calls.lookup a = none →
      s.calls.lookup a = some (.authorizeRecord token (.done (some r'))) →
      ¬ (r'.lookup = r.lookup ∧ r'.credVersion = r.credVersion)) ∧
    ∀ i token r, s.calls.lookup i = some (.authorizeRecord token (.done (some r))) →
      EnabledDuring cfg l ls i token r ∧
        (NoCollision cfg s → cfg.verifyArgon2 token r.keyHash = true) := by
  refine ⟨?_, fun i token r hi => ⟨?_, fun hn => ?_⟩⟩
  · intro ls0 ls1 ls2 s0 s1 k r d c a token r' hls h0 hr hd h1 hc hrev ha hret
    have hs01 : run (step cfg) (init l) (ls0 ++ ls1) = some s1 := by
      rw [run_append, h0]
      exact h1
    have h2 : run (step cfg) s1 ls2 = some s := by
      rw [hls, ← List.append_assoc, run_append, hs01] at h
      exact h
    obtain ⟨hseen, hdead⟩ := dead_of_revoked ⟨_, h0⟩ hr hd ⟨_, h1⟩ hc hrev
    exact not_returned_of_dead (versioned_reaches ⟨_, hs01⟩) hseen hdead ha ⟨_, h2⟩ hret
  · exact enabledDuring_run ls s h i token _ r hi (Or.inr rfl)
  · exact (sound_reaches ⟨_, h⟩ hn).results i token _ r hi rfl

/-! ### A run -/

/-- An Argon2id hash of `sk-abc` and one of `sk-xyz`. -/
def abcHash : String :=
  "$argon2id$v=19$m=8,t=1,p=1$MDEyMzQ1Njc4OWFiY2RlZg$+l7s8x6rTL9BbA90KsxVZO+V1MH5rGX7PI0osYLlXe8"

@[inherit_doc abcHash]
def xyzHash : String :=
  "$argon2id$v=19$m=8,t=1,p=1$ZmVkY2JhOTg3NjU0MzIxMA$Pg1W3OT6lZL6evh/OKKSYhTWRz7xxqcWmKzPPqYjISo"

/-- The two tokens with their SHA-256. -/
def exampleConfig : Config where
  maxEntries := 2
  ttl := 10
  lookupOf t :=
    if t = "sk-abc" then "1460db1b6902f8b1fc2a40d9381a24d0fd22c3bc1b2c6f999c521da73776fbe0"
    else if t = "sk-xyz" then "29a9730cdbc7afdfe89a568bd715a10277160376debc99e2f98e824b9916776c"
    else "~" ++ t
  verifyArgon2 t h := (t == "sk-abc" && h == abcHash) || (t == "sk-xyz" && h == xyzHash)

/-- No key in the database. -/
def noKeys : Loaded where
  keys := ∅
  lookup_eq h := by cases h
  credVersion_eq h := by cases h

/-- The keys that are created for the two tokens. -/
def abcKey : KeyRecord :=
  ⟨"id1", abcHash, exampleConfig.lookupOf "sk-abc", "a", 5, true, 2, "default", none⟩

@[inherit_doc abcKey]
def xyzKey : KeyRecord :=
  ⟨"id2", xyzHash, exampleConfig.lookupOf "sk-xyz", "b", 6, true, 3, "default", none⟩

/-- The two keys are created. -/
def creates : List Label :=
  [.start 0 (.createIn "default" none "a"), .step 0 (.tables (some true) none),
    .step 0 (.inserted "id1" "sk-abc" abcHash 5), .step 0 .silent, .step 0 .silent,
    .start 1 (.createIn "default" none "b"), .step 1 (.tables (some true) none),
    .step 1 (.inserted "id2" "sk-xyz" xyzHash 6), .step 1 .silent, .step 1 .silent]

/-- The first one is deleted. -/
def deletes : List Label :=
  [.start 2 (.delete "id1"), .step 2 .silent, .step 2 (.database none), .step 2 .silent,
    .step 2 .silent, .step 2 .silent]

/-- The second token is authorized by a run of argon2. -/
def authorizes : List Label :=
  .start 3 (.authorizeRecord "sk-xyz") :: List.replicate 11 (.step 3 .silent)

/-- After the first key is deleted, the second one is returned. -/
theorem revocation_linearizable_delete :
    ∃ s, run (step exampleConfig) (init noKeys) (creates ++ (deletes ++ authorizes)) = some s ∧
      s.calls.lookup 3 = some (.authorizeRecord "sk-xyz" (.done (some xyzKey))) ∧
      ¬ (xyzKey.lookup = abcKey.lookup ∧ xyzKey.credVersion = abcKey.credVersion) ∧
      EnabledDuring exampleConfig noKeys (creates ++ (deletes ++ authorizes)) 3 "sk-xyz" xyzKey := by
  obtain ⟨s0, h0, hr, hd⟩ := exists_run (step exampleConfig) (init noKeys) creates
    (fun s => s.store.runtime.lookup abcKey.lookup = some abcKey ∧ s.calls.lookup 2 = none) (by decide)
  obtain ⟨s1, h1, hc, ha⟩ := exists_run (step exampleConfig) (init noKeys) (creates ++ deletes)
    (fun s => s.calls.lookup 2 = some (.delete "id1" (.done true)) ∧ s.calls.lookup 3 = none)
    (by decide)
  obtain ⟨s, h, hret⟩ := exists_run (step exampleConfig) (init noKeys)
    (creates ++ (deletes ++ authorizes)) (fun s => s.calls.lookup 3 =
      some (.authorizeRecord "sk-xyz" (.done (some xyzKey)))) (by decide)
  have h01 : run (step exampleConfig) s0 deletes = some s1 := by
    rw [run_append, h0] at h1
    exact h1
  obtain ⟨hrev, hret'⟩ := revocation_linearizable (creates ++ (deletes ++ authorizes)) h
  have hnot := hrev creates deletes authorizes s0 s1 _ abcKey 2 _ 3 _ xyzKey rfl h0 hr
    (fun c hc' => by rw [hd] at hc'; cases hc') h01 hc rfl ha hret
  exact ⟨s, h, hret, hnot, (hret' 3 _ xyzKey hret).1⟩

end HomeLlmGateway.Storage.Revocation
