import HomeLlmGateway.Lib.Holding
import HomeLlmGateway.Storage.Revocation

/-! # Single flight

The calls of `Storage.Keys` with one more thing that can happen: the check of argon2 panics. The thread
unwinds, which drops its `FlightGuard` and then the lock of the slot, as a return does; `lock_or_recover`
makes nothing of the poison.

A call that runs the check has the lock of a slot, and the slot is the one in the table (`Flights`). The
table is only changed by a call that makes a slot there and by the holder of the current slot, so no two
calls run the check for one lookup, and each slot in the table has a call that attends to it
(`single_flight`). -/

namespace HomeLlmGateway.Storage.SingleFlight

open HomeLlmGateway.Lib.Runs HomeLlmGateway.Lib.Assoc HomeLlmGateway.Lib.Holding
open HomeLlmGateway.Storage.Cache HomeLlmGateway.Storage.Keys

/-! ### Calls and panics -/

inductive Label where
  | call (l : Keys.Label)
  /-- the check that the call `i` runs panics -/
  | panic (i : ℕ)
  deriving DecidableEq

def step (cfg : Config) (s : State) : Label → Option State
  | .call l => Keys.step cfg s l
  | .panic i =>
    match s.calls.lookup i with
    | some (.authorizeRecord token (.probing slot _)) =>
      some { s with calls := s.calls.insert i (.authorizeRecord token (.cleaning slot none)) }
    | _ => none

variable {cfg : Config} {l : Loaded} {st st' : Store} {s s' : State} {lab : Label} {token : String}
  {pc pc' : AuthorizePc}

/-! ### Slots in use -/

/-- The slot whose lock the call has. -/
def locks : AuthorizePc → Option ℕ
  | .confirming slot | .retrying slot | .reading slot | .rechecking slot _ | .probing slot _
  | .putting slot _ | .cleaning slot _ | .unlocking slot _ => some slot
  | .start | .probingUncached _ | .checking _ | .taking | .waiting _ | .done _ => none

/-- The slot that the call has found to be the current one, until it removes it. -/
def owns : AuthorizePc → Option ℕ
  | .reading slot | .rechecking slot _ | .probing slot _ | .putting slot _ | .cleaning slot _ => some slot
  | .start | .probingUncached _ | .checking _ | .taking | .waiting _ | .confirming _ | .retrying _
  | .unlocking _ _ | .done _ => none

/-- The slot that the call will come to own if it is still current then. -/
def attends : AuthorizePc → Option ℕ
  | .waiting slot | .confirming slot => some slot
  | pc => owns pc

theorem locks_of_owns {slot : ℕ} (h : owns pc = some slot) : locks pc = some slot := by
  cases pc <;> first | exact h | cases h

/-- The lock that a call has. -/
def heldSlot : Call → Option ℕ
  | .authorizeRecord _ pc => locks pc
  | _ => none

/-- The check is under way. -/
def probes : AuthorizePc → Bool
  | .probingUncached _ | .probing _ _ => true
  | _ => false

/-- The call is inside `verify_or_cached`. -/
def inside : AuthorizePc → Bool
  | .start | .done _ => false
  | _ => true

/-- What a step of `authorize_record` does to the locks and to the table. -/
structure FlightSpec (cfg : Config) (st : Store) (token : String) (pc : AuthorizePc) (st' : Store)
    (pc' : AuthorizePc) : Prop where
  /-- it keeps its lock, takes one that is free, or gives it back -/
  lock : (locks pc' = locks pc ∧ st'.locked = st.locked) ∨
    (∃ slot, locks pc = none ∧ locks pc' = some slot ∧ st.locked slot = false ∧
      st'.locked = Function.update st.locked slot true) ∨
    ∃ slot, locks pc = some slot ∧ locks pc' = none ∧ st'.locked = Function.update st.locked slot false
  /-- it owns what it owned, or what it finds in the table -/
  own : ∀ slot, owns pc' = some slot → st'.verified.inflight = st.verified.inflight ∧
    (owns pc = some slot ∨ st.verified.inflight.lookup (cfg.lookupOf token) = some slot)
  /-- what is new in the table it attends to -/
  grow : ∀ k slot, st'.verified.inflight.lookup k = some slot →
    st.verified.inflight.lookup k = some slot ∨ (k = cfg.lookupOf token ∧ attends pc' = some slot)
  /-- what it leaves is not in the table -/
  leave : ∀ slot, attends pc = some slot → attends pc' = some slot ∨
    st'.verified.inflight.lookup (cfg.lookupOf token) ≠ some slot
  /-- what it removes it owned -/
  shrink : ∀ k slot, st.verified.inflight.lookup k = some slot →
    st'.verified.inflight.lookup k = some slot ∨ (k = cfg.lookupOf token ∧ owns pc = some slot)
  /-- with a cache, the check is only run with the slot -/
  cached : cfg.maxEntries ≠ 0 → ∀ r, pc' ≠ .probingUncached r

theorem FlightSpec.still (hi : st'.verified.inflight = st.verified.inflight)
    (lock : (locks pc' = locks pc ∧ st'.locked = st.locked) ∨
      (∃ slot, locks pc = none ∧ locks pc' = some slot ∧ st.locked slot = false ∧
        st'.locked = Function.update st.locked slot true) ∨
      ∃ slot, locks pc = some slot ∧ locks pc' = none ∧ st'.locked = Function.update st.locked slot false)
    (own : ∀ slot, owns pc' = some slot →
      owns pc = some slot ∨ st.verified.inflight.lookup (cfg.lookupOf token) = some slot)
    (leave : ∀ slot, attends pc = some slot → attends pc' = some slot ∨
      st'.verified.inflight.lookup (cfg.lookupOf token) ≠ some slot)
    (hp : ∀ r, pc' ≠ .probingUncached r) : FlightSpec cfg st token pc st' pc' where
  lock := lock
  own slot h := ⟨hi, own slot h⟩
  grow _ _ h := Or.inl (hi ▸ h)
  leave := leave
  shrink _ _ h := Or.inl (hi ▸ h)
  cached _ := hp

theorem FlightSpec.quiet (hl : locks pc' = locks pc) (ho : owns pc' = owns pc)
    (ha : attends pc' = attends pc) (hlocked : st'.locked = st.locked)
    (hi : st'.verified.inflight = st.verified.inflight) (hp : ∀ r, pc' ≠ .probingUncached r) :
    FlightSpec cfg st token pc st' pc' :=
  .still hi (Or.inl ⟨hl, hlocked⟩) (fun _ h => Or.inl (ho ▸ h)) (fun _ h => Or.inl (ha ▸ h)) hp

theorem flightSpec_taking (st : Store) (token : String) :
    FlightSpec cfg st token .taking
      { st with
        verified := (st.verified.flight (cfg.lookupOf token) st.nextSlot).2
        nextSlot := st.nextSlot + 1 }
      (.waiting (st.verified.flight (cfg.lookupOf token) st.nextSlot).1) where
  lock := Or.inl ⟨rfl, rfl⟩
  own _ h := by cases h
  grow k slot h := by
    unfold VerifiedCache.flight at h ⊢
    cases hl : st.verified.inflight.lookup (cfg.lookupOf token) with
    | some n =>
      rw [hl] at h
      exact Or.inl h
    | none =>
      simp only [hl, lookup_insert] at h
      split_ifs at h with hk
      · exact Or.inr ⟨hk, h⟩
      · exact Or.inl h
  leave _ h := by cases h
  shrink k slot h := by
    refine Or.inl ?_
    unfold VerifiedCache.flight
    cases hl : st.verified.inflight.lookup (cfg.lookupOf token) with
    | some n => exact h
    | none =>
      have hk : k ≠ cfg.lookupOf token := by
        rintro rfl
        rw [hl] at h
        cases h
      simp only [lookup_insert, if_neg hk]
      exact h
  cached _ r h := by cases h

theorem flightSpec_cleaning (st : Store) (token : String) (slot : ℕ) (result : Option KeyRecord) :
    FlightSpec cfg st token (.cleaning slot result)
      { st with verified := st.verified.removeIfCurrent (cfg.lookupOf token) slot }
      (.unlocking slot result) where
  lock := Or.inl ⟨rfl, rfl⟩
  own _ h := by cases h
  grow k n h := by
    refine Or.inl ?_
    unfold VerifiedCache.removeIfCurrent at h
    split_ifs at h
    · rw [lookup_erase] at h
      split_ifs at h
      exact h
    · exact h
  leave n h := by
    cases h
    refine Or.inr ?_
    unfold VerifiedCache.removeIfCurrent
    split_ifs with hc
    · simp
    · simpa [VerifiedCache.isCurrent] using hc
  shrink k n h := by
    unfold VerifiedCache.removeIfCurrent
    split_ifs with hc
    · by_cases hk : k = cfg.lookupOf token
      · subst hk
        have hcur : st.verified.inflight.lookup (cfg.lookupOf token) = some slot := by
          simpa [VerifiedCache.isCurrent] using hc
        exact Or.inr ⟨rfl, hcur.symm.trans h⟩
      · refine Or.inl ?_
        simp only [lookup_erase, if_neg hk]
        exact h
    · exact Or.inl h
  cached _ r h := by cases h

/-- **One step of `authorize_record`.** -/
theorem flightSpec_of_authorizeStep (h : authorizeStep cfg st token pc = some (st', pc')) :
    FlightSpec cfg st token pc st' pc' := by
  cases pc with
  | start =>
    simp only [authorizeStep] at h
    split at h
    · cases h
      exact .quiet rfl rfl rfl rfl rfl (by simp)
    · split_ifs at h with hmax <;> cases h
      · exact ⟨Or.inl ⟨rfl, rfl⟩, fun _ h => (by cases h), fun _ _ h => Or.inl h, fun _ h => (by cases h),
          fun _ _ h => Or.inl h, fun hne => absurd hmax hne⟩
      · exact .quiet rfl rfl rfl rfl rfl (by simp)
  | probingUncached r =>
    simp only [authorizeStep, Option.some.injEq, Prod.mk.injEq] at h
    obtain ⟨rfl, rfl⟩ := h
    exact .quiet rfl rfl rfl rfl rfl (by simp)
  | checking r =>
    simp only [authorizeStep] at h
    split_ifs at h <;> cases h <;> exact .quiet rfl rfl rfl rfl rfl (by simp)
  | taking =>
    simp only [authorizeStep, Option.some.injEq, Prod.mk.injEq] at h
    obtain ⟨rfl, rfl⟩ := h
    exact flightSpec_taking st token
  | waiting slot =>
    simp only [authorizeStep] at h
    split_ifs at h with hlocked
    cases h
    have hfree : st.locked slot = false := Bool.eq_false_of_not_eq_true hlocked
    exact .still rfl (Or.inr (Or.inl ⟨slot, rfl, rfl, hfree, rfl⟩)) (fun _ h => (by cases h))
      (fun _ h => Or.inl h) (by simp)
  | confirming slot =>
    simp only [authorizeStep] at h
    split_ifs at h with hc <;> cases h
    · refine .still rfl (Or.inl ⟨rfl, rfl⟩) (fun n h => Or.inr ?_) (fun _ h => Or.inl h) (by simp)
      cases h
      simpa [VerifiedCache.isCurrent] using hc
    · refine .still rfl (Or.inl ⟨rfl, rfl⟩) (fun _ h => (by cases h)) (fun n h => Or.inr ?_) (by simp)
      cases h
      simpa [VerifiedCache.isCurrent] using hc
  | retrying slot =>
    cases h
    exact .still rfl (Or.inr (Or.inr ⟨slot, rfl, rfl, rfl⟩)) (fun _ h => (by cases h))
      (fun _ h => (by cases h)) (by simp)
  | reading slot =>
    simp only [authorizeStep] at h
    split at h <;> cases h <;> exact .quiet rfl rfl rfl rfl rfl (by simp)
  | rechecking slot r =>
    simp only [authorizeStep] at h
    split_ifs at h <;> cases h <;> exact .quiet rfl rfl rfl rfl rfl (by simp)
  | probing slot r =>
    simp only [authorizeStep] at h
    split_ifs at h <;> cases h <;> exact .quiet rfl rfl rfl rfl rfl (by simp)
  | putting slot r =>
    cases h
    exact .quiet rfl rfl rfl rfl rfl (by simp)
  | cleaning slot result =>
    cases h
    exact flightSpec_cleaning st token slot result
  | unlocking slot result =>
    cases h
    exact .still rfl (Or.inr (Or.inr ⟨slot, rfl, rfl, rfl⟩)) (fun _ h => (by cases h))
      (fun _ h => (by cases h)) (by simp)
  | done o => cases h

/-! ### What a step of the system is -/

/-- A call that never has to do with a slot. -/
def Other (c : Call) : Prop := ∀ token pc, c ≠ .authorizeRecord token pc

theorem other_of_callStep {a : Answer} {c c' : Call} (hc : Other c)
    (h : callStep cfg st a c = some (st', c')) :
    Other c' ∧ st'.verified.inflight = st.verified.inflight ∧ st'.locked = st.locked := by
  cases c with
  | authorizeRecord token pc => exact absurd rfl (hc token pc)
  | createIn tenantId ownerUserId name pc =>
    obtain ⟨⟨st1, pc1⟩, hp, heq⟩ := Option.map_eq_some_iff.mp h
    cases heq
    refine ⟨fun _ _ h => (by cases h), ?_⟩
    cases pc <;> simp only [createStep] at hp
    case start | inserting => split at hp <;> (try split at hp) <;> cases hp <;> exact ⟨rfl, rfl⟩
    all_goals cases hp
    all_goals exact ⟨rfl, rfl⟩
  | delete id pc =>
    obtain ⟨⟨st1, pc1⟩, hp, heq⟩ := Option.map_eq_some_iff.mp h
    cases heq
    refine ⟨fun _ _ h => (by cases h), ?_⟩
    cases pc <;> simp only [deleteStep] at hp
    case start | retaining => split_ifs at hp <;> cases hp <;> exact ⟨rfl, rfl⟩
    case deletingRow => split at hp <;> cases hp <;> exact ⟨rfl, rfl⟩
    all_goals cases hp
    all_goals exact ⟨rfl, rfl⟩
  | disableKeysForOwner ownerUserId pc =>
    obtain ⟨⟨st1, pc1⟩, hp, heq⟩ := Option.map_eq_some_iff.mp h
    cases heq
    refine ⟨fun _ _ h => (by cases h), ?_⟩
    cases pc with
    | start =>
      simp only [disableStep] at hp
      split_ifs at hp <;> cases hp <;> exact ⟨rfl, rfl⟩
    | updatingRows ids =>
      simp only [disableStep] at hp
      split at hp <;> cases hp <;> exact ⟨rfl, rfl⟩
    | invalidating count rest =>
      cases rest <;> cases hp <;> exact ⟨rfl, rfl⟩
    | marking ids | bumping ids =>
      cases hp
      exact ⟨rfl, rfl⟩
    | failed e | done n => cases hp

theorem step_cases (h : step cfg s lab = some s') :
    (∃ i request, lab = .call (.start i request) ∧ s.calls.lookup i = none ∧
      s' = { s with calls := s.calls.insert i (Request.call request) }) ∨
    (∃ d, lab = .call (.tick d) ∧ s' = { s with store := { s.store with now := s.store.now + d } }) ∨
    (∃ i a token pc st' pc', lab = .call (.step i a) ∧
      s.calls.lookup i = some (.authorizeRecord token pc) ∧
      authorizeStep cfg s.store token pc = some (st', pc') ∧
      s' = ⟨st', s.calls.insert i (.authorizeRecord token pc')⟩) ∨
    (∃ i a c st' c', lab = .call (.step i a) ∧ s.calls.lookup i = some c ∧ Other c ∧ Other c' ∧
      st'.verified.inflight = s.store.verified.inflight ∧ st'.locked = s.store.locked ∧
      s' = ⟨st', s.calls.insert i c'⟩) ∨
    ∃ i token slot r, lab = .panic i ∧ s.calls.lookup i = some (.authorizeRecord token (.probing slot r)) ∧
      s' = { s with calls := s.calls.insert i (.authorizeRecord token (.cleaning slot none)) } := by
  rcases lab with (⟨i, request⟩ | ⟨i, a⟩ | ⟨d⟩) | ⟨i⟩
  · simp only [step, Keys.step] at h
    split at h
    · next hi =>
      cases h
      exact Or.inl ⟨i, request, rfl, hi, rfl⟩
    · cases h
  · simp only [step, Keys.step] at h
    obtain ⟨c, hi, hc⟩ := Option.bind_eq_some_iff.mp h
    obtain ⟨⟨st', c'⟩, hst, rfl⟩ := Option.map_eq_some_iff.mp hc
    by_cases hother : Other c
    · obtain ⟨ho, hin, hlocked⟩ := other_of_callStep hother hst
      exact Or.inr (Or.inr (Or.inr (Or.inl ⟨i, a, c, st', c', rfl, hi, hother, ho, hin, hlocked, rfl⟩)))
    · simp only [Other, not_forall, not_not] at hother
      obtain ⟨token, pc, rfl⟩ := hother
      obtain ⟨⟨st1, pc'⟩, hpc, heq⟩ := Option.map_eq_some_iff.mp hst
      cases heq
      exact Or.inr (Or.inr (Or.inl ⟨i, a, token, pc, _, pc', rfl, hi, hpc, rfl⟩))
  · cases h
    exact Or.inr (Or.inl ⟨d, rfl, rfl⟩)
  · simp only [step] at h
    split at h
    · next token slot r hi =>
      cases h
      exact Or.inr (Or.inr (Or.inr (Or.inr ⟨i, token, slot, r, rfl, hi, rfl⟩)))
    · cases h

/-! ### Slots, locks and the table -/

/-- A call with a lock has it alone; the slot that a call owns is in the table; each slot in the table has a
call that attends to it. -/
structure Flights (cfg : Config) (s : State) : Prop where
  locked : ∀ i c slot, s.calls.lookup i = some c → heldSlot c = some slot → s.store.locked slot = true
  exclusive : Exclusive heldSlot s.calls
  current : ∀ i token pc slot, s.calls.lookup i = some (.authorizeRecord token pc) →
    owns pc = some slot → s.store.verified.inflight.lookup (cfg.lookupOf token) = some slot
  attended : ∀ k slot, s.store.verified.inflight.lookup k = some slot → ∃ i token pc,
    s.calls.lookup i = some (.authorizeRecord token pc) ∧ cfg.lookupOf token = k ∧ attends pc = some slot
  cached : cfg.maxEntries ≠ 0 → ∀ i token r,
    s.calls.lookup i ≠ some (.authorizeRecord token (.probingUncached r))

theorem flights_init : Flights cfg (init l) where
  locked i c slot h := by cases h
  exclusive := exclusive_empty
  current i token pc slot h := by cases h
  attended k slot h := by cases h
  cached _ i token r h := by cases h

theorem flights_frame (h : Flights cfg s) {i : ℕ} {c' : Call} {st' : Store}
    (hin : st'.verified.inflight = s.store.verified.inflight) (hlocked : st'.locked = s.store.locked)
    (hi : ∀ token pc, s.calls.lookup i ≠ some (.authorizeRecord token pc))
    (hc' : ∀ token pc, c' = .authorizeRecord token pc → pc = .start) :
    Flights cfg ⟨st', s.calls.insert i c'⟩ := by
  have hfree : heldSlot c' = none := by
    cases c' with
    | authorizeRecord token pc => rw [hc' token pc rfl]; rfl
    | _ => rfl
  refine ⟨fun j c slot hj hs => ?_, ?_, fun j token pc slot hj ho => ?_, fun k slot hk => ?_,
    fun hmax j token r hj => ?_⟩
  · rw [lookup_insert] at hj
    split_ifs at hj
    · cases hj
      rw [hfree] at hs
      cases hs
    · rw [hlocked]
      exact h.locked j c slot hj hs
  · refine h.exclusive.insert fun slot hs => ?_
    rw [hfree] at hs
    cases hs
  · rw [lookup_insert] at hj
    split_ifs at hj
    · rw [hc' token pc (Option.some.inj hj)] at ho
      cases ho
    · rw [hin]
      exact h.current j token pc slot hj ho
  · rw [hin] at hk
    obtain ⟨j, token, pc, hj, hl, ha⟩ := h.attended k slot hk
    have hne : j ≠ i := by
      rintro rfl
      exact hi token pc hj
    exact ⟨j, token, pc, by rw [lookup_insert, if_neg hne]; exact hj, hl, ha⟩
  · rw [lookup_insert] at hj
    split_ifs at hj
    · cases hc' token _ (Option.some.inj hj)
    · exact h.cached hmax j token r hj

theorem flights_authorize (h : Flights cfg s) {i : ℕ}
    (hi : s.calls.lookup i = some (.authorizeRecord token pc))
    (hspec : FlightSpec cfg s.store token pc st' pc') :
    Flights cfg ⟨st', s.calls.insert i (.authorizeRecord token pc')⟩ := by
  have hmine : ∀ j c slot, j ≠ i → s.calls.lookup j = some c → heldSlot c = some slot →
      locks pc ≠ some slot := by
    intro j c slot hji hj hs hl
    exact hji (h.exclusive j i c _ slot hj hi hs hl)
  refine ⟨fun j c slot hj hs => ?_, ?_, fun j t p slot hj ho => ?_, fun k slot hk => ?_,
    fun hmax j t r hj => ?_⟩
  · rw [lookup_insert] at hj
    split_ifs at hj with hji
    · cases hj
      rcases hspec.lock with ⟨hl, hlocked⟩ | ⟨n, -, hl, -, hlocked⟩ | ⟨n, -, hl, -⟩
      · rw [hlocked]
        exact h.locked i _ slot hi (hl.symm.trans hs)
      · have hn : n = slot := Option.some.inj (hl.symm.trans hs)
        rw [hlocked, hn]
        exact Function.update_self ..
      · have hnone : locks pc' = some slot := hs
        rw [hl] at hnone
        cases hnone
    · have hold := h.locked j c slot hj hs
      rcases hspec.lock with ⟨-, hlocked⟩ | ⟨n, -, -, hfree, hlocked⟩ | ⟨n, hl, -, hlocked⟩
      · rw [hlocked]
        exact hold
      · rw [hlocked]
        have hne : slot ≠ n := by
          rintro rfl
          rw [hold] at hfree
          cases hfree
        rw [Function.update_of_ne hne]
        exact hold
      · rw [hlocked]
        have hne : slot ≠ n := by
          rintro rfl
          exact hmine j c slot hji hj hs hl
        rw [Function.update_of_ne hne]
        exact hold
  · refine h.exclusive.insert fun slot hs => ?_
    rcases hspec.lock with ⟨hl, -⟩ | ⟨n, -, hl, hfree, -⟩ | ⟨n, -, hl, -⟩
    · exact Or.inl ⟨_, hi, hl.symm.trans hs⟩
    · refine Or.inr fun j c hj hj' => ?_
      have hn : n = slot := Option.some.inj (hl.symm.trans hs)
      have hold := h.locked j c slot hj hj'
      rw [← hn, hfree] at hold
      cases hold
    · have hnone : locks pc' = some slot := hs
      rw [hl] at hnone
      cases hnone
  · rw [lookup_insert] at hj
    split_ifs at hj with hji
    · cases hj
      obtain ⟨hin, ho | ho⟩ := hspec.own slot ho
      · rw [hin]
        exact h.current i token pc slot hi ho
      · rw [hin]
        exact ho
    · have hold := h.current j t p slot hj ho
      rcases hspec.shrink _ _ hold with hnew | ⟨-, hown⟩
      · exact hnew
      · exact absurd (locks_of_owns hown) (hmine j _ slot hji hj (locks_of_owns ho))
  · rcases hspec.grow k slot hk with hold | ⟨rfl, ha⟩
    · obtain ⟨j, t, p, hj, hl, ha⟩ := h.attended k slot hold
      by_cases hji : j = i
      · subst hji
        rw [hi] at hj
        cases hj
        rcases hspec.leave slot ha with ha' | hgone
        · exact ⟨j, token, pc', AList.lookup_insert _, hl, ha'⟩
        · rw [hl] at hgone
          exact absurd hk hgone
      · exact ⟨j, t, p, by rw [lookup_insert, if_neg hji]; exact hj, hl, ha⟩
    · exact ⟨i, token, pc', AList.lookup_insert _, rfl, ha⟩
  · rw [lookup_insert] at hj
    split_ifs at hj
    · cases hj
      exact hspec.cached hmax r rfl
    · exact h.cached hmax j t r hj

/-- **One step** keeps the slots in order. -/
theorem flights_step (h : Flights cfg s) (hs : step cfg s lab = some s') : Flights cfg s' := by
  rcases step_cases hs with ⟨i, request, -, hi, rfl⟩ | ⟨d, -, rfl⟩ |
    ⟨i, a, token, pc, st', pc', -, hi, hpc, rfl⟩ | ⟨i, a, c, st', c', -, hi, hc, hc', hin, hlocked, rfl⟩ |
    ⟨i, token, slot, r, -, hi, rfl⟩
  · refine flights_frame h rfl rfl (fun token pc hj => ?_) fun token pc hc => ?_
    · rw [hi] at hj
      cases hj
    · cases request <;> cases hc
      rfl
  · exact ⟨h.locked, h.exclusive, h.current, h.attended, h.cached⟩
  · exact flights_authorize h hi (flightSpec_of_authorizeStep hpc)
  · refine flights_frame h hin hlocked (fun token pc hj => ?_) fun token pc hcall => ?_
    · rw [hi] at hj
      exact hc token pc (Option.some.inj hj)
    · exact absurd hcall (hc' token pc)
  · exact flights_authorize h hi (.quiet rfl rfl rfl rfl rfl (by simp))

theorem flights_run {ls : List Label} (h : run (step cfg) (init l) ls = some s) : Flights cfg s :=
  run_invariant (I := Flights cfg) (fun _ _ _ hi hs => flights_step hi hs) flights_init ⟨ls, h⟩

/-! ### The record that is read after the wait -/

/-- Before the call comes to the slots. -/
def early : AuthorizePc → Bool
  | .start | .probingUncached _ | .checking _ => true
  | _ => false

/-- After it has read the record again. -/
def late : AuthorizePc → Bool
  | .rechecking _ _ | .probing _ _ | .putting _ _ | .cleaning _ _ | .unlocking _ _ => true
  | _ => false

/-- What the call carries, or answers, is the record that the store `st` had for its token; it answers
nothing if there was none, if argon2 refuses it or if the check has panicked. -/
def Settles (cfg : Config) (st : Store) (token : String) (panicked : Prop) : AuthorizePc → Prop
  | .rechecking _ r | .probing _ r | .putting _ r => loadEnabled cfg st token = some r
  | .cleaning _ o | .unlocking _ o | .done o =>
    (∀ r, o = some r → loadEnabled cfg st token = some r) ∧
      (o = none → panicked ∨ ∀ r, loadEnabled cfg st token = some r →
        cfg.verifyArgon2 token r.keyHash = false)
  | _ => False

theorem Settles.mono {P Q : Prop} (hPQ : P → Q) (h : Settles cfg st token P pc) :
    Settles cfg st token Q pc := by
  cases pc <;> first | exact h | exact ⟨h.1, fun ho => (h.2 ho).imp_left hPQ⟩

theorem phase_of_authorizeStep (P : Prop) (h : authorizeStep cfg st token pc = some (st', pc')) :
    (early pc' = true → early pc = true) ∧
      (late pc' = true → late pc = true ∨
        (∃ slot, pc = .reading slot) ∧ Settles cfg st token P pc') ∧
      (∀ o, pc' = .done o → late pc = true ∨ early pc = true) := by
  cases pc with
  | start | probingUncached r | checking r =>
    exact ⟨fun _ => rfl, fun hl => Or.inl (by
      simp only [authorizeStep] at h
      repeat' split at h
      all_goals cases h
      all_goals cases hl), fun _ _ => Or.inr rfl⟩
  | taking | waiting slot | confirming slot | retrying slot =>
    simp only [authorizeStep] at h
    repeat' split at h
    all_goals cases h
    all_goals exact ⟨fun he => (by cases he), fun hl => (by cases hl), fun _ hd => (by cases hd)⟩
  | reading slot =>
    simp only [authorizeStep] at h
    split at h <;> cases h
    · next hload =>
      refine ⟨fun he => (by cases he), fun _ => Or.inr ⟨⟨slot, rfl⟩, fun r hr => (by cases hr),
        fun _ => Or.inr fun r hr => ?_⟩, fun _ hd => (by cases hd)⟩
      rw [hload] at hr
      cases hr
    · next r hload =>
      exact ⟨fun he => (by cases he), fun _ => Or.inr ⟨⟨slot, rfl⟩, hload⟩, fun _ hd => (by cases hd)⟩
  | rechecking slot r | probing slot r =>
    simp only [authorizeStep] at h
    split_ifs at h <;> cases h
    all_goals exact ⟨fun he => (by cases he), fun _ => Or.inl rfl, fun _ _ => Or.inl rfl⟩
  | putting slot r | cleaning slot o | unlocking slot o =>
    cases h
    exact ⟨fun he => (by cases he), fun _ => Or.inl rfl, fun _ _ => Or.inl rfl⟩
  | done o => cases h

theorem settles_of_authorizeStep {st1 : Store} {P : Prop}
    (h : authorizeStep cfg st token pc = some (st', pc')) (hl : late pc = true)
    (hs : Settles cfg st1 token P pc) : Settles cfg st1 token P pc' := by
  cases pc with
  | rechecking slot r =>
    simp only [authorizeStep] at h
    split_ifs at h <;> cases h
    · exact ⟨fun r' hr => Option.some.inj hr ▸ hs, fun hn => (by cases hn)⟩
    · exact hs
  | probing slot r =>
    have hload : loadEnabled cfg st1 token = some r := hs
    simp only [authorizeStep] at h
    split_ifs at h with hv <;> cases h
    · exact hs
    · refine ⟨fun r' hr => (by cases hr), fun _ => Or.inr fun r' hr => ?_⟩
      rw [hload] at hr
      cases hr
      exact Bool.eq_false_of_not_eq_true hv
  | putting slot r =>
    cases h
    exact ⟨fun r' hr => Option.some.inj hr ▸ hs, fun hn => (by cases hn)⟩
  | cleaning slot o | unlocking slot o =>
    cases h
    exact hs
  | _ => cases hl

/-- After the labels `ws`, at the beginning of the run `ls`, the call waits for the lock of a slot. -/
def Waited (cfg : Config) (l : Loaded) (ls : List Label) (i : ℕ) (ws : List Label) : Prop :=
  ws <+: ls ∧ ∃ s token slot, run (step cfg) (init l) ws = some s ∧
    s.calls.lookup i = some (.authorizeRecord token (.waiting slot))

/-- At a moment of the run, not before any of its waits, the call was about to read its record again; what
it carries now is what it has read then. -/
def ReRead (cfg : Config) (l : Loaded) (ls : List Label) (i : ℕ) (token : String) (pc : AuthorizePc) :
    Prop :=
  ∃ as s slot, as <+: ls ∧ run (step cfg) (init l) as = some s ∧
    s.calls.lookup i = some (.authorizeRecord token (.reading slot)) ∧
    Settles cfg s.store token (.panic i ∈ ls) pc ∧ ∀ ws, Waited cfg l ls i ws → ws <+: as

/-- What is known of the waits of a call. -/
def Waits (cfg : Config) (l : Loaded) (ls : List Label) (i : ℕ) : Option Call → Prop
  | none => ∀ ws, ¬ Waited cfg l ls i ws
  | some (.authorizeRecord token pc) =>
    (early pc = true → ∀ ws, ¬ Waited cfg l ls i ws) ∧ (late pc = true → ReRead cfg l ls i token pc) ∧
      ∀ o, pc = .done o → (∀ ws, ¬ Waited cfg l ls i ws) ∨ ReRead cfg l ls i token pc
  | some _ => True

theorem waited_concat {ls ws : List Label} {i : ℕ} (hrun : run (step cfg) (init l) (ls ++ [lab]) = some s')
    (h : Waited cfg l (ls ++ [lab]) i ws) :
    Waited cfg l ls i ws ∨
      ∃ token slot, s'.calls.lookup i = some (.authorizeRecord token (.waiting slot)) := by
  obtain ⟨hpre, s1, token, slot, h1, hi⟩ := h
  rcases List.prefix_concat_iff.mp hpre with rfl | hpre
  · rw [hrun] at h1
    cases h1
    exact Or.inr ⟨token, slot, hi⟩
  · exact Or.inl ⟨hpre, s1, token, slot, h1, hi⟩

theorem ReRead.later {ls : List Label} {i : ℕ} (hrun : run (step cfg) (init l) (ls ++ [lab]) = some s')
    (hnot : ∀ token slot, s'.calls.lookup i ≠ some (.authorizeRecord token (.waiting slot)))
    (h : ReRead cfg l ls i token pc)
    (hset : ∀ st, Settles cfg st token (.panic i ∈ ls ++ [lab]) pc →
      Settles cfg st token (.panic i ∈ ls ++ [lab]) pc') : ReRead cfg l (ls ++ [lab]) i token pc' := by
  obtain ⟨as, s1, slot, hpre, h1, hi, hs, hwaits⟩ := h
  refine ⟨as, s1, slot, hpre.trans (List.prefix_append ls [lab]), h1, hi,
    hset _ (hs.mono fun hp => List.mem_append_left _ hp), fun ws hw => ?_⟩
  rcases waited_concat hrun hw with hw | ⟨t, n, hn⟩
  · exact hwaits ws hw
  · exact absurd hn (hnot t n)

theorem never_later {ls : List Label} {i : ℕ} (hrun : run (step cfg) (init l) (ls ++ [lab]) = some s')
    (hnot : ∀ token slot, s'.calls.lookup i ≠ some (.authorizeRecord token (.waiting slot)))
    (h : ∀ ws, ¬ Waited cfg l ls i ws) : ∀ ws, ¬ Waited cfg l (ls ++ [lab]) i ws := by
  intro ws hw
  rcases waited_concat hrun hw with hw | ⟨t, n, hn⟩
  · exact h ws hw
  · exact hnot t n hn

theorem waits_init (i : ℕ) : Waits cfg l [] i ((init l).calls.lookup i) := by
  rintro ws ⟨hpre, s, token, slot, h1, hi⟩
  rw [List.prefix_nil.mp hpre] at h1
  cases h1
  cases hi

theorem waits_frame {ls : List Label} {i : ℕ} (hrun : run (step cfg) (init l) (ls ++ [lab]) = some s')
    (h : Waits cfg l ls i (s'.calls.lookup i)) : Waits cfg l (ls ++ [lab]) i (s'.calls.lookup i) := by
  cases hi : s'.calls.lookup i with
  | none =>
    rw [hi] at h
    exact never_later hrun (fun t n hn => (by rw [hi] at hn; cases hn)) h
  | some c =>
    rw [hi] at h
    cases c with
    | authorizeRecord token pc =>
      have hnot : (∀ n, pc ≠ .waiting n) →
          ∀ t n, s'.calls.lookup i ≠ some (.authorizeRecord t (.waiting n)) := by
        intro hpc t n hn
        rw [hi] at hn
        cases hn
        exact hpc n rfl
      refine ⟨fun he => ?_, fun hl => ?_, fun o ho => ?_⟩
      · exact never_later hrun (hnot (by rintro n rfl; cases he)) (h.1 he)
      · exact (h.2.1 hl).later hrun (hnot (by rintro n rfl; cases hl)) fun _ hs => hs
      · have hpc : ∀ n, pc ≠ .waiting n := by
          rintro n rfl
          cases ho
        exact (h.2.2 o ho).imp (never_later hrun (hnot hpc)) fun hr =>
          hr.later hrun (hnot hpc) fun _ hs => hs
    | _ => trivial

theorem waits_authorize {ls : List Label} {i : ℕ} (h0 : run (step cfg) (init l) ls = some s)
    (hrun : run (step cfg) (init l) (ls ++ [lab]) = some s')
    (hi : s.calls.lookup i = some (.authorizeRecord token pc))
    (hi' : s'.calls.lookup i = some (.authorizeRecord token pc'))
    (hpc : authorizeStep cfg s.store token pc = some (st', pc'))
    (h : Waits cfg l ls i (s.calls.lookup i)) : Waits cfg l (ls ++ [lab]) i (s'.calls.lookup i) := by
  rw [hi] at h
  rw [hi']
  have hnot : (∀ n, pc' ≠ .waiting n) →
      ∀ t n, s'.calls.lookup i ≠ some (.authorizeRecord t (.waiting n)) := by
    intro hne t n hn
    rw [hi'] at hn
    cases hn
    exact hne n rfl
  obtain ⟨hearly, hlate, hdone⟩ := phase_of_authorizeStep (.panic i ∈ ls ++ [lab]) hpc
  refine ⟨fun he => ?_, fun hl => ?_, fun o ho => ?_⟩
  · exact never_later hrun (hnot (by rintro n rfl; cases he)) (h.1 (hearly he))
  · have hne : ∀ n, pc' ≠ .waiting n := by
      rintro n rfl
      cases hl
    rcases hlate hl with hold | ⟨⟨slot, rfl⟩, hs⟩
    · exact (h.2.1 hold).later hrun (hnot hne) fun _ hs => settles_of_authorizeStep hpc hold hs
    · refine ⟨ls, s, slot, List.prefix_append ls [lab], h0, hi, hs, fun ws hw => ?_⟩
      rcases waited_concat hrun hw with hw | ⟨t, n, hn⟩
      · exact hw.1
      · exact absurd hn (hnot hne t n)
  · have hne : ∀ n, pc' ≠ .waiting n := by
      rintro n rfl
      cases ho
    rcases hdone o ho with hold | hold
    · exact Or.inr ((h.2.1 hold).later hrun (hnot hne) fun _ hs => settles_of_authorizeStep hpc hold hs)
    · exact Or.inl (never_later hrun (hnot hne) (h.1 hold))

theorem waits_step {ls : List Label} (h0 : run (step cfg) (init l) ls = some s)
    (hs : step cfg s lab = some s') (h : ∀ i, Waits cfg l ls i (s.calls.lookup i)) (j : ℕ) :
    Waits cfg l (ls ++ [lab]) j (s'.calls.lookup j) := by
  have hrun : run (step cfg) (init l) (ls ++ [lab]) = some s' := run_concat_eq_some.mpr ⟨s, h0, hs⟩
  have hstill : s'.calls.lookup j = s.calls.lookup j → Waits cfg l (ls ++ [lab]) j (s'.calls.lookup j) :=
    fun hj => waits_frame hrun (by rw [hj]; exact h j)
  rcases step_cases hs with ⟨i, request, -, hi, rfl⟩ | ⟨d, -, rfl⟩ |
    ⟨i, a, token, pc, st', pc', -, hi, hpc, rfl⟩ | ⟨i, a, c, st', c', -, hi, hc, hc', hin, hlocked, rfl⟩ |
    ⟨i, token, slot, r, rfl, hi, rfl⟩
  · by_cases hij : j = i
    · subst hij
      have hj := h j
      rw [hi] at hj
      have hcall : (s.calls.insert j request.call).lookup j = some request.call := AList.lookup_insert _
      rw [hcall]
      cases request with
      | authorizeRecord token =>
        refine ⟨fun _ => never_later hrun (fun t n hn => ?_) hj, fun hl => (by cases hl),
          fun o ho => (by cases ho)⟩
        rw [hcall] at hn
        cases hn
      | _ => trivial
    · exact hstill (by rw [lookup_insert, if_neg hij])
  · exact hstill rfl
  · by_cases hij : j = i
    · subst hij
      exact waits_authorize h0 hrun hi (AList.lookup_insert _) hpc (h j)
    · exact hstill (by rw [lookup_insert, if_neg hij])
  · by_cases hij : j = i
    · subst hij
      have hcall : (s.calls.insert j c').lookup j = some c' := AList.lookup_insert _
      rw [hcall]
      cases c' with
      | authorizeRecord token pc => exact absurd rfl (hc' token pc)
      | _ => trivial
    · exact hstill (by rw [lookup_insert, if_neg hij])
  · by_cases hij : j = i
    · subst hij
      have hcall : (s.calls.insert j (.authorizeRecord token (.cleaning slot none))).lookup j =
          some (.authorizeRecord token (.cleaning slot none)) := AList.lookup_insert _
      have hj := h j
      rw [hi] at hj
      rw [hcall]
      refine ⟨fun he => (by cases he), fun _ => ?_, fun o ho => (by cases ho)⟩
      refine (hj.2.1 rfl).later hrun (fun t n hn => ?_) fun st _ =>
        ⟨fun r hr => (by cases hr), fun _ => Or.inl (by simp)⟩
      rw [hcall] at hn
      cases hn
    · exact hstill (by rw [lookup_insert, if_neg hij])

theorem waits_run {ls : List Label} (h : run (step cfg) (init l) ls = some s) :
    ∀ i, Waits cfg l ls i (s.calls.lookup i) :=
  run_history (C := fun _ _ => True) (H := fun ls s => ∀ i, Waits cfg l ls i (s.calls.lookup i))
    waits_init (fun _ _ _ _ h0 ih _ hs => waits_step h0 hs ih) ls s (allSteps_true ls _) h

/-! ### Every interleaving -/

theorem inflight_eq_empty (h : ∀ k slot, s.store.verified.inflight.lookup k ≠ some slot) :
    s.store.verified.inflight = ∅ := by
  have hentries : s.store.verified.inflight.entries = [] := by
    refine List.eq_nil_iff_forall_not_mem.mpr fun p hp => ?_
    exact h p.1 p.2 ((mem_entries_iff _ _ _).mp hp)
  exact AList.ext hentries

/-- **Single flight.** With the cache on, in every state of every run: no two calls run the check for the
same lookup; a call that has waited for a slot answers, unless its check has panicked, from the record that
it has read after its last wait; and when no call is inside `verify_or_cached` the table of slots is
empty. -/
theorem single_flight (hmax : cfg.maxEntries ≠ 0) {ls : List Label}
    (h : run (step cfg) (init l) ls = some s) :
    (∀ i j t t' pc pc', s.calls.lookup i = some (.authorizeRecord t pc) →
      s.calls.lookup j = some (.authorizeRecord t' pc') → probes pc = true → probes pc' = true →
      cfg.lookupOf t = cfg.lookupOf t' → i = j) ∧
    (∀ i token o ws, s.calls.lookup i = some (.authorizeRecord token (.done o)) →
      Waited cfg l ls i ws → ∃ as s1 slot, ws <+: as ∧ as <+: ls ∧
        run (step cfg) (init l) as = some s1 ∧
        s1.calls.lookup i = some (.authorizeRecord token (.reading slot)) ∧
        Settles cfg s1.store token (.panic i ∈ ls) (.done o)) ∧
    ((∀ i token pc, s.calls.lookup i = some (.authorizeRecord token pc) → inside pc = false) →
      s.store.verified.inflight = ∅) := by
  have hf := flights_run h
  have howns : ∀ i t pc, s.calls.lookup i = some (.authorizeRecord t pc) → probes pc = true →
      ∃ slot, owns pc = some slot := by
    intro i t pc hi hp
    cases pc with
    | probingUncached r => exact absurd hi (hf.cached hmax i t r)
    | probing slot r => exact ⟨slot, rfl⟩
    | _ => cases hp
  refine ⟨fun i j t t' pc pc' hi hj hp hp' ht => ?_, fun i token o ws hi hw => ?_, fun hout => ?_⟩
  · obtain ⟨slot, ho⟩ := howns i t pc hi hp
    obtain ⟨slot', ho'⟩ := howns j t' pc' hj hp'
    have hcur := hf.current i t pc slot hi ho
    have hcur' := hf.current j t' pc' slot' hj ho'
    rw [ht, hcur'] at hcur
    cases hcur
    exact hf.exclusive i j _ _ slot hi hj (locks_of_owns ho) (locks_of_owns ho')
  · have hwaits := waits_run h i
    rw [hi] at hwaits
    rcases hwaits.2.2 o rfl with hnever | ⟨as, s1, slot, hpre, h1, hread, hset, hlast⟩
    · exact absurd hw (hnever ws)
    · exact ⟨as, s1, slot, hlast ws hw, hpre, h1, hread, hset⟩
  · refine inflight_eq_empty fun k slot hk => ?_
    obtain ⟨i, token, pc, hi, -, ha⟩ := hf.attended k slot hk
    have hin := hout i token pc hi
    cases pc
    case start | done => cases ha
    all_goals cases hin

section example_run

open HomeLlmGateway.Storage.Revocation

/-- Two calls present the same token: the second one waits while the first one runs the check. -/
def meet : List Label :=
  creates.map .call ++
    (.call (.start 2 (.authorizeRecord "sk-xyz")) :: List.replicate 7 (.call (.step 2 .silent)) ++
      (.call (.start 3 (.authorizeRecord "sk-xyz")) :: List.replicate 3 (.call (.step 3 .silent))))

/-- The check panics; the second call finds its slot gone, takes a new one and runs the check. -/
def recover : List Label :=
  .panic 2 :: List.replicate 2 (.call (.step 2 .silent)) ++ List.replicate 12 (.call (.step 3 .silent))

/-- The call that has waited answers from what it has read then. -/
theorem single_flight_panic : ∃ s, run (step exampleConfig) (init noKeys) (meet ++ recover) = some s ∧
    s.calls.lookup 3 = some (.authorizeRecord "sk-xyz" (.done (some xyzKey))) ∧
    ∃ as s1 slot, meet <+: as ∧ as <+: meet ++ recover ∧
      run (step exampleConfig) (init noKeys) as = some s1 ∧
      s1.calls.lookup 3 = some (.authorizeRecord "sk-xyz" (.reading slot)) ∧
      Settles exampleConfig s1.store "sk-xyz" (.panic 3 ∈ meet ++ recover) (.done (some xyzKey)) := by
  obtain ⟨s, hs, hdone⟩ := exists_run (step exampleConfig) (init noKeys) (meet ++ recover)
    (fun s => s.calls.lookup 3 = some (.authorizeRecord "sk-xyz" (.done (some xyzKey))))
    (by decide +kernel)
  obtain ⟨s0, h0, hwait⟩ := exists_run (step exampleConfig) (init noKeys) meet
    (fun s => s.calls.lookup 3 = some (.authorizeRecord "sk-xyz" (.waiting 0))) (by decide +kernel)
  have hwaited : Waited exampleConfig noKeys (meet ++ recover) 3 meet :=
    ⟨List.prefix_append _ _, s0, _, _, h0, hwait⟩
  exact ⟨s, hs, hdone, (single_flight (by decide) hs).2.1 3 _ _ meet hdone hwaited⟩

end example_run

end HomeLlmGateway.Storage.SingleFlight
