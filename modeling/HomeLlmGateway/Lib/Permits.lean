import HomeLlmGateway.Lib.Assoc

/-! # Counting semaphores

A semaphore is the number of its free permits. The tasks that hold one are kept elsewhere, mostly in a map
with a test for who holds one. What a system with a semaphore has to show is that its permits are conserved
(`Conserved`): every permit is free or held. Taking a permit and giving it back keep this, and from it follow
the bound on those who hold one (`Conserved.held_le`), and that a permit is to be had exactly when the bound
is not reached (`Conserved.tryAcquire_isSome`). -/

namespace HomeLlmGateway.Lib.Permits

open HomeLlmGateway.Lib.Assoc

/-- A semaphore: how many permits are free. -/
structure Semaphore where
  permits : ℕ
  deriving DecidableEq

namespace Semaphore

/-- Take a permit, if one is free. -/
def tryAcquire (s : Semaphore) : Option Semaphore :=
  if 0 < s.permits then some ⟨s.permits - 1⟩ else none

/-- Give a permit back. -/
def release (s : Semaphore) : Semaphore := ⟨s.permits + 1⟩

@[simp] theorem release_permits (s : Semaphore) : s.release.permits = s.permits + 1 := rfl

theorem tryAcquire_eq_some {s s' : Semaphore} : s.tryAcquire = some s' ↔ s.permits = s'.permits + 1 := by
  obtain ⟨n⟩ := s
  obtain ⟨m⟩ := s'
  unfold tryAcquire
  split_ifs with h
  · simp only [Option.some.injEq, Semaphore.mk.injEq] at h ⊢
    omega
  · simp only [false_iff]
    have h0 : ¬ 0 < n := h
    show ¬ n = m + 1
    omega

end Semaphore

/-- Of `total` permits, those that are not free are held. -/
def Conserved (total : ℕ) (s : Semaphore) (held : ℕ) : Prop := s.permits + held = total

namespace Conserved

variable {total held : ℕ} {s s' : Semaphore}

theorem new (n : ℕ) : Conserved n ⟨n⟩ 0 := rfl

theorem held_le (h : Conserved total s held) : held ≤ total := by
  unfold Conserved at h
  omega

theorem acquire (h : Conserved total s held) (hs : s.tryAcquire = some s') :
    Conserved total s' (held + 1) := by
  have hp := Semaphore.tryAcquire_eq_some.mp hs
  unfold Conserved at h ⊢
  omega

theorem release (h : Conserved total s (held + 1)) : Conserved total s.release held := by
  unfold Conserved at h ⊢
  rw [Semaphore.release_permits]
  omega

/-- A permit is to be had exactly when fewer than `total` are held. -/
theorem tryAcquire_isSome (h : Conserved total s held) : s.tryAcquire.isSome = true ↔ held < total := by
  rw [Option.isSome_iff_exists]
  unfold Conserved at h
  constructor
  · rintro ⟨s', hs⟩
    have hp := Semaphore.tryAcquire_eq_some.mp hs
    omega
  · intro hlt
    exact ⟨⟨s.permits - 1⟩, Semaphore.tryAcquire_eq_some.mpr (by show s.permits = s.permits - 1 + 1; omega)⟩

end Conserved

/-! ### The holders in a map -/

variable {ι τ : Type*} [DecidableEq ι] {holds : τ → Bool} {tasks : HashMap ι τ} {total : ℕ}
  {s s' : Semaphore} {i : ι} {t t' : τ}

theorem conserved_spawn (h : Conserved total s (countVal holds tasks)) (hi : tasks.lookup i = none)
    (ht : holds t = true) (hs : s.tryAcquire = some s') :
    Conserved total s' (countVal holds (tasks.insert i t)) := by
  rw [countVal_insert_of_none t holds hi, if_pos ht]
  exact h.acquire hs

theorem conserved_keep (h : Conserved total s (countVal holds tasks)) (hi : tasks.lookup i = some t)
    (ht : holds t' = holds t) : Conserved total s (countVal holds (tasks.insert i t')) := by
  have hcount := countVal_replace holds hi ht
  rw [hcount]
  exact h

theorem conserved_finish (h : Conserved total s (countVal holds tasks)) (hi : tasks.lookup i = some t)
    (ht : holds t = true) (ht' : holds t' = false) :
    Conserved total s.release (countVal holds (tasks.insert i t')) := by
  have hcount := countVal_step holds hi t'
  rw [ht, ht'] at hcount
  refine Conserved.release ?_
  rw [show countVal holds (tasks.insert i t') + 1 = countVal holds tasks from hcount]
  exact h

theorem conserved_forget (h : Conserved total s (countVal holds tasks)) (hi : tasks.lookup i = some t)
    (ht : holds t = false) : Conserved total s (countVal holds (tasks.erase i)) := by
  have hcount := countVal_erase holds hi
  rw [ht, if_neg Bool.false_ne_true, Nat.add_zero] at hcount
  rw [← hcount]
  exact h

theorem conserved_drop (h : Conserved total s (countVal holds tasks)) (hi : tasks.lookup i = some t)
    (ht : holds t = true) : Conserved total s.release (countVal holds (tasks.erase i)) := by
  have hcount := countVal_erase holds hi
  rw [ht, if_pos rfl] at hcount
  refine Conserved.release ?_
  rw [← hcount]
  exact h

end HomeLlmGateway.Lib.Permits
