import HomeLlmGateway.Proxy.Routing

/-! # At most one agent gets the request

Over every run of `open_and_send`: at most two attempts, on connections with different `stable_id`s; while
an attempt runs it holds its slot, and an attempt that failed has released its slot before the next one
begins or the call returns. If a failed write lets only a strict part of the frame through, then the agent
of a failed attempt never gets a frame out of its `FrameReader`, so only the last attempt can reach an
agent. -/

namespace HomeLlmGateway.Proxy.Delivery

open HomeLlmGateway.Lib.Runs HomeLlmGateway.Lib.Assoc HomeLlmGateway.Lib.ByteCodec
open HomeLlmGateway.Proto.Frames HomeLlmGateway.Proto.Io
open HomeLlmGateway.Registry.Node HomeLlmGateway.Registry.Routing HomeLlmGateway.Proxy.Routing
open HomeLlmGateway.Registry.System (Slot Report slot_eq_of_step agents_eq_of_step)

variable {P : Postcard} {allowLegacy : Bool} {i : Input} {s s' : State}

/-! ### The transport -/

/-- A part of the request frame from which no frame can be read. -/
def Cut (P : Postcard) (request : Frame) (bytes : Bytes) : Prop :=
  bytes = [] ∨ ∃ w, writeFrame P request = .ok w ∧ bytes <+: w ∧ bytes ≠ w

/-- The transport's side of a write: if it fails or times out, it has let a strict part of the frame
through. -/
def CutsFailedWrites (P : Postcard) (request : Frame) : Label → Prop
  | .wrote (.error _) bytes _ | .wrote .elapsed bytes _ =>
    ∀ w, writeFrame P request = .ok w → bytes <+: w ∧ bytes ≠ w
  | _ => True

/-- A stream that is over and on which no frame arrived whole. -/
def Settled (P : Postcard) (request : Frame) : Stream → Prop
  | .unopened => True
  | .live => False
  | .ended bytes => Cut P request bytes

theorem cut_of_tunnelWrite {result : Timed} {bytes b : Bytes} {now : UInt64} {f : WriteFailure}
    (hC : CutsFailedWrites P i.request (.wrote result bytes now))
    (h : tunnelWrite P i.request result bytes = some (f, b)) : Cut P i.request b := by
  unfold tunnelWrite at h
  cases hw : writeFrame P i.request with
  | error e =>
    rw [hw] at h
    cases h
    exact Or.inl rfl
  | ok w =>
    rw [hw] at h
    cases result with
    | ok => cases h
    | error e => cases h; exact Or.inr ⟨w, hw, hC w hw⟩
    | elapsed => cases h; exact Or.inr ⟨w, hw, hC w hw⟩

/-! ### The invariant -/

/-- The attempt `a` holds its slot. -/
def Held (s : State) (a : Attempt) (r : Report) : Prop := s.reg.slots.lookup a.guard = some ⟨a.entry, r⟩

/-- What holds where the call stands. -/
def AtPc (P : Postcard) (i : Input) (s : State) : Prop :=
  match s.pc with
  | .acquiring | .rejected _ => s.finished.length < maxTunnelAttempts
  | .trying candidates => s.finished.length < maxTunnelAttempts ∧
      ∀ e ∈ candidates, e.stableId ∉ s.tried ∧ ∃ key, s.reg.agents.lookup key = some e
  | .opening a => s.finished.length < maxTunnelAttempts ∧ Held s a .none ∧ a.stream = .unopened
  | .writing a => s.finished.length < maxTunnelAttempts ∧ Held s a .none ∧ a.stream = .live
  | .reporting a _ => s.finished.length < maxTunnelAttempts ∧ (∃ r, Held s a r) ∧
      Settled P i.request a.stream
  | .dropping a err => s.finished.length < maxTunnelAttempts ∧
      (err = none → s.finished.length + 1 < maxTunnelAttempts) ∧ Held s a .none ∧
      Settled P i.request a.stream
  | .returned (.ok a) => s.finished.length < maxTunnelAttempts ∧ Held s a .none ∧ a.stream = .live ∧
      ∃ w, writeFrame P i.request = .ok w
  | .returned (.error _) => s.finished.length ≤ maxTunnelAttempts

structure Inv (P : Postcard) (i : Input) (s : State) : Prop where
  tried : s.tried = s.attempts.map (·.entry.stableId)
  distinct : s.tried.Nodup
  guards : s.guards.Nodup
  /-- a finished attempt has released its slot and left nothing whole behind -/
  settled : ∀ a ∈ s.finished, s.reg.slots.lookup a.guard = none ∧ Settled P i.request a.stream
  atPc : AtPc P i s

theorem inv_start (reg : Registry.System.State) : Inv P i (start reg) where
  tried := rfl
  distinct := List.nodup_nil
  guards := List.nodup_nil
  settled a ha := by cases ha
  atPc := by show 0 < 2; omega

theorem Inv.goOn (h : Inv P i s) (htried : s'.tried = s.tried) (hfin : s'.finished = s.finished)
    (hcur : s'.pc.current.map (fun a => (a.entry, a.guard)) =
      s.pc.current.map fun a => (a.entry, a.guard))
    (hslot : ∀ a ∈ s.finished, s'.reg.slots.lookup a.guard = s.reg.slots.lookup a.guard)
    (hpc : AtPc P i s') : Inv P i s' := by
  have hattempts : s'.attempts.map (fun a => (a.entry, a.guard)) =
      s.attempts.map fun a => (a.entry, a.guard) := by
    simp only [State.attempts, List.map_append, hfin, ← Option.toList_map, hcur]
  have hmap : ∀ {α} (f : Entry × ℕ → α), s'.attempts.map (fun a => f (a.entry, a.guard)) =
      s.attempts.map fun a => f (a.entry, a.guard) := by
    intro α f
    have := congrArg (List.map f) hattempts
    rw [List.map_map, List.map_map] at this
    exact this
  refine ⟨?_, ?_, ?_, fun a ha => ?_, hpc⟩
  · rw [htried, h.tried]
    exact (hmap fun x => x.1.stableId).symm
  · rw [htried]
    exact h.distinct
  · have : s'.guards = s.guards := hmap Prod.snd
    rw [this]
    exact h.guards
  · rw [hfin] at ha
    rw [hslot a ha]
    exact h.settled a ha

theorem guard_mem {a : Attempt} (ha : a ∈ s.finished) : a.guard ∈ s.guards :=
  List.mem_map_of_mem (List.mem_append_left _ ha)

theorem current_guard_mem {a : Attempt} (ha : s.pc.current = some a) : a.guard ∈ s.guards :=
  List.mem_map_of_mem (List.mem_append_right _ (by simp [ha]))

theorem Inv.guard_ne (h : Inv P i s) {a b : Attempt} (ha : s.pc.current = some a) (hb : b ∈ s.finished) :
    b.guard ≠ a.guard := by
  have hg := h.guards
  simp only [State.guards, State.attempts, ha, Option.toList_some, List.map_append, List.map_cons,
    List.map_nil] at hg
  exact (List.nodup_append.mp hg).2.2 _ (List.mem_map_of_mem hb) _ (by simp)

theorem nodup_concat {l : List ℕ} {x : ℕ} (h : l.Nodup) (hx : x ∉ l) : (l ++ [x]).Nodup := by
  rw [← List.concat_eq_append]
  exact h.concat hx

/-! ### The steps -/

theorem inv_env (h : Inv P i s) {reg : Registry.System.State}
    (hslot : ∀ g ∈ s.guards, reg.slots.lookup g = s.reg.slots.lookup g)
    (htable : s.pc.locksTable = true → reg.agents = s.reg.agents) : Inv P i { s with reg := reg } := by
  refine h.goOn rfl rfl rfl (fun a ha => hslot _ (guard_mem ha)) ?_
  have hheld : ∀ {a r}, s.pc.current = some a → Held s a r → Held { s with reg := reg } a r :=
    fun ha hr => (hslot _ (current_guard_mem ha)).trans hr
  have hp := h.atPc
  unfold AtPc at hp ⊢
  dsimp only
  split at hp
  · exact hp
  · exact hp
  · next cs hpc =>
    rw [htable (by rw [hpc]; rfl)]
    exact hp
  · next a hpc => exact ⟨hp.1, hheld (by rw [hpc]; rfl) hp.2.1, hp.2.2⟩
  · next a hpc => exact ⟨hp.1, hheld (by rw [hpc]; rfl) hp.2.1, hp.2.2⟩
  · next a f hpc =>
    obtain ⟨h1, ⟨r, hr⟩, h2⟩ := hp
    exact ⟨h1, ⟨r, hheld (by rw [hpc]; rfl) hr⟩, h2⟩
  · next a err hpc => exact ⟨hp.1, hp.2.1, hheld (by rw [hpc]; rfl) hp.2.2.1, hp.2.2.2⟩
  · next a hpc => exact ⟨hp.1, hheld (by rw [hpc]; rfl) hp.2.1, hp.2.2⟩
  · exact hp

/-- A request that reports keeps its slot. -/
theorem own_slot {reg reg' : Registry.System.State} {l : Registry.System.Label} {g : ℕ} {e : Entry}
    {r : Report} (hl : (∃ f now, l = .report g f now) ∨ l = .evict g ∨ l = .evictClose g)
    (h : Registry.System.step allowLegacy reg l = some reg')
    (hg : reg.slots.lookup g = some ⟨e, r⟩) : ∃ r', reg'.slots.lookup g = some ⟨e, r'⟩ := by
  have hentry : ∀ {sl : Slot}, reg.slots.lookup g = some sl → sl.entry = e := by
    intro sl hsl
    rw [hg] at hsl
    cases hsl
    rfl
  rcases hl with ⟨f, now, rfl⟩ | rfl | rfl
  · cases Registry.System.move_of_step h with
    | nothing | health => exact ⟨r, hg⟩
    | fatal _ _ _ sl cause hq => exact ⟨.fatal cause, by simp [hentry hq]⟩
  · cases Registry.System.move_of_step h with
    | nothing | health => exact ⟨r, hg⟩
    | strike _ sl cause m hq => exact ⟨.none, by simp [hentry hq]⟩
    | remove _ sl cause key e' m hq => exact ⟨_, by simp [hentry hq]; rfl⟩
  · cases Registry.System.move_of_step h with
    | nothing | health => exact ⟨r, hg⟩
    | evictNow _ sl e' n hq => exact ⟨.none, by simp [hentry hq]⟩
    | evictLater _ sl e' n hq => exact ⟨.none, by simp [hentry hq]⟩

theorem Inv.own_step (h : Inv P i s) {a : Attempt} {r : Report} (ha : s.pc.current = some a)
    (hr : Held s a r) {reg : Registry.System.State} {l : Registry.System.Label}
    (hl : (∃ f now, l = .report a.guard f now) ∨ l = .evict a.guard ∨ l = .evictClose a.guard)
    (hs : Registry.System.step allowLegacy s.reg l = some reg) :
    (∃ r', reg.slots.lookup a.guard = some ⟨a.entry, r'⟩) ∧
      ∀ b ∈ s.finished, reg.slots.lookup b.guard = s.reg.slots.lookup b.guard := by
  refine ⟨own_slot hl hs hr, fun b hb => slot_eq_of_step hs ?_⟩
  have hne := h.guard_ne ha hb
  rcases hl with ⟨f, now, rfl⟩ | rfl | rfl
  · exact fun hc => hne (Option.some.inj hc).symm
  · exact fun hc => hne (Option.some.inj hc).symm
  · exact fun hc => hne (Option.some.inj hc).symm

theorem inv_take (h : Inv P i s) {g : ℕ} {e : Entry} {rest : List Entry}
    (hpc : s.pc = .trying (e :: rest)) (hg : g ∉ s.guards) :
    Inv P i { s with
      reg := (s.reg.setInflight e.inflight (s.reg.mem.inflight e.inflight + 1)).setSlot g ⟨e, .none⟩
      tried := s.tried ++ [e.stableId]
      pc := .opening ⟨e, g, .unopened⟩ } := by
  have hp := h.atPc
  rw [AtPc, hpc] at hp
  have hattempts : s.attempts = s.finished := by simp [State.attempts, hpc, Pc.current]
  refine ⟨?_, nodup_concat h.distinct (hp.2 e (by simp)).1, ?_, fun a ha => ?_, hp.1, ?_, rfl⟩
  · show s.tried ++ [e.stableId] = _
    rw [h.tried, hattempts]
    simp [State.attempts, Pc.current]
  · have hgs := h.guards
    rw [State.guards, hattempts] at hgs hg
    show ((s.finished ++ [_]).map _).Nodup
    rw [List.map_append]
    exact nodup_concat hgs hg
  · obtain ⟨h1, h2⟩ := h.settled a ha
    have hne : a.guard ≠ g := fun hc => hg (hc ▸ guard_mem ha)
    refine ⟨?_, h2⟩
    simp [Registry.System.State.setInflight, hne, h1]
  · simp [Held]

theorem slots_release {reg reg' : Registry.System.State} {g : ℕ}
    (h : Registry.System.step allowLegacy reg (.release g) = some reg') :
    reg'.slots = reg.slots.erase g := by
  obtain ⟨sl, hq, h⟩ := Registry.System.withSlot_eq_some.mp h
  split at h
  · cases h
    rfl
  · cases h

theorem inv_drop (h : Inv P i s) {a : Attempt} {err : Option RequestError} {reg : Registry.System.State}
    (hpc : s.pc = .dropping a err)
    (hreg : Registry.System.step allowLegacy s.reg (.release a.guard) = some reg) :
    Inv P i { s with reg := reg, finished := s.finished ++ [a], pc := afterDrop err } := by
  have hp := h.atPc
  rw [AtPc, hpc] at hp
  obtain ⟨hlen, herr, -, hset⟩ := hp
  have hattempts : s.attempts = s.finished ++ [a] := by simp [State.attempts, hpc, Pc.current]
  have hnone : (afterDrop err).current = none := by cases err <;> rfl
  refine ⟨?_, h.distinct, ?_, fun b hb => ?_, ?_⟩
  · show s.tried = _
    rw [h.tried, hattempts]
    simp only [State.attempts, hnone, Option.toList_none, List.append_nil]
  · have hg := h.guards
    rw [State.guards, hattempts] at hg
    simpa only [State.guards, State.attempts, hnone, Option.toList_none, List.append_nil] using hg
  · rw [slots_release hreg, lookup_erase]
    rcases List.mem_append.mp hb with hb | hb
    · obtain ⟨h1, h2⟩ := h.settled b hb
      exact ⟨by rw [h1]; split_ifs <;> rfl, h2⟩
    · rw [List.mem_singleton.mp hb]
      exact ⟨if_pos rfl, hset⟩
  · cases err with
    | none =>
      show (s.finished ++ [a]).length < maxTunnelAttempts
      rw [List.length_append]
      exact herr rfl
    | some e =>
      show (s.finished ++ [a]).length ≤ maxTunnelAttempts
      rw [List.length_append]
      exact hlen

/-- **One step keeps the invariant.** -/
theorem inv_step {l : Label} (h : Inv P i s) (hC : CutsFailedWrites P i.request l)
    (hs : step P allowLegacy i s l = some s') : Inv P i s' := by
  have hp := h.atPc
  cases Routing.move_of_step hs with
  | env l reg hq hlock hreg =>
    exact inv_env h (fun g hg => slot_eq_of_step hreg (hq g hg))
      fun hl => agents_eq_of_step hreg (hlock hl)
  | take g e rest hpc hcan hslot hg => exact inv_take h hpc hg
  | drop a err reg hpc hreg => exact inv_drop h hpc hreg
  | pick order now cs hpc hcs =>
    rw [AtPc, hpc] at hp
    exact h.goOn rfl rfl (by rw [hpc]; rfl) (fun _ _ => rfl) ⟨hp, hcs⟩
  | noPick order now reason hpc =>
    rw [AtPc, hpc] at hp
    exact h.goOn rfl rfl (by rw [hpc]; rfl) (fun _ _ => rfl) hp
  | exhausted g hpc =>
    rw [AtPc, hpc] at hp
    exact h.goOn rfl rfl (by rw [hpc]; rfl) (fun _ _ => rfl) hp.1
  | skip g e rest hpc =>
    rw [AtPc, hpc] at hp
    exact h.goOn rfl rfl (by rw [hpc]; rfl) (fun _ _ => rfl)
      ⟨hp.1, fun e' he' => hp.2 e' (List.mem_cons_of_mem _ he')⟩
  | reject reason metrics err hpc =>
    rw [AtPc, hpc] at hp
    exact h.goOn rfl rfl (by rw [hpc]; rfl) (fun _ _ => rfl) (le_of_lt hp)
  | opened result now a hpc =>
    rw [AtPc, hpc] at hp
    exact h.goOn rfl rfl (by rw [hpc]; rfl) (fun _ _ => rfl) ⟨hp.1, hp.2.1, rfl⟩
  | openFailed result now a failure f reg hpc hreg =>
    rw [AtPc, hpc] at hp
    obtain ⟨hheld, hrest⟩ := h.own_step (by rw [hpc]; rfl) hp.2.1 (Or.inl ⟨_, _, rfl⟩) hreg
    refine h.goOn rfl rfl (by rw [hpc]; rfl) hrest ⟨hp.1, hheld, ?_⟩
    rw [hp.2.2]
    trivial
  | written result bytes now a metrics w hpc hw =>
    rw [AtPc, hpc] at hp
    exact h.goOn rfl rfl (by rw [hpc]; rfl) (fun _ _ => rfl) ⟨hp.1, hp.2.1, hp.2.2, w, hw⟩
  | writeFailed result bytes now a failure b metrics reg hpc hw hreg =>
    rw [AtPc, hpc] at hp
    have hcut := cut_of_tunnelWrite hC hw
    rcases hreg with rfl | hreg
    · exact h.goOn rfl rfl (by rw [hpc]; rfl) (fun _ _ => rfl) ⟨hp.1, ⟨_, hp.2.1⟩, hcut⟩
    · obtain ⟨hheld, hrest⟩ := h.own_step (by rw [hpc]; rfl) hp.2.1 (Or.inl ⟨_, _, rfl⟩) hreg
      exact h.goOn rfl rfl (by rw [hpc]; rfl) hrest ⟨hp.1, hheld, hcut⟩
  | reported a f e metrics last err hpc hslot herr =>
    rw [AtPc, hpc] at hp
    obtain ⟨hlen, ⟨r, hr⟩, hset⟩ := hp
    have htried : s.tried.length = s.finished.length + 1 := by
      rw [h.tried]
      simp [State.attempts, hpc, Pc.current]
    refine h.goOn rfl rfl (by rw [hpc]; rfl) (fun _ _ => rfl)
      ⟨hlen, fun hn => htried ▸ herr hn, ?_, hset⟩
    unfold Held at hr ⊢
    rw [hr] at hslot
    cases hslot
    exact hr
  | evicting a f l reg hpc hl hreg =>
    rw [AtPc, hpc] at hp
    obtain ⟨hlen, ⟨r, hr⟩, hset⟩ := hp
    obtain ⟨hheld, hrest⟩ := h.own_step (by rw [hpc]; rfl) hr (Or.inr hl) hreg
    exact h.goOn rfl rfl rfl hrest (by rw [AtPc, hpc]; exact ⟨hlen, hheld, hset⟩)

theorem inv_run {reg : Registry.System.State} {ls : List Label}
    (hC : ∀ l ∈ ls, CutsFailedWrites P i.request l)
    (h : run (step P allowLegacy i) (start reg) ls = some s) : Inv P i s :=
  run_invariant_of (C := fun _ l => CutsFailedWrites P i.request l)
    (fun _ _ _ hi hc hs => inv_step hi hc hs) ls _ _ (inv_start reg) (allSteps_of_forall hC) h

/-! ### The agent's reader -/

/-- On a stream whose reads meet `evs`, the agent's `FrameReader` hands out the frame `f`. -/
def Obtains (P : Postcard) (evs : List ReadEvent) (f : Frame) : Prop :=
  ∃ n, .ok (some f) ∈ drain P n .new evs

/-- What the agent can read on the stream of an attempt. -/
def Arrives : Stream → List ReadEvent → Prop
  | .unopened, evs => incoming evs = []
  | .live, _ => True
  | .ended bytes, evs => incoming evs <+: bytes

/-- The transport hands over the bytes `w` before a read fails. -/
def Delivers (w : Bytes) (evs : List ReadEvent) : Prop :=
  ∃ evs1 evs2, evs = evs1 ++ evs2 ∧ NoFail evs1 ∧ w <+: incoming evs1

theorem Cut.incomplete {request : Frame} {bytes : Bytes} (h : Cut P request bytes) :
    ∀ b, b <+: bytes → Incomplete b := by
  rintro b ⟨t, rfl⟩
  rcases h with h | ⟨w, hw, ⟨q, hq⟩, hne⟩
  · rw [(List.append_eq_nil_iff.mp h).1]
    exact Or.inl (by simp)
  · refine incomplete_of_cut hw (q := t ++ q) (by rw [← hq, List.append_assoc]) fun hc => hne ?_
    rw [← hq, (List.append_eq_nil_iff.mp hc).2, List.append_nil]

/-- The agent of an attempt that is over gets nothing. -/
theorem not_obtains_of_settled {request f : Frame} {st : Stream} {evs : List ReadEvent}
    (h : Settled P request st) (ha : Arrives st evs) : ¬ Obtains P evs f := by
  rintro ⟨n, hn⟩
  cases st with
  | unopened =>
    have hcut : Cut P request [] := Or.inl rfl
    refine drain_incomplete P hcut.incomplete f n .new evs wf_new ?_ hn
    show [] ++ incoming evs <+: []
    rw [show incoming evs = [] from ha]
    exact List.prefix_rfl
  | live => exact h
  | ended bytes => exact drain_incomplete P (Cut.incomplete h) f n .new evs wf_new ha hn

/-! ### The call on the registry -/

theorem reg_step {l : Label} (h : Inv P i s) (hs : step P allowLegacy i s l = some s') :
    s'.reg = s.reg ∨ ∃ l', Registry.System.step allowLegacy s.reg l' = some s'.reg := by
  cases Routing.move_of_step hs with
  | env l reg hq hlock hreg => exact Or.inr ⟨l, hreg⟩
  | take g e rest hpc hcan hslot hg =>
    have hp := h.atPc
    rw [AtPc, hpc] at hp
    obtain ⟨key, hkey⟩ := (hp.2 e (by simp)).2
    exact Or.inr ⟨.acquire g key, by simp [Registry.System.step, hkey, hslot, hcan]⟩
  | openFailed result now a failure f reg hpc hreg => exact Or.inr ⟨_, hreg⟩
  | writeFailed result bytes now a failure b metrics reg hpc hw hreg =>
    exact hreg.imp id fun hreg => ⟨_, hreg⟩
  | evicting a f l reg hpc hl hreg => exact Or.inr ⟨_, hreg⟩
  | drop a err reg hpc hreg => exact Or.inr ⟨_, hreg⟩
  | _ => exact Or.inl rfl

/-- The slots of a call are slots of the registry, and the counters count them. -/
theorem reg_reaches {reg : Registry.System.State} {ls : List Label}
    (hC : ∀ l ∈ ls, CutsFailedWrites P i.request l)
    (h : run (step P allowLegacy i) (start reg) ls = some s) :
    Reaches (Registry.System.step allowLegacy) reg s.reg := by
  have hI : Inv P i s ∧ Reaches (Registry.System.step allowLegacy) reg s.reg := by
    refine run_invariant_of (C := fun _ l => CutsFailedWrites P i.request l)
      (I := fun s => Inv P i s ∧ Reaches (Registry.System.step allowLegacy) reg s.reg)
      (fun s l s' hi hc hs => ⟨inv_step hi.1 hc hs, ?_⟩) ls _ _ ⟨inv_start reg, .refl _⟩
      (allSteps_of_forall hC) h
    rcases reg_step hi.1 hs with he | ⟨l', hl'⟩
    · rw [he]
      exact hi.2
    · exact hi.2.tail hl'
  exact hI.2

/-! ### At most once -/

theorem length_attempts_le (s : State) : s.attempts.length ≤ s.finished.length + 1 := by
  simp only [State.attempts, List.length_append]
  have := Option.length_toList_le (o := s.pc.current)
  omega

theorem Inv.length_le (h : Inv P i s) : s.attempts.length ≤ maxTunnelAttempts := by
  have hp := h.atPc
  have hle := length_attempts_le s
  unfold AtPc at hp
  split at hp <;> try omega
  next err hpc => simpa [State.attempts, hpc, Pc.current] using hp

/-- Only the agent of the last attempt can get a frame. -/
theorem Inv.last_of_obtains (h : Inv P i s) {evs : ℕ → List ReadEvent}
    (harr : ∀ k a, s.attempts[k]? = some a → Arrives a.stream (evs k)) {k : ℕ} {f : Frame}
    (hk : k < s.attempts.length) (ho : Obtains P (evs k) f) : k = s.finished.length := by
  have hle := length_attempts_le s
  by_contra hne
  have hlt : k < s.finished.length := by omega
  have hget : s.attempts[k]? = some s.finished[k] := by
    rw [State.attempts, List.getElem?_append_left hlt, List.getElem?_eq_getElem hlt]
  exact not_obtains_of_settled (h.settled _ (List.getElem_mem hlt)).2 (harr k _ hget) ho

/-- **At-most-once delivery under retry.** From any registry, through any run in which a failed write lets
only a strict part of the frame through, and whatever the agents' reads meet: at most two attempts, on
different `stable_id`s; at most one agent gets a frame, and none if the call fails; if it succeeds, the
agent of its last attempt alone gets one, the request, as soon as the transport hands it over, and the call
holds the slot of that attempt and no other; a failed attempt has released its slot before the next one
begins or the call returns. -/
theorem at_most_once_delivery (reg : Registry.System.State) (ls : List Label)
    (hC : ∀ l ∈ ls, CutsFailedWrites P i.request l)
    (h : run (step P allowLegacy i) (start reg) ls = some s) (evs : ℕ → List ReadEvent)
    (harr : ∀ k a, s.attempts[k]? = some a → Arrives a.stream (evs k)) :
    s.attempts.length ≤ 2 ∧ (s.attempts.map (·.entry.stableId)).Nodup ∧
      (∀ k k' f f', k < s.attempts.length → k' < s.attempts.length →
        Obtains P (evs k) f → Obtains P (evs k') f' → k = k') ∧
      (∀ err, s.pc = .returned (.error err) → ∀ k f, k < s.attempts.length → ¬ Obtains P (evs k) f) ∧
      (∀ a, s.pc = .returned (.ok a) → ∃ w, writeFrame P i.request = .ok w ∧
        s.attempts = s.finished ++ [a] ∧
        (Delivers w (evs s.finished.length) → Obtains P (evs s.finished.length) i.request) ∧
        (∀ k f, k < s.attempts.length → Obtains P (evs k) f → k = s.finished.length) ∧
        s.reg.slots.lookup a.guard = some ⟨a.entry, .none⟩) ∧
      (∀ b ∈ s.attempts, s.pc.current ≠ some b → s.reg.slots.lookup b.guard = none) ∧
      Reaches (Registry.System.step allowLegacy) reg s.reg := by
  have hI := inv_run hC h
  refine ⟨hI.length_le, ?_, fun k k' f f' hk hk' ho ho' => ?_, fun err hpc k f hk ho => ?_,
    fun a hpc => ?_, fun b hb hcur => ?_, reg_reaches hC h⟩
  · rw [← hI.tried]
    exact hI.distinct
  · rw [hI.last_of_obtains harr hk ho, hI.last_of_obtains harr hk' ho']
  · have hlast := hI.last_of_obtains harr hk ho
    simp only [State.attempts, hpc, Pc.current, Option.toList_none, List.append_nil] at hk
    omega
  · have hp := hI.atPc
    rw [AtPc, hpc] at hp
    obtain ⟨-, hheld, -, w, hw⟩ := hp
    refine ⟨w, hw, by simp [State.attempts, hpc, Pc.current], ?_,
      fun k f hk ho => hI.last_of_obtains harr hk ho, hheld⟩
    rintro ⟨evs1, evs2, he, hno, hpre⟩
    refine ⟨evs1.length + 1, ?_⟩
    rw [he]
    exact mem_drain_of_delivered hw _ _ evs1 wf_new hno (by omega) hpre
  · rcases List.mem_append.mp hb with hb | hb
    · exact (hI.settled b hb).1
    · exact absurd (Option.mem_toList.mp hb) hcur

/-- A request that two agents can serve. -/
def retryInput : Input := ⟨"default", "m", .proxyRequest 7 "POST" "/v1" [] [1], 15000, 100⟩

/-- The two agents, one with the model and one with the wildcard. -/
def exactAgent : Entry := ⟨1, 2, "b", "default", ["m"], 2, 1⟩

@[inherit_doc exactAgent]
def wildcardAgent : Entry := ⟨0, 1, "a", "default", ["*"], 2, 0⟩

/-- They register; the write to the first times out inside the frame, the write to the second succeeds. -/
def retryRun : List Label :=
  [.env (.connect 0 (.v4 1)), .env (.frame 0 (.register "a" ["*"] 2 "") false 0), .env (.insert 0 0),
    .env (.connect 1 (.v4 2)), .env (.frame 1 (.register "b" ["m"] 2 "") false 0), .env (.insert 1 0),
    .pick [wildcardAgent, exactAgent] 0, .tryNext 0, .opened .ok 0, .wrote .elapsed [0, 0, 0] 0, .report,
    .drop, .pick [wildcardAgent, exactAgent] 0, .tryNext 1, .opened .ok 0, .wrote .ok [] 0]

/-- What the two agents read: three bytes and a reset, and the whole frame. -/
def retryReads : ℕ → List ReadEvent
  | 0 => [.data ⟨[0, 0, 0], by decide, by decide⟩, .fail ⟨.other, "reset"⟩]
  | _ => [.data ⟨[0, 0, 0, 14, 2, 7, 4, 80, 79, 83, 84, 3, 47, 118, 49, 0, 1, 1], by decide, by decide⟩]

/-- The second agent alone gets the request. -/
theorem at_most_once_delivery_retry : ∃ s,
    run (step postcard true retryInput) (start Registry.System.init) retryRun = some s ∧
      s.attempts.length = 2 ∧ Obtains postcard (retryReads 1) retryInput.request ∧
      ∀ f, ¬ Obtains postcard (retryReads 0) f := by
  obtain ⟨s, hs, hatt, hfin, hpc⟩ := exists_run (step postcard true retryInput)
    (start Registry.System.init) retryRun (fun s =>
      s.attempts = [⟨exactAgent, 0, .ended [0, 0, 0]⟩, ⟨wildcardAgent, 1, .live⟩] ∧
        s.finished.length = 1 ∧ s.pc = .returned (.ok ⟨wildcardAgent, 1, .live⟩)) (by decide)
  have hw : writeFrame postcard retryInput.request =
      .ok [0, 0, 0, 14, 2, 7, 4, 80, 79, 83, 84, 3, 47, 118, 49, 0, 1, 1] := by decide
  have hC : ∀ l ∈ retryRun, CutsFailedWrites postcard retryInput.request l := by
    simp [retryRun, CutsFailedWrites, hw]
  have harr : ∀ k a, s.attempts[k]? = some a → Arrives a.stream (retryReads k) := by
    intro k a ha
    rw [hatt] at ha
    match k, ha with
    | 0, ha =>
      cases ha
      exact List.prefix_rfl
    | 1, ha =>
      cases ha
      trivial
  obtain ⟨-, -, -, -, hok, -⟩ := at_most_once_delivery _ _ hC hs retryReads harr
  obtain ⟨w, hw', -, hdel, honly, -⟩ := hok _ hpc
  rw [hw] at hw'
  cases hw'
  rw [hfin] at hdel honly
  refine ⟨s, hs, by rw [hatt]; rfl, hdel ⟨retryReads 1, [], rfl, ?_, List.prefix_rfl⟩,
    fun f ho => ?_⟩
  · intro e he
    simp [retryReads] at he
  · exact absurd (honly 0 f (by rw [hatt]; decide) ho) (by decide)

end HomeLlmGateway.Proxy.Delivery
