import HomeLlmGateway.Lib.Runs
import HomeLlmGateway.Lib.Permits
import HomeLlmGateway.Agent.Heartbeat

/-! # One connection of the agent

`connect_once` after its registration (`agent/src/session.rs`) and the gate of the machine
(`agent/src/gate.rs`). The accept loop takes the streams that the gateway opens, each with a permit of the
gate, and hands them to tasks of their own; beside it the heartbeat task is running, and its end is to end
the connection, wherever the loop is waiting.

A step is one of the accept loop (the branch of its `select!` that was chosen), of the heartbeat task, of a
task that handles a stream, of the gateway that opens a stream, or the passing of time. What the handling of
a stream does is `Agent.Relay`; here it ends at some time. -/

namespace HomeLlmGateway.Agent.Connection

open HomeLlmGateway.Lib.Runs HomeLlmGateway.Lib.Assoc HomeLlmGateway.Lib.Permits
open HomeLlmGateway.Agent.Backoff (fromMillis fromSecs)
open HomeLlmGateway.Agent.Heartbeat (afterExchange)

/-! ### The gate -/

/-- `SLOT_WAIT_LOG_AFTER`. -/
def slotWaitLogAfter : ℕ := fromMillis 100

/-- `SLOT_LOG_INTERVAL`. -/
def slotLogInterval : ℕ := fromSecs 10

structure ConcurrencyGate where
  sem : Semaphore
  max : UInt32
  queued : ℕ
  lastLog : Option ℕ

namespace ConcurrencyGate

/-- `ConcurrencyGate::new`: no gate for a maximum of zero. -/
def new (max : UInt32) : Option ConcurrencyGate :=
  if 0 < max then some ⟨⟨max.toNat⟩, max, 0, none⟩ else none

/-- What `acquire` notes once it has its permit, if it was called at `started`, and whether it warns. -/
def noted (g : ConcurrencyGate) (started now : ℕ) : ConcurrencyGate × Bool :=
  if slotWaitLogAfter ≤ now - started then
    if g.lastLog.all (fun t => slotLogInterval ≤ now - t) then
      ({ g with queued := g.queued + 1, lastLog := some now }, true)
    else ({ g with queued := g.queued + 1 }, false)
  else (g, false)

/-- `acquire`, called at `started`, where a permit is free. -/
def acquire (g : ConcurrencyGate) (started now : ℕ) : Option (ConcurrencyGate × Bool) :=
  g.sem.tryAcquire.map fun sem => { g with sem := sem }.noted started now

def release (g : ConcurrencyGate) : ConcurrencyGate := { g with sem := g.sem.release }

end ConcurrencyGate

/-! ### The parties -/

/-- How a task has ended, in the cases of `report_heartbeat_down`. -/
inductive Joined where
  | finished
  | failed
  | panicked
  | cancelled
  deriving DecidableEq

/-- The heartbeat task and its `JoinHandle`. -/
inductive Heartbeat where
  | running (failures : ℕ)
  /-- has ended, and nobody has looked -/
  | ended (r : Joined)
  /-- the handle has given its result -/
  | taken (r : Joined)
  deriving DecidableEq

/-- The task after an exchange with the gateway: the loop returns nothing but an error. -/
def Heartbeat.afterBeat (failures : ℕ) (ok : Bool) : Heartbeat :=
  match afterExchange failures ok with
  | some failures => .running failures
  | none => .ended .failed

/-- `hb.abort()`. -/
def Heartbeat.abort : Heartbeat → Heartbeat
  | .running _ => .ended .cancelled
  | hb => hb

/-- Where the accept loop is. -/
inductive Loop where
  /-- in its `select!` -/
  | accepting
  /-- in `acquire_slot` since `started`, with a stream it has accepted -/
  | waiting (stream started : ℕ)
  /-- after its `break` -/
  | left
  /-- `connect_once` has returned -/
  | returned
  /-- the handle was polled after it had given its result -/
  | panicked
  deriving DecidableEq

/-- A task of the `JoinSet`, and whether it holds a permit of the gate. -/
inductive Task where
  | running (permit : Bool)
  /-- has ended and is to be joined -/
  | finished
  /-- told to stop, not yet dropped -/
  | aborted (permit : Bool)
  deriving DecidableEq

/-- The task holds a permit. -/
def Task.holds : Task → Bool
  | .running permit => permit
  | .finished => false
  | .aborted permit => permit

/-- The task may still do something for its stream. -/
def Task.alive : Task → Bool
  | .finished => false
  | _ => true

def Task.isRunning : Task → Bool
  | .running _ => true
  | _ => false

/-- `abort_all`, for one of the tasks. -/
def Task.abort : Task → Task
  | .running permit => .aborted permit
  | t => t

/-! ### The state -/

structure State where
  now : ℕ
  hb : Heartbeat
  loop : Loop
  gate : Option ConcurrencyGate
  /-- the streams that the gateway has opened and the loop has not accepted -/
  pending : List ℕ
  streams : HashMap ℕ Task
  /-- all streams the gateway has opened -/
  opened : List ℕ
  /-- the streams that were handed to a task, in this order -/
  spawned : List ℕ
  /-- the stream the loop had accepted when the end of the heartbeats stopped it -/
  given : Option ℕ
  /-- when the loop got each permit of the gate, and how long it had waited -/
  waits : List (ℕ × ℕ)
  /-- when the gate has warned -/
  warned : List ℕ

/-- The connection after `register`, as the accept loop begins. -/
def init (maxConcurrency : UInt32) (now : ℕ) : State where
  now := now
  hb := .running 0
  loop := .accepting
  gate := ConcurrencyGate.new maxConcurrency
  pending := []
  streams := ∅
  opened := []
  spawned := []
  given := none
  waits := []
  warned := []

/-! ### One step -/

inductive Label where
  | tick (d : ℕ)
  /-- the gateway opens a stream -/
  | opens (i : ℕ)
  /-- an exchange of the heartbeat task -/
  | beat (ok : Bool)
  | hbPanic
  /-- the loop sees that the heartbeat task has ended -/
  | heartbeatDown
  | joinNext (i : ℕ)
  /-- `Ok(Some(stream))`, in whatever order -/
  | accept (i : ℕ)
  /-- `Ok(None)` or an error -/
  | acceptEnds
  /-- `acquire_slot` gets its permit -/
  | permit
  /-- the handling of a stream ends, in whatever way -/
  | finish (i : ℕ)
  /-- `hb.abort()`, `abort_all` and the return -/
  | teardown
  /-- a task that was told to stop is dropped -/
  | dropped (i : ℕ)
  deriving DecidableEq

/-- `spawn`. -/
def State.spawn (s : State) (i : ℕ) (permit : Bool) : State :=
  { s with
    loop := .accepting
    streams := s.streams.insert i (.running permit)
    spawned := s.spawned ++ [i] }

/-- The permit of a task is dropped with it. -/
def State.giveBack (s : State) (permit : Bool) : State :=
  if permit then { s with gate := s.gate.map ConcurrencyGate.release } else s

def step (s : State) : Label → Option State
  | .tick d => some { s with now := s.now + d }
  | .opens i =>
    if i ∈ s.opened then none
    else some { s with pending := s.pending ++ [i], opened := s.opened ++ [i] }
  | .beat ok =>
    match s.hb with
    | .running failures => some { s with hb := .afterBeat failures ok }
    | _ => none
  | .hbPanic =>
    match s.hb with
    | .running _ => some { s with hb := .ended .panicked }
    | _ => none
  | .heartbeatDown =>
    match s.loop, s.hb with
    | .accepting, .ended r => some { s with hb := .taken r, loop := .left }
    | .waiting i _, .ended r => some { s with hb := .taken r, loop := .left, given := some i }
    | .accepting, .taken _ => some { s with loop := .panicked }
    | .waiting .., .taken _ => some { s with loop := .panicked }
    | _, _ => none
  | .joinNext i =>
    match s.loop, s.streams.lookup i with
    | .accepting, some .finished => some { s with streams := s.streams.erase i }
    | _, _ => none
  | .accept i =>
    if s.loop = .accepting ∧ i ∈ s.pending then
      match s.gate with
      | none => some ({ s with pending := s.pending.erase i }.spawn i false)
      | some _ => some { s with pending := s.pending.erase i, loop := .waiting i s.now }
    else none
  | .acceptEnds =>
    match s.loop with
    | .accepting => some { s with loop := .left }
    | _ => none
  | .permit =>
    match s.loop, s.gate with
    | .waiting i started, some g =>
      (g.acquire started s.now).map fun (g, warns) =>
        { s with
          gate := some g
          waits := s.waits ++ [(s.now, s.now - started)]
          warned := if warns then s.warned ++ [s.now] else s.warned }.spawn i true
    | _, _ => none
  | .finish i =>
    match s.streams.lookup i with
    | some (.running permit) =>
      some ({ s with streams := s.streams.insert i .finished }.giveBack permit)
    | _ => none
  | .teardown =>
    match s.loop with
    | .left => some { s with
        hb := s.hb.abort
        loop := .returned
        streams := mapVal (fun _ t => t.abort) s.streams }
    | _ => none
  | .dropped i =>
    match s.streams.lookup i with
    | some (.aborted permit) => some ({ s with streams := s.streams.erase i }.giveBack permit)
    | _ => none

/-- The accept loop is at its `select!` or in that of `acquire_slot`. -/
def Loop.live : Loop → Bool
  | .accepting => true
  | .waiting .. => true
  | _ => false

/-- The stream that the loop has accepted and not yet handed on. -/
def Loop.inHand : Loop → Option ℕ
  | .waiting i _ => some i
  | _ => none

/-- The steps, each with what it needs and what it does. -/
inductive Step (s : State) : Label → State → Prop
  | tick (d : ℕ) : Step s (.tick d) { s with now := s.now + d }
  | opens {i : ℕ} (hi : i ∉ s.opened) :
    Step s (.opens i) { s with pending := s.pending ++ [i], opened := s.opened ++ [i] }
  | beat {failures : ℕ} {ok : Bool} (hh : s.hb = .running failures) :
    Step s (.beat ok) { s with hb := .afterBeat failures ok }
  | hbPanic {failures : ℕ} (hh : s.hb = .running failures) : Step s .hbPanic { s with hb := .ended .panicked }
  | heartbeatDown {r : Joined} (hl : s.loop.live = true) (hh : s.hb = .ended r) :
    Step s .heartbeatDown
      { s with hb := .taken r, loop := .left, given := s.loop.inHand.or s.given }
  | polledAgain {r : Joined} (hl : s.loop.live = true) (hh : s.hb = .taken r) :
    Step s .heartbeatDown { s with loop := .panicked }
  | joinNext {i : ℕ} (hl : s.loop = .accepting) (hi : s.streams.lookup i = some .finished) :
    Step s (.joinNext i) { s with streams := s.streams.erase i }
  | acceptFree {i : ℕ} (hl : s.loop = .accepting) (hi : i ∈ s.pending) (hg : s.gate = none) :
    Step s (.accept i) ({ s with pending := s.pending.erase i }.spawn i false)
  | acceptGated {i : ℕ} {g : ConcurrencyGate} (hl : s.loop = .accepting) (hi : i ∈ s.pending)
      (hg : s.gate = some g) :
    Step s (.accept i) { s with pending := s.pending.erase i, loop := .waiting i s.now }
  | acceptEnds (hl : s.loop = .accepting) : Step s .acceptEnds { s with loop := .left }
  | permit {i started : ℕ} {g g' : ConcurrencyGate} {warns : Bool} (hl : s.loop = .waiting i started)
      (hg : s.gate = some g) (ha : g.acquire started s.now = some (g', warns)) :
    Step s .permit ({ s with
      gate := some g'
      waits := s.waits ++ [(s.now, s.now - started)]
      warned := if warns then s.warned ++ [s.now] else s.warned }.spawn i true)
  | finish {i : ℕ} {permit : Bool} (hi : s.streams.lookup i = some (.running permit)) :
    Step s (.finish i) ({ s with streams := s.streams.insert i .finished }.giveBack permit)
  | teardown (hl : s.loop = .left) : Step s .teardown { s with
      hb := s.hb.abort
      loop := .returned
      streams := mapVal (fun _ t => t.abort) s.streams }
  | dropped {i : ℕ} {permit : Bool} (hi : s.streams.lookup i = some (.aborted permit)) :
    Step s (.dropped i) ({ s with streams := s.streams.erase i }.giveBack permit)

theorem step_cases {s s' : State} {l : Label} (h : step s l = some s') : Step s l s' := by
  cases l with
  | tick d =>
    cases h
    exact .tick d
  | opens i =>
    simp only [step] at h
    split_ifs at h with hi
    cases h
    exact .opens hi
  | beat ok =>
    simp only [step] at h
    split at h
    · next hh =>
      cases h
      exact .beat hh
    · cases h
  | hbPanic =>
    simp only [step] at h
    split at h
    · next hh =>
      cases h
      exact .hbPanic hh
    · cases h
  | heartbeatDown =>
    simp only [step] at h
    split at h
    · next hl hh =>
      cases h
      have hd := Step.heartbeatDown (by rw [hl]; rfl) hh
      rwa [hl] at hd
    · next hl hh =>
      cases h
      have hd := Step.heartbeatDown (by rw [hl]; rfl) hh
      rwa [hl] at hd
    · next hl hh =>
      cases h
      exact .polledAgain (by rw [hl]; rfl) hh
    · next hl hh =>
      cases h
      exact .polledAgain (by rw [hl]; rfl) hh
    · cases h
  | joinNext i =>
    simp only [step] at h
    split at h
    · next hl hi =>
      cases h
      exact .joinNext hl hi
    · cases h
  | accept i =>
    simp only [step] at h
    split_ifs at h with hc
    split at h
    · next hg =>
      cases h
      exact .acceptFree hc.1 hc.2 hg
    · next hg =>
      cases h
      exact .acceptGated hc.1 hc.2 hg
  | acceptEnds =>
    simp only [step] at h
    split at h
    · next hl =>
      cases h
      exact .acceptEnds hl
    · cases h
  | permit =>
    simp only [step] at h
    split at h
    · next hl hg =>
      obtain ⟨⟨g', warns⟩, ha, rfl⟩ := Option.map_eq_some_iff.mp h
      exact .permit hl hg ha
    · cases h
  | finish i =>
    simp only [step] at h
    split at h
    · next hi =>
      cases h
      exact .finish hi
    · cases h
  | teardown =>
    simp only [step] at h
    split at h
    · next hl =>
      cases h
      exact .teardown hl
    · cases h
  | dropped i =>
    simp only [step] at h
    split at h
    · next hi =>
      cases h
      exact .dropped hi
    · cases h

@[simp] theorem spawn_hb (s : State) (i : ℕ) (permit : Bool) : (s.spawn i permit).hb = s.hb := rfl

@[simp] theorem spawn_loop (s : State) (i : ℕ) (permit : Bool) : (s.spawn i permit).loop = .accepting := rfl

@[simp] theorem spawn_gate (s : State) (i : ℕ) (permit : Bool) : (s.spawn i permit).gate = s.gate := rfl

@[simp] theorem spawn_streams (s : State) (i : ℕ) (permit : Bool) :
    (s.spawn i permit).streams = s.streams.insert i (.running permit) := rfl

theorem giveBack_eq (s : State) (permit : Bool) : s.giveBack permit =
    { s with gate := if permit then s.gate.map ConcurrencyGate.release else s.gate } := by
  cases permit <;> rfl

/-! ### The permits -/

/-- Every task has a permit of the gate as long as it lives, or there is no gate and no task has one. -/
def Gated (max : UInt32) (gate : Option ConcurrencyGate) (streams : HashMap ℕ Task) : Prop :=
  match gate with
  | none => max = 0 ∧ ∀ i t, streams.lookup i = some t → t.holds = false
  | some g => g.max = max ∧ 0 < max ∧ Conserved max.toNat g.sem (countVal Task.holds streams) ∧
    ∀ i t, streams.lookup i = some t → t.holds = t.alive

variable {max : UInt32} {gate : Option ConcurrencyGate} {streams : HashMap ℕ Task} {i : ℕ}

theorem gated_new (max : UInt32) : Gated max (ConcurrencyGate.new max) ∅ := by
  unfold ConcurrencyGate.new
  split_ifs with h
  · refine ⟨rfl, h, Conserved.new _, ?_⟩
    intro i t hi
    cases hi
  · refine ⟨?_, fun i t hi => by cases hi⟩
    have hle : max ≤ 0 := UInt32.not_lt.mp h
    exact UInt32.le_zero_iff.mp hle

theorem gated_spawn_free (h : Gated max none streams) (i : ℕ) :
    Gated max none (streams.insert i (.running false)) := by
  refine ⟨h.1, fun j t hj => ?_⟩
  rw [lookup_insert] at hj
  split_ifs at hj
  · cases hj
    rfl
  · exact h.2 j t hj

theorem acquire_eq_some {g g' : ConcurrencyGate} {started now : ℕ} {warns : Bool}
    (h : g.acquire started now = some (g', warns)) :
    g.sem.tryAcquire = some g'.sem ∧ g'.max = g.max := by
  obtain ⟨sem, hsem, hnoted⟩ := Option.map_eq_some_iff.mp h
  have hkeep : g'.sem = sem ∧ g'.max = g.max := by
    unfold ConcurrencyGate.noted at hnoted
    split_ifs at hnoted <;> cases hnoted <;> exact ⟨rfl, rfl⟩
  exact ⟨by rw [hkeep.1, hsem], hkeep.2⟩

theorem gated_spawn {g g' : ConcurrencyGate} (h : Gated max (some g) streams)
    (hi : streams.lookup i = none) (hs : g.sem.tryAcquire = some g'.sem) (hm : g'.max = g.max) :
    Gated max (some g') (streams.insert i (.running true)) := by
  obtain ⟨hmax, hpos, hcons, hall⟩ := h
  refine ⟨hm.trans hmax, hpos, conserved_spawn hcons hi rfl hs, fun j t hj => ?_⟩
  rw [lookup_insert] at hj
  split_ifs at hj
  · cases hj
    rfl
  · exact hall j t hj

theorem gated_finish {t : Task} {permit : Bool} (h : Gated max gate streams) (hi : streams.lookup i = some t)
    (ht : t.holds = permit) :
    Gated max (if permit then gate.map ConcurrencyGate.release else gate) (streams.insert i .finished) := by
  cases gate with
  | none =>
    have hgate : (if permit then Option.map ConcurrencyGate.release none else none) = none := by simp
    rw [hgate]
    refine ⟨h.1, fun j t' hj => ?_⟩
    rw [lookup_insert] at hj
    split_ifs at hj
    · cases hj
      rfl
    · exact h.2 j t' hj
  | some g =>
    obtain ⟨hmax, hpos, hcons, hall⟩ := h
    have hrest : ∀ j t', (streams.insert i .finished).lookup j = some t' → t'.holds = t'.alive := by
      intro j t' hj
      rw [lookup_insert] at hj
      split_ifs at hj
      · cases hj
        rfl
      · exact hall j t' hj
    cases permit with
    | false => exact ⟨hmax, hpos, conserved_keep hcons hi ht.symm, hrest⟩
    | true => exact ⟨hmax, hpos, conserved_finish hcons hi ht rfl, hrest⟩

theorem lookup_of_erase {j : ℕ} {t : Task} (h : (streams.erase i).lookup j = some t) :
    streams.lookup j = some t := by
  rw [lookup_erase] at h
  split_ifs at h
  exact h

theorem gated_erase {t : Task} {permit : Bool} (h : Gated max gate streams) (hi : streams.lookup i = some t)
    (ht : t.holds = permit) :
    Gated max (if permit then gate.map ConcurrencyGate.release else gate) (streams.erase i) := by
  cases gate with
  | none =>
    have hgate : (if permit then Option.map ConcurrencyGate.release none else none) = none := by simp
    rw [hgate]
    exact ⟨h.1, fun j t' hj => h.2 j t' (lookup_of_erase hj)⟩
  | some g =>
    obtain ⟨hmax, hpos, hcons, hall⟩ := h
    have hrest : ∀ j t', (streams.erase i).lookup j = some t' → t'.holds = t'.alive :=
      fun j t' hj => hall j t' (lookup_of_erase hj)
    cases permit with
    | false => exact ⟨hmax, hpos, conserved_forget hcons hi ht, hrest⟩
    | true => exact ⟨hmax, hpos, conserved_drop hcons hi ht, hrest⟩

@[simp] theorem abort_holds (t : Task) : t.abort.holds = t.holds := by cases t <;> rfl

@[simp] theorem abort_alive (t : Task) : t.abort.alive = t.alive := by cases t <;> rfl

theorem gated_abort (h : Gated max gate streams) :
    Gated max gate (mapVal (fun _ t => t.abort) streams) := by
  have hback : ∀ {j t'}, (mapVal (fun _ t => t.abort) streams).lookup j = some t' →
      ∃ t, streams.lookup j = some t ∧ t.abort = t' := by
    intro j t' hj
    rw [lookup_mapVal] at hj
    exact Option.map_eq_some_iff.mp hj
  cases gate with
  | none =>
    refine ⟨h.1, fun j t' hj => ?_⟩
    obtain ⟨t, ht, rfl⟩ := hback hj
    rw [abort_holds]
    exact h.2 j t ht
  | some g =>
    obtain ⟨hmax, hpos, hcons, hall⟩ := h
    refine ⟨hmax, hpos, ?_, fun j t' hj => ?_⟩
    · rw [countVal_mapVal fun _ t => abort_holds t]
      exact hcons
    · obtain ⟨t, ht, rfl⟩ := hback hj
      rw [abort_holds, abort_alive]
      exact hall j t ht

/-! ### What every step keeps -/

/-- The streams that are accepted or not: each is in one place. -/
def State.places (s : State) : List ℕ :=
  s.pending ++ (s.loop.inHand.toList ++ (s.given.toList ++ s.spawned))

/-- What is so where the accept loop is. -/
def AtLoop (s : State) : Loop → Prop
  | .accepting => s.given = none ∧ ∀ r, s.hb ≠ .taken r
  | .waiting .. => s.given = none ∧ (∀ r, s.hb ≠ .taken r) ∧ s.gate.isSome = true
  | .left => True
  | .returned => (∀ failures, s.hb ≠ .running failures) ∧
    ∀ i t, s.streams.lookup i = some t → t.isRunning = false
  | .panicked => False

structure Sound (max : UInt32) (s : State) : Prop where
  gated : Gated max s.gate s.streams
  places : s.places.Perm s.opened
  nodup : s.opened.Nodup
  fresh : ∀ i t, s.streams.lookup i = some t → i ∈ s.spawned
  loop : AtLoop s s.loop

theorem sound_init (max : UInt32) (now : ℕ) : Sound max (init max now) where
  gated := gated_new max
  places := List.Perm.refl _
  nodup := List.nodup_nil
  fresh i t hi := by cases hi
  loop := by
    refine ⟨rfl, fun r h => ?_⟩
    cases h

/-- Where the loop waits for anything, it has given no stream up and not looked at the heartbeats. -/
theorem Sound.of_live {s : State} (h : Sound max s) (hl : s.loop.live = true) :
    s.given = none ∧ ∀ r, s.hb ≠ .taken r := by
  have hloop := h.loop
  cases hs : s.loop with
  | accepting =>
    rw [hs] at hloop
    exact hloop
  | waiting i started =>
    rw [hs] at hloop
    exact ⟨hloop.1, hloop.2.1⟩
  | left => rw [hs] at hl; cases hl
  | returned => rw [hs] at hl; cases hl
  | panicked => rw [hs] at hl; cases hl

theorem live_iff {loop : Loop} : loop.live = true ↔ loop = .accepting ∨ ∃ i started, loop = .waiting i started := by
  cases loop <;> simp [Loop.live]

/-- A stream that a task has been given is nowhere else. -/
theorem Sound.notMem_spawned {s : State} (h : Sound max s) (hi : i ∈ s.pending ∨ i ∈ s.loop.inHand) :
    i ∉ s.spawned := by
  have hnodup : s.places.Nodup := h.places.nodup_iff.mpr h.nodup
  unfold State.places at hnodup
  intro hs
  rcases hi with hi | hi
  · exact (List.disjoint_of_nodup_append hnodup) hi (by simp [hs])
  · have hrest := (List.nodup_append.mp hnodup).2.1
    exact (List.disjoint_of_nodup_append hrest) (Option.mem_toList.mpr hi) (by simp [hs])

theorem Sound.lookup_none {s : State} (h : Sound max s) (hi : i ∈ s.pending ∨ i ∈ s.loop.inHand) :
    s.streams.lookup i = none := by
  cases ht : s.streams.lookup i with
  | none => rfl
  | some t => exact absurd (h.fresh i t ht) (h.notMem_spawned hi)

theorem fresh_insert {spawned : List ℕ} (h : ∀ i t, streams.lookup i = some t → i ∈ spawned) (i : ℕ)
    (t : Task) : ∀ j t', (streams.insert i t).lookup j = some t' → j ∈ spawned ++ [i] := by
  intro j t' hj
  rw [lookup_insert] at hj
  split_ifs at hj with hji
  · simp [hji]
  · exact List.mem_append_left _ (h j t' hj)

theorem afterBeat_ne_taken (failures : ℕ) (ok : Bool) (r : Joined) :
    Heartbeat.afterBeat failures ok ≠ .taken r := by
  unfold Heartbeat.afterBeat
  split <;> simp

theorem perm_concat_snoc (pending : List ℕ) {rest opened : List ℕ} (i : ℕ)
    (h : (pending ++ rest).Perm opened) : ((pending ++ [i]) ++ rest).Perm (opened ++ [i]) := by
  rw [List.append_assoc]
  calc List.Perm (pending ++ i :: rest) (i :: (pending ++ rest)) := List.perm_middle
      List.Perm _ (i :: opened) := h.cons i
      List.Perm _ (opened ++ [i]) := (List.perm_append_singleton _ _).symm

theorem perm_erase_cons {pending rest opened : List ℕ} (h : (pending ++ rest).Perm opened)
    (hi : i ∈ pending) : (pending.erase i ++ i :: rest).Perm opened := by
  calc List.Perm (pending.erase i ++ i :: rest) (i :: pending.erase i ++ rest) := List.perm_middle
      List.Perm _ (pending ++ rest) := (List.perm_cons_erase hi).symm.append_right rest
      List.Perm _ opened := h

theorem perm_snoc {pending spawned opened : List ℕ} (h : (pending ++ i :: spawned).Perm opened) :
    (pending ++ (spawned ++ [i])).Perm opened :=
  ((List.perm_append_singleton i spawned).append_left pending).trans h

theorem atLoop_hb {s : State} {failures : ℕ} {hb : Heartbeat} (h : AtLoop s s.loop)
    (hh : s.hb = .running failures) (hhb : ∀ r, hb ≠ .taken r) : AtLoop { s with hb := hb } s.loop := by
  cases hs : s.loop with
  | accepting => rw [hs] at h; exact ⟨h.1, hhb⟩
  | waiting i started => rw [hs] at h; exact ⟨h.1, hhb, h.2.2⟩
  | left => trivial
  | returned => rw [hs] at h; exact absurd hh (h.1 failures)
  | panicked => rw [hs] at h; exact h

theorem atLoop_streams {s : State} {gate : Option ConcurrencyGate} (h : AtLoop s s.loop)
    (hgate : gate.isSome = s.gate.isSome)
    (hstreams : ∀ j t, streams.lookup j = some t → t.isRunning = true → s.streams.lookup j = some t) :
    AtLoop { s with gate := gate, streams := streams } s.loop := by
  cases hs : s.loop with
  | accepting => rw [hs] at h; exact h
  | waiting i started => rw [hs] at h; exact ⟨h.1, h.2.1, hgate.trans h.2.2⟩
  | left => trivial
  | returned =>
    rw [hs] at h
    refine ⟨h.1, fun j t hj => ?_⟩
    by_contra hrun
    rw [Bool.not_eq_false] at hrun
    rw [h.2 j t (hstreams j t hj hrun)] at hrun
    cases hrun
  | panicked => rw [hs] at h; exact h

theorem isSome_release (gate : Option ConcurrencyGate) (permit : Bool) :
    (if permit then gate.map ConcurrencyGate.release else gate).isSome = gate.isSome := by
  cases permit <;> simp

theorem sound_step {s s' : State} {l : Label} (h : Sound max s) (hstep : step s l = some s') :
    Sound max s' := by
  cases step_cases hstep with
  | tick d => exact { h with }
  | @opens i hi =>
    refine { h with places := perm_concat_snoc s.pending i h.places, nodup := ?_ }
    exact List.nodup_append.mpr ⟨h.nodup, List.nodup_singleton i, by
      intro a ha b hb
      rw [List.mem_singleton.mp hb]
      exact fun he => hi (he ▸ ha)⟩
  | beat hh => exact { h with loop := atLoop_hb h.loop hh (afterBeat_ne_taken _ _) }
  | hbPanic hh => exact { h with loop := atLoop_hb h.loop hh (by simp) }
  | heartbeatDown hl hh =>
    refine { h with places := ?_, loop := trivial }
    have hp := h.places
    unfold State.places at hp ⊢
    rw [(h.of_live hl).1] at hp ⊢
    simpa [Loop.inHand] using hp
  | polledAgain hl hh => exact absurd hh ((h.of_live hl).2 _)
  | joinNext hl hi =>
    exact { h with
      gated := gated_erase h.gated hi rfl
      fresh := fun j t hj => h.fresh j t (lookup_of_erase hj)
      loop := atLoop_streams (s := s) h.loop rfl fun j t hj _ => lookup_of_erase hj }
  | @acceptFree i hl hi hg =>
    have hlive := h.of_live (by rw [hl]; rfl)
    refine ⟨?_, ?_, h.nodup, fresh_insert h.fresh i _, hlive⟩
    · have hgated := h.gated
      rw [hg] at hgated
      show Gated max s.gate _
      rw [hg]
      exact gated_spawn_free hgated i
    · have hp := h.places
      unfold State.places at hp ⊢
      rw [hl, hlive.1] at hp
      show (s.pending.erase i ++ ([] ++ (s.given.toList ++ (s.spawned ++ [i])))).Perm s.opened
      rw [hlive.1]
      exact perm_snoc (perm_erase_cons hp hi)
  | @acceptGated i g hl hi hg =>
    have hlive := h.of_live (by rw [hl]; rfl)
    refine { h with places := ?_, loop := ⟨hlive.1, hlive.2, by simp [hg]⟩ }
    have hp := h.places
    unfold State.places at hp ⊢
    rw [hl] at hp
    exact perm_erase_cons hp hi
  | acceptEnds hl => exact { h with places := by simpa [State.places, Loop.inHand, hl] using h.places, loop := trivial }
  | @permit i started g g' warns hl hg ha =>
    have hlive := h.of_live (by rw [hl]; rfl)
    have hgated := h.gated
    rw [hg] at hgated
    obtain ⟨hsem, hmax⟩ := acquire_eq_some ha
    have hnone := h.lookup_none (i := i) (Or.inr (by rw [hl]; rfl))
    refine ⟨gated_spawn hgated hnone hsem hmax, ?_, h.nodup, fresh_insert h.fresh i _, hlive⟩
    have hp := h.places
    unfold State.places at hp
    rw [hl, hlive.1] at hp
    show (s.pending ++ ([] ++ (s.given.toList ++ (s.spawned ++ [i])))).Perm s.opened
    rw [hlive.1]
    exact perm_snoc hp
  | @finish i permit hi =>
    rw [giveBack_eq]
    refine { h with
      gated := gated_finish h.gated hi rfl
      fresh := ?_
      loop := atLoop_streams (s := s) h.loop (isSome_release _ _) ?_ }
    · intro j t hj
      rw [lookup_insert] at hj
      split_ifs at hj with hji
      · exact hji ▸ h.fresh i _ hi
      · exact h.fresh j t hj
    · intro j t hj hrun
      rw [lookup_insert] at hj
      split_ifs at hj with hji
      · cases hj
        cases hrun
      · exact hj
  | teardown hl =>
    refine { h with gated := gated_abort h.gated, places := ?_, fresh := ?_, loop := ⟨?_, ?_⟩ }
    · simpa [State.places, Loop.inHand, hl] using h.places
    · intro j t hj
      rw [lookup_mapVal] at hj
      obtain ⟨t0, ht0, -⟩ := Option.map_eq_some_iff.mp hj
      exact h.fresh j t0 ht0
    · intro failures
      show s.hb.abort ≠ .running failures
      cases s.hb <;> simp [Heartbeat.abort]
    · intro j t hj
      rw [lookup_mapVal] at hj
      obtain ⟨t0, -, rfl⟩ := Option.map_eq_some_iff.mp hj
      cases t0 <;> rfl
  | @dropped i permit hi =>
    rw [giveBack_eq]
    exact { h with
      gated := gated_erase h.gated hi rfl
      fresh := fun j t hj => h.fresh j t (lookup_of_erase hj)
      loop := atLoop_streams (s := s) h.loop (isSome_release _ _) fun j t hj _ => lookup_of_erase hj }

theorem sound_run {maxConcurrency : UInt32} {now : ℕ} {s : State}
    (h : Reaches step (init maxConcurrency now) s) : Sound maxConcurrency s :=
  run_invariant (fun _ _ _ => sound_step) (sound_init maxConcurrency now) h

/-! ### The streams at one time -/

theorem acquire_isSome (g : ConcurrencyGate) (started now : ℕ) :
    (g.acquire started now).isSome = g.sem.tryAcquire.isSome := by
  unfold ConcurrencyGate.acquire
  rw [Option.isSome_map]

theorem permit_isSome {s : State} {started : ℕ} {g : ConcurrencyGate} (hl : s.loop = .waiting i started)
    (hg : s.gate = some g) : (step s .permit).isSome = g.sem.tryAcquire.isSome := by
  unfold step
  rw [hl, hg]
  show (Option.map _ _).isSome = _
  rw [Option.isSome_map, acquire_isSome]

theorem alive_eq_holds {g : ConcurrencyGate} (h : Gated max (some g) streams) :
    countVal Task.alive streams = countVal Task.holds streams :=
  countVal_congr fun i t hi => (h.2.2.2 i t hi).symm

/-- **The gate.** With a maximum there are never more streams being handled than it says, each of them has a
permit and every other permit is free, in whatever way the streams end; and the loop holds an accepted stream
back only while the maximum is reached. Without one there is no gate, and the loop waits for nothing. -/
theorem streams_within_gate (maxConcurrency : UInt32) (now : ℕ) (s : State)
    (h : Reaches step (init maxConcurrency now) s) :
    (0 < maxConcurrency → countVal Task.alive s.streams ≤ maxConcurrency.toNat ∧
      (∃ g, s.gate = some g ∧
        g.sem.permits + countVal Task.alive s.streams = maxConcurrency.toNat) ∧
      ∀ i started, s.loop = .waiting i started →
        ((step s .permit).isSome = true ↔ countVal Task.alive s.streams < maxConcurrency.toNat)) ∧
    (maxConcurrency = 0 → s.gate = none ∧ ∀ i started, s.loop ≠ .waiting i started) := by
  have hsound := sound_run h
  have hgated := hsound.gated
  cases hg : s.gate with
  | none =>
    rw [hg] at hgated
    constructor
    · intro hpos
      rw [hgated.1] at hpos
      exact absurd hpos (by decide)
    · refine fun _ => ⟨rfl, fun i started hw => ?_⟩
      have hloop := hsound.loop
      rw [hw] at hloop
      have hsome : s.gate.isSome = true := hloop.2.2
      rw [hg] at hsome
      cases hsome
  | some g =>
    rw [hg] at hgated
    have hcons := hgated.2.2.1
    rw [← alive_eq_holds hgated] at hcons
    constructor
    · refine fun _ => ⟨hcons.held_le, ⟨g, rfl, hcons⟩, fun i started hw => ?_⟩
      rw [permit_isSome hw hg]
      exact hcons.tryAcquire_isSome
    · intro hzero
      have hpos := hgated.2.1
      rw [hzero] at hpos
      exact absurd hpos (by decide)

/-- A maximum of one: the second stream waits until the first has been handled. -/
theorem streams_within_gate_one : ∃ s, run step (init 1 0)
      [.opens 0, .opens 4, .accept 0, .permit, .accept 4] = some s ∧ s.loop = .waiting 4 0 ∧
    ((step s .permit).isSome = true ↔ countVal Task.alive s.streams < 1) := by
  obtain ⟨s, hs, hl⟩ := exists_run step (init 1 0) [.opens 0, .opens 4, .accept 0, .permit, .accept 4]
    (fun s => s.loop = .waiting 4 0) (by decide)
  exact ⟨s, hs, hl, ((streams_within_gate 1 0 s ⟨_, hs⟩).1 (by decide)).2.2 4 0 hl⟩

/-! ### The end of a connection -/

/-- The loop has been left, or `connect_once` has returned. -/
def Loop.over : Loop → Bool
  | .left => true
  | .returned => true
  | _ => false

/-- Once the loop is left no stream is handed to a task. -/
theorem over_step {s s' : State} {l : Label} (h : s.loop.over = true) (hstep : step s l = some s') :
    s'.loop.over = true ∧ s'.spawned = s.spawned ∧ (s.loop = .returned → s'.loop = .returned) := by
  cases step_cases hstep with
  | tick d => exact ⟨h, rfl, id⟩
  | opens hi => exact ⟨h, rfl, id⟩
  | beat hh => exact ⟨h, rfl, id⟩
  | hbPanic hh => exact ⟨h, rfl, id⟩
  | heartbeatDown hl hh =>
    refine ⟨rfl, rfl, fun hr => ?_⟩
    rw [hr] at hl
    cases hl
  | polledAgain hl hh =>
    cases hs : s.loop <;> simp [hs, Loop.over, Loop.live] at h hl
  | joinNext hl hi => exact ⟨h, rfl, id⟩
  | acceptFree hl hi hg =>
    rw [show s.loop = .accepting from hl] at h
    cases h
  | acceptGated hl hi hg =>
    rw [hl] at h
    cases h
  | acceptEnds hl =>
    rw [hl] at h
    cases h
  | permit hl hg ha =>
    rw [show s.loop = .waiting _ _ from hl] at h
    cases h
  | finish hi =>
    rw [giveBack_eq]
    exact ⟨h, rfl, id⟩
  | teardown hl => exact ⟨rfl, rfl, fun _ => rfl⟩
  | dropped hi =>
    rw [giveBack_eq]
    exact ⟨h, rfl, id⟩

theorem over_run {s s' : State} (h : s.loop.over = true) (hr : Reaches step s s') :
    s'.loop.over = true ∧ s'.spawned = s.spawned ∧ (s.loop = .returned → s'.loop = .returned) := by
  refine run_invariant (I := fun s' => s'.loop.over = true ∧ s'.spawned = s.spawned ∧
    (s.loop = .returned → s'.loop = .returned)) ?_ ⟨h, rfl, id⟩ hr
  rintro s1 l s2 ⟨h1, hspawned, hret⟩ hstep
  obtain ⟨h2, hspawned2, hret2⟩ := over_step h1 hstep
  exact ⟨h2, hspawned2.trans hspawned, fun hs => hret2 (hret hs)⟩

/-- **Every stream in one place.** A stream the gateway has opened waits to be accepted, is in the hand of the
loop, was given up with the connection, or has been handed to a task: in one of these places and once, so no
stream is lost and none is handled twice. After the loop is left none is handed to a task any more. -/
theorem streams_handled_once (maxConcurrency : UInt32) (now : ℕ) (s : State)
    (h : Reaches step (init maxConcurrency now) s) :
    (s.pending ++ (s.loop.inHand.toList ++ (s.given.toList ++ s.spawned))).Perm s.opened ∧
    s.opened.Nodup ∧ (∀ i t, s.streams.lookup i = some t → i ∈ s.spawned) ∧
    (s.loop.over = true → ∀ s', Reaches step s s' → s'.loop.over = true ∧ s'.spawned = s.spawned) := by
  have hsound := sound_run h
  refine ⟨hsound.places, hsound.nodup, hsound.fresh, fun hover s' hs' => ?_⟩
  obtain ⟨hover', hspawned, -⟩ := over_run hover hs'
  exact ⟨hover', hspawned⟩

theorem streams_handled_once_two : ∃ s, run step (init 0 0)
      [.opens 0, .opens 4, .accept 4, .acceptEnds] = some s ∧ s.opened = [0, 4] ∧
    (s.pending ++ (s.loop.inHand.toList ++ (s.given.toList ++ s.spawned))).Perm s.opened := by
  obtain ⟨s, hs, ho⟩ := exists_run step (init 0 0) [.opens 0, .opens 4, .accept 4, .acceptEnds]
    (fun s => s.opened = [0, 4]) (by decide)
  exact ⟨s, hs, ho, (streams_handled_once 0 0 s ⟨_, hs⟩).1⟩

/-- **The end of the heartbeats ends the connection.** Wherever the loop waits, at the accept or for a permit
that nobody gives back, it can leave as soon as the heartbeat task has ended, in whatever way; and the task's
handle is never polled after it has given its result. What follows takes the connection down for good: no
heartbeat is sent any more, and every task that is still there has been told to stop and can be dropped. -/
theorem heartbeat_end_ends_connection (maxConcurrency : UInt32) (now : ℕ) (s : State)
    (h : Reaches step (init maxConcurrency now) s) :
    s.loop ≠ .panicked ∧
    (∀ r, s.hb = .ended r → s.loop.live = true →
      ∃ s', step s .heartbeatDown = some s' ∧ s'.loop = .left ∧ s'.streams = s.streams) ∧
    (s.loop = .left → ∃ s', step s .teardown = some s' ∧ ∀ s'', Reaches step s' s'' →
      s''.loop = .returned ∧ (∀ failures, s''.hb ≠ .running failures) ∧
      ∀ i t, s''.streams.lookup i = some t → t.alive = true → (step s'' (.dropped i)).isSome = true) := by
  have hsound := sound_run h
  refine ⟨fun hp => ?_, fun r hh hl => ?_, fun hl => ?_⟩
  · have hloop := hsound.loop
    rw [hp] at hloop
    exact hloop
  · rcases live_iff.mp hl with hs | ⟨i, started, hs⟩
    · exact ⟨{ s with hb := .taken r, loop := .left }, by simp [step, hs, hh], rfl, rfl⟩
    · exact ⟨{ s with hb := .taken r, loop := .left, given := some i }, by simp [step, hs, hh], rfl, rfl⟩
  · have hstep : step s .teardown = some { s with
        hb := s.hb.abort, loop := .returned, streams := mapVal (fun _ t => t.abort) s.streams } := by
      unfold step
      rw [hl]
    refine ⟨_, hstep, fun s'' hs'' => ?_⟩
    obtain ⟨-, -, hret⟩ := over_run rfl hs''
    have hloop := (run_invariant (fun _ _ _ => sound_step) (sound_step hsound hstep) hs'').loop
    rw [hret rfl] at hloop
    refine ⟨hret rfl, hloop.1, fun i t hi halive => ?_⟩
    have hrun := hloop.2 i t hi
    cases t with
    | running permit => cases hrun
    | finished => cases halive
    | aborted permit => simp [step, hi]

/-- The first stream is being handled and the second one waits when the heartbeats have failed twice. -/
theorem heartbeat_end_ends_connection_waiting : ∃ s, run step (init 1 0)
      [.opens 0, .opens 4, .accept 0, .permit, .accept 4, .beat false, .beat false] = some s ∧
    ∃ s', step s .heartbeatDown = some s' ∧ s'.loop = .left ∧ s'.streams = s.streams := by
  obtain ⟨s, hs, hh, hl⟩ := exists_run step (init 1 0)
    [.opens 0, .opens 4, .accept 0, .permit, .accept 4, .beat false, .beat false]
    (fun s => s.hb = .ended .failed ∧ s.loop.live = true) (by decide)
  exact ⟨s, hs, (heartbeat_end_ends_connection 1 0 s ⟨_, hs⟩).2.1 .failed hh hl⟩

/-! ### The warnings of the gate -/

/-- A wait that is noted: long enough. -/
def overdue (w : ℕ × ℕ) : Bool := slotWaitLogAfter ≤ w.2

/-- The notes of the gate beside the waits and the warnings. -/
structure Noted (s : State) : Prop where
  spaced : s.warned.Pairwise fun a b => a + slotLogInterval ≤ b
  past : ∀ t ∈ s.warned, t ≤ s.now
  covered : ∀ w ∈ s.waits, overdue w = true → ∃ t ∈ s.warned, t ≤ w.1 ∧ w.1 < t + slotLogInterval
  caused : ∀ t ∈ s.warned, ∃ w ∈ s.waits, overdue w = true ∧ w.1 = t
  queued : ∀ g, s.gate = some g → g.queued = s.waits.countP overdue
  lastLog : ∀ g, s.gate = some g → g.lastLog = s.warned.getLast?

theorem noted_init (max : UInt32) (now : ℕ) : Noted (init max now) where
  spaced := List.Pairwise.nil
  past t ht := by cases ht
  covered w hw := by cases hw
  caused t ht := by cases ht
  queued g hg := by
    unfold init ConcurrencyGate.new at hg
    simp only at hg
    split_ifs at hg
    cases hg
    rfl
  lastLog g hg := by
    unfold init ConcurrencyGate.new at hg
    simp only at hg
    split_ifs at hg
    cases hg
    rfl

theorem le_getLast {l : List ℕ} {d t last : ℕ} (h : l.Pairwise fun a b => a + d ≤ b)
    (hlast : l.getLast? = some last) (ht : t ∈ l) : t ≤ last := by
  obtain ⟨front, rfl⟩ := List.getLast?_eq_some_iff.mp hlast
  rcases List.mem_append.mp ht with hf | hl
  · have hle := (List.pairwise_append.mp h).2.2 t hf last (by simp)
    omega
  · rw [List.mem_singleton.mp hl]

/-- What `acquire` notes: nothing of a short wait, else one more in the count, and a warning unless there was
one within the interval. -/
theorem acquire_notes {g g' : ConcurrencyGate} {started now : ℕ} {warns : Bool}
    (h : g.acquire started now = some (g', warns)) :
    (overdue (now, now - started) = false ∧ warns = false ∧ g'.queued = g.queued ∧ g'.lastLog = g.lastLog) ∨
    (overdue (now, now - started) = true ∧ g'.queued = g.queued + 1 ∧
      ((warns = true ∧ g'.lastLog = some now ∧ ∀ t, g.lastLog = some t → slotLogInterval ≤ now - t) ∨
       (warns = false ∧ g'.lastLog = g.lastLog ∧ ∃ t, g.lastLog = some t ∧ now - t < slotLogInterval))) := by
  obtain ⟨sem, -, hnoted⟩ := Option.map_eq_some_iff.mp h
  unfold ConcurrencyGate.noted at hnoted
  unfold overdue
  split_ifs at hnoted with hwait hlog
  · cases hnoted
    refine Or.inr ⟨decide_eq_true hwait, rfl, Or.inl ⟨rfl, rfl, fun t ht => ?_⟩⟩
    rw [show g.lastLog = some t from ht] at hlog
    simpa using hlog
  · cases hnoted
    refine Or.inr ⟨decide_eq_true hwait, rfl, Or.inr ⟨rfl, rfl, ?_⟩⟩
    cases ht : g.lastLog with
    | none => simp [ht] at hlog
    | some t =>
      simp only [ht, Option.all_some, decide_eq_true_eq, not_le] at hlog
      exact ⟨t, rfl, hlog⟩
  · cases hnoted
    exact Or.inl ⟨decide_eq_false hwait, rfl, rfl, rfl⟩

theorem queued_concat {ws : List (ℕ × ℕ)} {w : ℕ × ℕ} {n n' : ℕ} (h : n = ws.countP overdue)
    (hn : n' = n + (overdue w).toNat) : n' = (ws ++ [w]).countP overdue := by
  rw [hn, h, List.countP_append, List.countP_singleton]
  cases overdue w <;> rfl

theorem noted_short {s : State} {g g' : ConcurrencyGate} {w : ℕ × ℕ} (h : Noted s) (hg : s.gate = some g)
    (hw : overdue w = false) (hq : g'.queued = g.queued) (hl : g'.lastLog = g.lastLog) :
    Noted { s with gate := some g', waits := s.waits ++ [w] } where
  spaced := h.spaced
  past := h.past
  covered w' hw' hover := by
    rcases List.mem_append.mp hw' with hold | hnew
    · exact h.covered w' hold hover
    · rw [List.mem_singleton.mp hnew, hw] at hover
      cases hover
  caused t ht := by
    obtain ⟨w', hw', hover⟩ := h.caused t ht
    exact ⟨w', List.mem_append_left _ hw', hover⟩
  queued := by
    rintro _ ⟨⟩
    exact queued_concat (h.queued g hg) (by rw [hq, hw]; rfl)
  lastLog := by
    rintro _ ⟨⟩
    exact hl.trans (h.lastLog g hg)

theorem noted_throttled {s : State} {g g' : ConcurrencyGate} {w : ℕ × ℕ} {last : ℕ} (h : Noted s)
    (hg : s.gate = some g) (hw : overdue w = true) (hnow : w.1 = s.now) (hq : g'.queued = g.queued + 1)
    (hl : g'.lastLog = g.lastLog) (hlast : g.lastLog = some last) (hgap : s.now - last < slotLogInterval) :
    Noted { s with gate := some g', waits := s.waits ++ [w] } where
  spaced := h.spaced
  past := h.past
  covered w' hw' hover := by
    rcases List.mem_append.mp hw' with hold | hnew
    · exact h.covered w' hold hover
    · have hmem : last ∈ s.warned := List.mem_of_getLast? ((h.lastLog g hg).symm.trans hlast)
      have hpast := h.past last hmem
      rw [List.mem_singleton.mp hnew, hnow]
      exact ⟨last, hmem, hpast, by omega⟩
  caused t ht := by
    obtain ⟨w', hw', hover⟩ := h.caused t ht
    exact ⟨w', List.mem_append_left _ hw', hover⟩
  queued := by
    rintro _ ⟨⟩
    exact queued_concat (h.queued g hg) (by rw [hq, hw]; rfl)
  lastLog := by
    rintro _ ⟨⟩
    exact hl.trans (h.lastLog g hg)

theorem noted_warned {s : State} {g g' : ConcurrencyGate} {w : ℕ × ℕ} (h : Noted s) (hg : s.gate = some g)
    (hw : overdue w = true) (hnow : w.1 = s.now) (hq : g'.queued = g.queued + 1)
    (hl : g'.lastLog = some s.now) (hgap : ∀ t, g.lastLog = some t → slotLogInterval ≤ s.now - t) :
    Noted { s with gate := some g', waits := s.waits ++ [w], warned := s.warned ++ [s.now] } where
  spaced := by
    refine List.pairwise_append.mpr ⟨h.spaced, List.pairwise_singleton _ _, fun t ht b hb => ?_⟩
    rw [List.mem_singleton.mp hb]
    cases hlast : s.warned.getLast? with
    | none =>
      rw [List.getLast?_eq_none_iff.mp hlast] at ht
      cases ht
    | some last =>
      have hle := le_getLast h.spaced hlast ht
      have hgap' := hgap last ((h.lastLog g hg).trans hlast)
      have hpast := h.past last (List.mem_of_getLast? hlast)
      have hpos : 0 < slotLogInterval := by decide
      omega
  past t ht := by
    rcases List.mem_append.mp ht with hold | hnew
    · exact h.past t hold
    · rw [List.mem_singleton.mp hnew]
  covered w' hw' hover := by
    rcases List.mem_append.mp hw' with hold | hnew
    · obtain ⟨t, ht, hle, hlt⟩ := h.covered w' hold hover
      exact ⟨t, List.mem_append_left _ ht, hle, hlt⟩
    · rw [List.mem_singleton.mp hnew, hnow]
      exact ⟨s.now, by simp, le_refl _, by simp [slotLogInterval, fromSecs]⟩
  caused t ht := by
    rcases List.mem_append.mp ht with hold | hnew
    · obtain ⟨w', hw', hover⟩ := h.caused t hold
      exact ⟨w', List.mem_append_left _ hw', hover⟩
    · rw [List.mem_singleton.mp hnew]
      exact ⟨w, by simp, hw, hnow⟩
  queued := by
    rintro _ ⟨⟩
    exact queued_concat (h.queued g hg) (by rw [hq, hw]; rfl)
  lastLog := by
    rintro _ ⟨⟩
    simpa using hl

theorem Noted.spawn {s : State} (h : Noted s) (i : ℕ) (permit : Bool) : Noted (s.spawn i permit) :=
  { h with }

theorem Noted.of_streams {s : State} (h : Noted s) (streams : HashMap ℕ Task) :
    Noted { s with streams := streams } :=
  { h with }

theorem Noted.of_release {s : State} {gate : Option ConcurrencyGate} (h : Noted s)
    (hgate : ∀ g', gate = some g' → ∃ g, s.gate = some g ∧ g'.queued = g.queued ∧ g'.lastLog = g.lastLog) :
    Noted { s with gate := gate } :=
  { h with
    queued := fun g' hg' => by
      obtain ⟨g, hg, hq, -⟩ := hgate g' hg'
      exact hq.trans (h.queued g hg)
    lastLog := fun g' hg' => by
      obtain ⟨g, hg, -, hl⟩ := hgate g' hg'
      exact hl.trans (h.lastLog g hg) }

theorem Noted.giveBack {s : State} (h : Noted s) (permit : Bool) : Noted (s.giveBack permit) := by
  cases permit with
  | false => exact h
  | true =>
    refine h.of_release fun g' hg' => ?_
    obtain ⟨g, hg, rfl⟩ := Option.map_eq_some_iff.mp hg'
    exact ⟨g, hg, rfl, rfl⟩

theorem noted_step {s s' : State} {l : Label} (h : Noted s) (hstep : step s l = some s') : Noted s' := by
  cases step_cases hstep with
  | tick d => exact { h with past := fun t ht => Nat.le_add_right_of_le (h.past t ht) }
  | opens hi => exact { h with }
  | beat hh => exact { h with }
  | hbPanic hh => exact { h with }
  | heartbeatDown hl hh => exact { h with }
  | polledAgain hl hh => exact { h with }
  | joinNext hl hi => exact { h with }
  | acceptFree hl hi hg => exact { h with }
  | acceptGated hl hi hg => exact { h with }
  | acceptEnds hl => exact { h with }
  | @permit i started g g' warns hl hg ha =>
    refine Noted.spawn ?_ i true
    rcases acquire_notes ha with
      ⟨hshort, rfl, hq, hlast⟩ | ⟨hlong, hq, ⟨rfl, hlast, hgap⟩ | ⟨rfl, hlast, last, hsome, hgap⟩⟩
    · exact noted_short h hg hshort hq hlast
    · exact noted_warned h hg hlong rfl hq hlast hgap
    · exact noted_throttled h hg hlong rfl hq hlast hsome hgap
  | finish hi => exact (h.of_streams _).giveBack _
  | teardown hl => exact { h with }
  | dropped hi => exact (h.of_streams _).giveBack _

/-- **The warnings of the gate.** Any two of them are ten seconds apart, each is for a wait of at least a
tenth of a second, and for each such wait there was one within the ten seconds before its end, at the latest
then. The count that they show is that of all these waits. -/
theorem slot_warnings_throttled (maxConcurrency : UInt32) (now : ℕ) (s : State)
    (h : Reaches step (init maxConcurrency now) s) :
    (s.warned.Pairwise fun a b => a + slotLogInterval ≤ b) ∧
    (∀ t ∈ s.warned, ∃ w ∈ s.waits, overdue w = true ∧ w.1 = t) ∧
    (∀ w ∈ s.waits, overdue w = true → ∃ t ∈ s.warned, t ≤ w.1 ∧ w.1 < t + slotLogInterval) ∧
    ∀ g, s.gate = some g → g.queued = s.waits.countP overdue := by
  have hnoted : Noted s := run_invariant (fun _ _ _ => noted_step) (noted_init maxConcurrency now) h
  exact ⟨hnoted.spaced, hnoted.caused, hnoted.covered, hnoted.queued⟩

/-- Three waits of a tenth of a second each, the last one ten seconds after the first. -/
theorem slot_warnings_throttled_three : ∃ s, run step (init 1 0)
      [.opens 0, .accept 0, .tick (10 ^ 8), .permit, .finish 0, .opens 4, .accept 4, .tick (10 ^ 8), .permit,
       .finish 4, .opens 8, .accept 8, .tick (10 ^ 10), .permit] = some s ∧
    s.warned = [10 ^ 8, 102 * 10 ^ 8] ∧ s.warned.Pairwise fun a b => a + slotLogInterval ≤ b := by
  obtain ⟨s, hs, hw⟩ := exists_run step (init 1 0)
    [.opens 0, .accept 0, .tick (10 ^ 8), .permit, .finish 0, .opens 4, .accept 4, .tick (10 ^ 8), .permit,
     .finish 4, .opens 8, .accept 8, .tick (10 ^ 10), .permit]
    (fun s => s.warned = [10 ^ 8, 102 * 10 ^ 8]) (by decide)
  exact ⟨s, hs, hw, (slot_warnings_throttled 1 0 s ⟨_, hs⟩).1⟩

end HomeLlmGateway.Agent.Connection
