import Mathlib.Logic.Relation
import HomeLlmGateway.Storage.Revocation

/-! # The cache does not change an answer

The calls on the key store one after the other, each run to its end before the next one begins. `serve` is
what such a call does; it is what the steps of `Storage.Keys` do when no other call is under way
(`reaches_serve`). A hit of the cache is judged by the version of the record in `runtime`, which is never
used twice for one lookup, so the hash that was verified is the hash that argon2 would be asked about: with
any capacity and any time to live the answers are those without a cache, and the cache stays within its
capacity (`cache_transparent`). -/

namespace HomeLlmGateway.Storage.CacheTransparency

open HomeLlmGateway.Lib.Runs HomeLlmGateway.Lib.Assoc HomeLlmGateway.Storage.Cache
open HomeLlmGateway.Storage.Keys

/-! ### The calls, one at a time -/

/-- How long a call of `authorize_record` takes until it looks at the clock: for the first check of the
cache, for the second one, and in `put`. -/
structure Delays where
  first : ℕ
  second : ℕ
  put : ℕ

def wait (st : Store) (d : ℕ) : Store := { st with now := st.now + d }

/-- `verify_or_cached` with its slot: from the second check on. -/
def verifyInFlight (cfg : Config) (st : Store) (token : String) (delay : ℕ) : Store × Option KeyRecord :=
  match loadEnabled cfg st token with
  | none => (st, none)
  | some record =>
    if st.verified.isCached cfg.ttl st.now (cfg.lookupOf token) record.credVersion then (st, some record)
    else if cfg.verifyArgon2 token record.keyHash then
      let st := wait st delay
      ({ st with verified := st.verified.put cfg.maxEntries st.now (cfg.lookupOf token) record },
        some record)
    else (st, none)

/-- `verify_or_cached` after a miss. The slot is new and free, as no other call is under way. -/
def authorizeMiss (cfg : Config) (st : Store) (token : String) (delays : Delays) :
    Store × Option KeyRecord :=
  let (slot, verified) := st.verified.flight (cfg.lookupOf token) st.nextSlot
  let st := { st with verified := verified, nextSlot := st.nextSlot + 1 }
  let (st, result) := verifyInFlight cfg (wait st delays.second) token delays.put
  ({ st with verified := st.verified.removeIfCurrent (cfg.lookupOf token) slot }, result)

/-- `authorize_record`. -/
def authorizeRecord (cfg : Config) (st : Store) (token : String) (delays : Delays) :
    Store × Option KeyRecord :=
  match loadEnabled cfg st token with
  | none => (st, none)
  | some fresh =>
    if cfg.maxEntries = 0 then
      (st, if cfg.verifyArgon2 token fresh.keyHash then some fresh else none)
    else
      let st := wait st delays.first
      if st.verified.isCached cfg.ttl st.now (cfg.lookupOf token) fresh.credVersion then (st, some fresh)
      else authorizeMiss cfg st token delays

/-- What becomes of one attempt to insert a new key. -/
inductive Insertion where
  | inserted (id plaintext keyHash : String) (createdAt : ℕ)
  | collision
  | failed (error : String)

/-- The loop of `create_in`, with the attempts that are left. -/
def createAttempts (cfg : Config) (st : Store) (tenantId : String) (ownerUserId : Option String)
    (name : String) (draw : ℕ → Insertion) : ℕ → Store × CreatePc
  | 0 => (st, .failed "could not allocate a unique key id")
  | left + 1 =>
    match draw left with
    | .inserted id plaintext keyHash createdAt =>
      let record : KeyRecord := ⟨id, keyHash, cfg.lookupOf plaintext, name, createdAt, true,
        st.generation + 1, tenantId, ownerUserId⟩
      ({ st with generation := st.generation + 1, runtime := st.runtime.insert record.lookup record },
        .done record plaintext)
    | .collision => createAttempts cfg st tenantId ownerUserId name draw left
    | .failed e => (st, .failed e)

/-- `create_in`. -/
def createIn (cfg : Config) (st : Store) (tenantId : String) (ownerUserId : Option String)
    (name : String) (tenantEnabled : Option Bool) (userTenant : Option (Option String))
    (draw : ℕ → Insertion) : Store × CreatePc :=
  match createCheck tenantId ownerUserId tenantEnabled userTenant with
  | .ok () => createAttempts cfg st tenantId ownerUserId name draw 3
  | .error e => (st, .failed e)

/-- `delete`. -/
def delete (st : Store) (id : String) (error : Option String) : Store × DeletePc :=
  if (values st.runtime).any (·.id = id) then
    match error with
    | some e => (st, .failed e)
    | none =>
      ({ st with
          runtime := retain (fun _ r => r.id ≠ id) st.runtime
          verified := st.verified.invalidateById id
          generation := st.generation + 1 }, .done true)
  else (st, .done false)

/-- `disable_keys_for_owner`. -/
def disableKeysForOwner (st : Store) (ownerUserId : String) (error : Option String) : Store × DisablePc :=
  let ids := ((values st.runtime).filter fun r => ownedBy ownerUserId r && r.enabled).map (·.id)
  if ids = [] then (st, .done 0)
  else
    match error with
    | some e => (st, .failed e)
    | none =>
      let mark := fun (_ : String) r => if ownedBy ownerUserId r then { r with enabled := false } else r
      ({ st with
          runtime := mapVal mark st.runtime
          generation := st.generation + 1
          verified := ids.foldl (fun c id => c.invalidateById id) st.verified }, .done ids.length)

/-- A call with what the environment answers, or the passing of time. -/
inductive Op where
  | authorizeRecord (token : String) (delays : Delays)
  | createIn (tenantId : String) (ownerUserId : Option String) (name : String)
      (tenantEnabled : Option Bool) (userTenant : Option (Option String)) (draw : ℕ → Insertion)
  | delete (id : String) (error : Option String)
  | disableKeysForOwner (ownerUserId : String) (error : Option String)
  | tick (d : ℕ)

/-- The store after the call, and the call as it has returned. -/
def serve (cfg : Config) (st : Store) : Op → Store × Option Call
  | .authorizeRecord token delays =>
    let (st', result) := authorizeRecord cfg st token delays
    (st', some (.authorizeRecord token (.done result)))
  | .createIn tenantId ownerUserId name tenantEnabled userTenant draw =>
    let (st', pc) := createIn cfg st tenantId ownerUserId name tenantEnabled userTenant draw
    (st', some (.createIn tenantId ownerUserId name pc))
  | .delete id error =>
    let (st', pc) := delete st id error
    (st', some (.delete id pc))
  | .disableKeysForOwner ownerUserId error =>
    let (st', pc) := disableKeysForOwner st ownerUserId error
    (st', some (.disableKeysForOwner ownerUserId pc))
  | .tick d => (wait st d, none)

/-- A sequence of calls, with what each has returned. -/
def serveAll (cfg : Config) : Store → List Op → Store × List (Option Call)
  | st, [] => (st, [])
  | st, op :: ops =>
    let (st', reply) := serve cfg st op
    let (st'', replies) := serveAll cfg st' ops
    (st'', reply :: replies)

/-- The same store with the cache off. -/
def uncached (cfg : Config) : Config := { cfg with maxEntries := 0 }

/-! ### The steps of a call that is alone -/

variable {cfg : Config} {st st' : Store} {c c' : Call}

/-- A call goes on, or time passes. -/
def aloneStep (cfg : Config) (p q : Store × Call) : Prop :=
  (∃ a, callStep cfg p.1 a p.2 = some q) ∨ ∃ d, q = (wait p.1 d, p.2)

/-- The call gets from one point to the other while no other call moves. -/
def Alone (cfg : Config) : Store × Call → Store × Call → Prop := Relation.ReflTransGen (aloneStep cfg)

theorem Alone.step {p q w : Store × Call} (a : Answer) (h : callStep cfg p.1 a p.2 = some q)
    (hq : Alone cfg q w) : Alone cfg p w :=
  Relation.ReflTransGen.head (Or.inl ⟨a, h⟩) hq

theorem Alone.wait {p w : Store × Call} (d : ℕ) (hq : Alone cfg (CacheTransparency.wait p.1 d, p.2) w) :
    Alone cfg p w :=
  Relation.ReflTransGen.head (Or.inr ⟨d, rfl⟩) hq

theorem reaches_of_alone (calls : HashMap ℕ Call) (i : ℕ) {p q : Store × Call} (h : Alone cfg p q) :
    Reaches (step cfg) ⟨p.1, calls.insert i p.2⟩ ⟨q.1, calls.insert i q.2⟩ := by
  induction h with
  | refl => exact Reaches.refl _
  | @tail q w _ hstep ih =>
    rcases hstep with ⟨a, ha⟩ | ⟨d, rfl⟩
    · exact ih.tail (l := .step i a) (by simp [Keys.step, ha])
    · exact ih.tail (l := .tick d) rfl

/-- No slot is in use. -/
structure Idle (st : Store) : Prop where
  inflight : st.verified.inflight = ∅
  unlocked : ∀ slot, st.locked slot = false

theorem alone_verifyInFlight {slot : ℕ} (token : String) (delay : ℕ) :
    Alone cfg (st, .authorizeRecord token (.reading slot))
      ((verifyInFlight cfg st token delay).1,
        .authorizeRecord token (.cleaning slot (verifyInFlight cfg st token delay).2)) := by
  unfold verifyInFlight
  cases hload : loadEnabled cfg st token with
  | none => exact .step .silent (by simp [callStep, authorizeStep, hload]) .refl
  | some record =>
    refine .step .silent (q := (st, .authorizeRecord token (.rechecking slot record)))
      (by simp [callStep, authorizeStep, hload]) ?_
    by_cases hc : st.verified.isCached cfg.ttl st.now (cfg.lookupOf token) record.credVersion = true
    · simp only [hc, if_true]
      exact .step .silent (by simp [callStep, authorizeStep, hc]) .refl
    · refine .step .silent (q := (st, .authorizeRecord token (.probing slot record)))
        (by simp [callStep, authorizeStep, hc]) ?_
      by_cases hv : cfg.verifyArgon2 token record.keyHash = true
      · refine .step .silent (q := (st, .authorizeRecord token (.putting slot record)))
          (by simp [callStep, authorizeStep, hv]) (.wait delay ?_)
        simp only [hc, hv, if_true, if_false, Bool.false_eq_true]
        exact .step .silent (by simp [callStep, authorizeStep]) .refl
      · simp only [hc, hv, if_false, Bool.false_eq_true]
        exact .step .silent (by simp [callStep, authorizeStep, hv]) .refl

theorem verifyInFlight_frame (cfg : Config) (st : Store) (token : String) (delay : ℕ) :
    (verifyInFlight cfg st token delay).1.verified.inflight = st.verified.inflight ∧
      (verifyInFlight cfg st token delay).1.locked = st.locked := by
  unfold verifyInFlight
  split
  · exact ⟨rfl, rfl⟩
  · split_ifs <;> exact ⟨rfl, rfl⟩

theorem flight_of_idle (h : Idle st) (lookup : String) :
    st.verified.flight lookup st.nextSlot =
      (st.nextSlot, { st.verified with inflight := st.verified.inflight.insert lookup st.nextSlot }) := by
  simp [VerifiedCache.flight, h.inflight]

/-- The lock of the slot plays no part while it is held. -/
theorem verifyInFlight_locked (cfg : Config) (st : Store) (f : ℕ → Bool) (token : String) (delay : ℕ) :
    verifyInFlight cfg { st with locked := f } token delay =
      ({ (verifyInFlight cfg st token delay).1 with locked := f },
        (verifyInFlight cfg st token delay).2) := by
  have hload : loadEnabled cfg { st with locked := f } token = loadEnabled cfg st token := rfl
  unfold verifyInFlight
  rw [hload]
  cases loadEnabled cfg st token with
  | none => rfl
  | some record =>
    simp only
    split_ifs <;> rfl

theorem alone_authorizeMiss (h : Idle st) (token : String) (delays : Delays) :
    Alone cfg (st, .authorizeRecord token .taking)
      ((authorizeMiss cfg st token delays).1,
        .authorizeRecord token (.done (authorizeMiss cfg st token delays).2)) := by
  unfold authorizeMiss
  simp only [flight_of_idle h]
  generalize hst1 : ({ st with
    verified := { st.verified with
      inflight := st.verified.inflight.insert (cfg.lookupOf token) st.nextSlot }
    nextSlot := st.nextSlot + 1 } : Store) = st1
  have hunlocked : ∀ slot, st1.locked slot = false := hst1 ▸ h.unlocked
  have hcurrent : st1.verified.isCurrent (cfg.lookupOf token) st.nextSlot = true := by
    rw [← hst1]
    simp [VerifiedCache.isCurrent]
  let locked := Function.update st1.locked st.nextSlot true
  refine .step .silent (q := (st1, .authorizeRecord token (.waiting st.nextSlot)))
    (by simp [callStep, authorizeStep, flight_of_idle h, hst1]) ?_
  refine .step .silent
    (q := ({ st1 with locked := locked }, .authorizeRecord token (.confirming st.nextSlot)))
    (by simp [callStep, authorizeStep, hunlocked, locked]) ?_
  refine .step .silent
    (q := ({ st1 with locked := locked }, .authorizeRecord token (.reading st.nextSlot)))
    (by simp [callStep, authorizeStep, hcurrent]) (.wait delays.second ?_)
  refine Relation.ReflTransGen.trans (alone_verifyInFlight token delays.put) ?_
  -- the lock is taken before and given back after; in between nothing looks at it
  have hlocked := verifyInFlight_locked cfg (CacheTransparency.wait st1 delays.second) locked token
    delays.put
  have hsame : CacheTransparency.wait { st1 with locked := locked } delays.second =
      { CacheTransparency.wait st1 delays.second with locked := locked } := rfl
  rw [hsame, hlocked]
  generalize hend : verifyInFlight cfg (CacheTransparency.wait st1 delays.second) token delays.put = p
  have hrelease : Function.update locked st.nextSlot false = p.1.locked := by
    rw [← hend, (verifyInFlight_frame cfg _ token delays.put).2]
    simp only [locked, Function.update_idem]
    exact Function.update_eq_self_iff.mpr (hunlocked _).symm
  refine Alone.step .silent (q := ({ p.1 with
      locked := locked
      verified := p.1.verified.removeIfCurrent (cfg.lookupOf token) st.nextSlot },
    .authorizeRecord token (.unlocking st.nextSlot p.2))) (by simp [callStep, authorizeStep]) ?_
  exact Alone.step .silent (by simp [callStep, authorizeStep, Store.unlock, hrelease]) .refl

theorem alone_authorizeRecord (h : Idle st) (token : String) (delays : Delays) :
    Alone cfg (st, .authorizeRecord token .start)
      ((authorizeRecord cfg st token delays).1,
        .authorizeRecord token (.done (authorizeRecord cfg st token delays).2)) := by
  unfold authorizeRecord
  cases hload : loadEnabled cfg st token with
  | none => exact .step .silent (by simp [callStep, authorizeStep, hload]) .refl
  | some fresh =>
    by_cases hmax : cfg.maxEntries = 0
    · simp only [hmax, if_true]
      refine .step .silent (q := (st, .authorizeRecord token (.probingUncached fresh)))
        (by simp [callStep, authorizeStep, hload, hmax]) ?_
      exact .step .silent (by simp [callStep, authorizeStep]) .refl
    · simp only [hmax, if_false]
      refine .step .silent (q := (st, .authorizeRecord token (.checking fresh)))
        (by simp [callStep, authorizeStep, hload, hmax]) (.wait delays.first ?_)
      generalize hst : CacheTransparency.wait st delays.first = st1
      have hidle : Idle st1 := hst ▸ ⟨h.inflight, h.unlocked⟩
      by_cases hc : st1.verified.isCached cfg.ttl st1.now (cfg.lookupOf token) fresh.credVersion = true
      · simp only [hc, if_true]
        exact .step .silent (by simp [callStep, authorizeStep, hc]) .refl
      · simp only [hc, if_false, Bool.false_eq_true]
        exact .step .silent (q := (st1, .authorizeRecord token .taking))
          (by simp [callStep, authorizeStep, hc]) (alone_authorizeMiss hidle token delays)

/-! ### The other calls -/

theorem alone_inserted {tenantId name id plaintext keyHash : String} {ownerUserId : Option String}
    {attempt createdAt : ℕ} {record : KeyRecord} (hrecord : record = ⟨id, keyHash, cfg.lookupOf plaintext,
      name, createdAt, true, st.generation + 1, tenantId, ownerUserId⟩) :
    Alone cfg (st, .createIn tenantId ownerUserId name (.inserting attempt))
      ({ st with generation := st.generation + 1, runtime := st.runtime.insert record.lookup record },
        .createIn tenantId ownerUserId name (.done record plaintext)) := by
  subst hrecord
  refine .step (.inserted id plaintext keyHash createdAt) (by simp [callStep, createStep]; rfl) ?_
  refine .step .silent (by simp [callStep, createStep]; rfl) ?_
  exact .step .silent (by simp [callStep, createStep]) .refl

theorem alone_createAttempts {tenantId name : String} {ownerUserId : Option String}
    {draw : ℕ → Insertion} (left : ℕ) (hleft : left < 3) :
    Alone cfg (st, .createIn tenantId ownerUserId name (.inserting (2 - left)))
      ((createAttempts cfg st tenantId ownerUserId name draw (left + 1)).1,
        .createIn tenantId ownerUserId name
          (createAttempts cfg st tenantId ownerUserId name draw (left + 1)).2) := by
  induction left with
  | zero =>
    unfold createAttempts
    cases draw 0 with
    | inserted id plaintext keyHash createdAt => exact alone_inserted rfl
    | collision => exact .step .collision (by simp [callStep, createStep, createAttempts]) .refl
    | failed e => exact .step (.database (some e)) (by simp [callStep, createStep]) .refl
  | succ left ih =>
    unfold createAttempts
    cases draw (left + 1) with
    | inserted id plaintext keyHash createdAt => exact alone_inserted rfl
    | collision =>
      have hnext : 2 - (left + 1) + 1 = 2 - left := by omega
      have hmore : 2 - left < 3 := by omega
      refine .step .collision
        (q := (st, .createIn tenantId ownerUserId name (.inserting (2 - left)))) ?_ (ih (by omega))
      simp only [callStep, createStep, hnext, hmore, if_true, Option.map_some]
    | failed e => exact .step (.database (some e)) (by simp [callStep, createStep]) .refl

theorem alone_createIn (tenantId : String) (ownerUserId : Option String) (name : String)
    (tenantEnabled : Option Bool) (userTenant : Option (Option String)) (draw : ℕ → Insertion) :
    Alone cfg (st, .createIn tenantId ownerUserId name .start)
      ((createIn cfg st tenantId ownerUserId name tenantEnabled userTenant draw).1,
        .createIn tenantId ownerUserId name
          (createIn cfg st tenantId ownerUserId name tenantEnabled userTenant draw).2) := by
  unfold createIn
  cases hcheck : createCheck tenantId ownerUserId tenantEnabled userTenant with
  | ok u =>
    exact .step (.tables tenantEnabled userTenant)
      (q := (st, .createIn tenantId ownerUserId name (.inserting 0)))
      (by simp [callStep, createStep, hcheck]) (alone_createAttempts 2 (by omega))
  | error e =>
    exact .step (.tables tenantEnabled userTenant) (by simp [callStep, createStep, hcheck]) .refl

theorem alone_delete (id : String) (error : Option String) :
    Alone cfg (st, .delete id .start) ((delete st id error).1, .delete id (delete st id error).2) := by
  unfold delete
  by_cases hany : (values st.runtime).any (·.id = id) = true
  · simp only [hany, if_true]
    refine .step .silent (q := (st, .delete id .deletingRow)) (by simp [callStep, deleteStep, hany]) ?_
    cases error with
    | some e => exact .step (.database (some e)) (by simp [callStep, deleteStep]) .refl
    | none =>
      refine .step (.database none) (q := (st, .delete id .retaining))
        (by simp [callStep, deleteStep]) ?_
      refine .step .silent (by simp [callStep, deleteStep, hany]; rfl) ?_
      refine .step .silent (by simp [callStep, deleteStep]; rfl) ?_
      exact .step .silent (by simp [callStep, deleteStep]) .refl
  · simp only [hany, if_false, Bool.false_eq_true]
    exact .step .silent (by simp [callStep, deleteStep, hany]) .refl

theorem alone_invalidate (ownerUserId : String) (count : ℕ) (ids : List String) :
    Alone cfg (st, .disableKeysForOwner ownerUserId (.invalidating count ids))
      ({ st with verified := ids.foldl (fun c id => c.invalidateById id) st.verified },
        .disableKeysForOwner ownerUserId (.done count)) := by
  induction ids generalizing st with
  | nil => exact .step .silent (by simp [callStep, disableStep]) .refl
  | cons id ids ih => exact .step .silent (by simp [callStep, disableStep]; rfl) ih

theorem alone_disableKeysForOwner (ownerUserId : String) (error : Option String) :
    Alone cfg (st, .disableKeysForOwner ownerUserId .start)
      ((disableKeysForOwner st ownerUserId error).1,
        .disableKeysForOwner ownerUserId (disableKeysForOwner st ownerUserId error).2) := by
  unfold disableKeysForOwner
  generalize hids : ((values st.runtime).filter fun r => ownedBy ownerUserId r && r.enabled).map (·.id) = ids
  by_cases hnil : ids = []
  · simp only [hnil, if_true]
    exact .step .silent (by simp only [callStep, disableStep, hids, hnil, if_true]; rfl) .refl
  · simp only [hnil, if_false]
    refine .step .silent (q := (st, .disableKeysForOwner ownerUserId (.updatingRows ids)))
      (by simp only [callStep, disableStep, hids, hnil, if_false]; rfl) ?_
    cases error with
    | some e => exact .step (.database (some e)) (by simp [callStep, disableStep]) .refl
    | none =>
      refine .step (.database none) (q := (st, .disableKeysForOwner ownerUserId (.marking ids)))
        (by simp [callStep, disableStep]) ?_
      refine .step .silent (by simp only [callStep, disableStep, Option.map_some]; rfl) ?_
      exact .step .silent (by simp only [callStep, disableStep, Option.map_some]; rfl)
        (alone_invalidate ownerUserId ids.length ids)

theorem idle_authorizeMiss (h : Idle st) (token : String) (delays : Delays) :
    Idle (authorizeMiss cfg st token delays).1 := by
  unfold authorizeMiss
  simp only [flight_of_idle h]
  generalize hst1 : CacheTransparency.wait { st with
    verified := { st.verified with
      inflight := st.verified.inflight.insert (cfg.lookupOf token) st.nextSlot }
    nextSlot := st.nextSlot + 1 } delays.second = st1
  obtain ⟨hinflight, hlocked⟩ := verifyInFlight_frame cfg st1 token delays.put
  refine ⟨?_, fun slot => ?_⟩
  · have hone : (verifyInFlight cfg st1 token delays.put).1.verified.inflight =
        st.verified.inflight.insert (cfg.lookupOf token) st.nextSlot := by
      rw [hinflight, ← hst1]
      rfl
    have hcurrent : (verifyInFlight cfg st1 token delays.put).1.verified.isCurrent
        (cfg.lookupOf token) st.nextSlot = true := by
      simp [VerifiedCache.isCurrent, hone]
    have hnone : st.verified.inflight.lookup (cfg.lookupOf token) = none := by
      rw [h.inflight]
      rfl
    simp only [VerifiedCache.removeIfCurrent, hcurrent, if_true, hone]
    rw [erase_insert_of_none hnone, h.inflight]
  · have hsame : (verifyInFlight cfg st1 token delays.put).1.locked = st.locked := by
      rw [hlocked, ← hst1]
      rfl
    simp only [hsame]
    exact h.unlocked slot

theorem idle_authorizeRecord (h : Idle st) (token : String) (delays : Delays) :
    Idle (authorizeRecord cfg st token delays).1 := by
  unfold authorizeRecord
  split
  · exact h
  · have hwait : Idle (CacheTransparency.wait st delays.first) := ⟨h.inflight, h.unlocked⟩
    dsimp only
    split_ifs
    · exact h
    · exact h
    · exact hwait
    · exact idle_authorizeMiss hwait token delays

theorem idle_createAttempts (h : Idle st) {tenantId name : String} {ownerUserId : Option String}
    {draw : ℕ → Insertion} (left : ℕ) :
    Idle (createAttempts cfg st tenantId ownerUserId name draw left).1 := by
  induction left with
  | zero => exact h
  | succ left ih =>
    unfold createAttempts
    cases draw left with
    | inserted id plaintext keyHash createdAt => exact ⟨h.inflight, h.unlocked⟩
    | collision => exact ih
    | failed e => exact h

theorem inflight_invalidateAll (ids : List String) (c : VerifiedCache) :
    (ids.foldl (fun c id => c.invalidateById id) c).inflight = c.inflight := by
  induction ids generalizing c with
  | nil => rfl
  | cons id ids ih => exact ih (c.invalidateById id)

/-- A call that has returned leaves no slot behind. -/
theorem idle_serve (h : Idle st) (op : Op) : Idle (serve cfg st op).1 := by
  cases op with
  | authorizeRecord token delays => exact idle_authorizeRecord h token delays
  | createIn tenantId ownerUserId name tenantEnabled userTenant draw =>
    simp only [serve, createIn]
    split
    · exact idle_createAttempts h 3
    · exact h
  | delete id error =>
    simp only [serve, delete]
    split_ifs
    · cases error <;> exact ⟨h.inflight, h.unlocked⟩
    · exact h
  | disableKeysForOwner ownerUserId error =>
    simp only [serve, disableKeysForOwner]
    split_ifs
    · exact h
    · cases error with
      | some e => exact h
      | none => exact ⟨(inflight_invalidateAll _ _).trans h.inflight, h.unlocked⟩
  | tick d => exact ⟨h.inflight, h.unlocked⟩

/-- The request that begins a call. -/
def Op.request : Op → Option Request
  | .authorizeRecord token _ => some (.authorizeRecord token)
  | .createIn tenantId ownerUserId name _ _ _ => some (.createIn tenantId ownerUserId name)
  | .delete id _ => some (.delete id)
  | .disableKeysForOwner ownerUserId _ => some (.disableKeysForOwner ownerUserId)
  | .tick _ => none

/-- **The calls of `Storage.Keys` that are alone** do what `serve` says. -/
theorem reaches_serve {s : State} {i : ℕ} {op : Op} {request : Request} {reply : Call}
    (hidle : Idle s.store) (hi : s.calls.lookup i = none) (hop : op.request = some request)
    (hreply : (serve cfg s.store op).2 = some reply) :
    Reaches (step cfg) s ⟨(serve cfg s.store op).1, s.calls.insert i reply⟩ := by
  have hstart : step cfg s (.start i request) = some ⟨s.store, s.calls.insert i request.call⟩ := by
    simp [Keys.step, hi]
  have halone : Alone cfg (s.store, request.call) ((serve cfg s.store op).1, reply) := by
    cases op with
    | authorizeRecord token delays =>
      cases hop
      cases hreply
      exact alone_authorizeRecord hidle token delays
    | createIn tenantId ownerUserId name tenantEnabled userTenant draw =>
      cases hop
      cases hreply
      exact alone_createIn tenantId ownerUserId name tenantEnabled userTenant draw
    | delete id error =>
      cases hop
      cases hreply
      exact alone_delete id error
    | disableKeysForOwner ownerUserId error =>
      cases hop
      cases hreply
      exact alone_disableKeysForOwner ownerUserId error
    | tick d => cases hop
  obtain ⟨ls, hls⟩ := reaches_of_alone s.calls i halone
  exact ⟨.start i request :: ls, run_cons_eq_some.mpr ⟨_, hstart, hls⟩⟩

theorem exists_fresh (calls : HashMap ℕ Call) : ∃ i, calls.lookup i = none := by
  obtain ⟨i, hi⟩ := Infinite.exists_notMem_finset calls.keys.toFinset
  refine ⟨i, AList.lookup_eq_none.mpr fun hmem => hi ?_⟩
  exact List.mem_toFinset.mpr (AList.mem_keys.mp hmem)

/-- What a call of `serve` returns, a call of the system returns; the calls before it stay as they are. -/
theorem reaches_reply (cfg : Config) {s : State} (hidle : Idle s.store) (op : Op) :
    ∃ s', Reaches (step cfg) s s' ∧ s'.store = (serve cfg s.store op).1 ∧
      (∀ c, (serve cfg s.store op).2 = some c → ∃ i, s'.calls.lookup i = some c) ∧
      ∀ i c, s.calls.lookup i = some c → s'.calls.lookup i = some c := by
  cases hop : op.request with
  | none =>
    cases op with
    | tick d =>
      refine ⟨{ s with store := CacheTransparency.wait s.store d }, ⟨[.tick d], rfl⟩, rfl, ?_, ?_⟩
      · intro c hc
        cases hc
      · exact fun i c hi => hi
    | _ => cases hop
  | some request =>
    obtain ⟨reply, hreply⟩ : ∃ reply, (serve cfg s.store op).2 = some reply := by
      cases op with
      | tick d => cases hop
      | _ => exact ⟨_, rfl⟩
    obtain ⟨i, hi⟩ := exists_fresh s.calls
    refine ⟨_, reaches_serve hidle hi hop hreply, rfl, fun c hc => ⟨i, ?_⟩, fun j c hj => ?_⟩
    · rw [hreply] at hc
      cases hc
      exact AList.lookup_insert _
    · have hne : j ≠ i := by
        rintro rfl
        rw [hi] at hj
        cases hj
      rw [lookup_insert, if_neg hne]
      exact hj

/-- **A sequence of calls** is a run of the system. -/
theorem reaches_serveAll (ops : List Op) : ∀ {s : State}, Idle s.store →
    ∃ s', Reaches (step cfg) s s' ∧ s'.store = (serveAll cfg s.store ops).1 ∧
      (∀ c, some c ∈ (serveAll cfg s.store ops).2 → ∃ i, s'.calls.lookup i = some c) ∧
      ∀ i c, s.calls.lookup i = some c → s'.calls.lookup i = some c := by
  induction ops with
  | nil =>
    refine fun {s} _ => ⟨s, Reaches.refl s, rfl, fun c hc => ?_, fun i c hi => hi⟩
    cases hc
  | cons op ops ih =>
    intro s hidle
    obtain ⟨s1, ⟨ls1, h1⟩, hst1, hreply, hkeep⟩ := reaches_reply cfg hidle op
    obtain ⟨s2, ⟨ls2, h2⟩, hst2, hreplies, hkeep2⟩ := ih (s := s1) (hst1 ▸ idle_serve hidle op)
    rw [hst1] at hst2 hreplies
    refine ⟨s2, ⟨ls1 ++ ls2, by rw [run_append, h1]; exact h2⟩, hst2, fun c hc => ?_,
      fun i c hi => hkeep2 i c (hkeep i c hi)⟩
    rcases List.mem_cons.mp hc with hc | hc
    · obtain ⟨i, hi⟩ := hreply c hc.symm
      exact ⟨i, hkeep2 i c hi⟩
    · exact hreplies c hc

/-! ### The size of the cache -/

theorem length_eq_countVal (m : HashMap String Verified) :
    m.entries.length = countVal (fun _ => true) m := by
  unfold countVal values
  simp

/-- The entry that `put` evicts is there. -/
theorem lookup_of_oldest {c : VerifiedCache} {k : String} (h : c.oldest = some k) :
    ∃ v, c.entries.lookup k = some v := by
  obtain ⟨p, hp, rfl⟩ := Option.map_eq_some_iff.mp h
  exact ⟨p.2, AList.mem_lookup_iff.mpr (List.argmin_mem hp)⟩

theorem length_put {c : VerifiedCache} {maxEntries now : ℕ} {lookup : String} {record : KeyRecord}
    (hmax : 0 < maxEntries) (h : c.entries.entries.length ≤ maxEntries) :
    (c.put maxEntries now lookup record).entries.entries.length ≤ maxEntries := by
  rw [length_eq_countVal] at h ⊢
  cases hl : c.entries.lookup lookup with
  | some v =>
    simp only [VerifiedCache.put, hl, Option.isNone_some, Bool.false_eq_true, and_false, if_false]
    have hcount := countVal_step (fun _ => true) hl ⟨record, now⟩
    simp only [Bool.toNat_true] at hcount
    omega
  | none =>
    by_cases hfull : maxEntries ≤ c.entries.entries.length
    · have hsome : c.oldest ≠ none := by
        intro hnone
        have hnil : c.entries.entries = [] := by simpa [VerifiedCache.oldest] using hnone
        rw [hnil] at hfull
        simp at hfull
        omega
      obtain ⟨k, hk⟩ := Option.ne_none_iff_exists'.mp hsome
      obtain ⟨v, hv⟩ := lookup_of_oldest hk
      have hfree : (c.entries.erase k).lookup lookup = none := by
        rw [lookup_erase, hl]
        exact ite_self _
      simp only [VerifiedCache.put, hl, hfull, hk, Option.isNone_none, and_true, if_true]
      rw [countVal_insert_of_none _ _ hfree, ← countVal_erase (fun _ => true) hv]
      exact h
    · rw [length_eq_countVal] at hfull
      simp only [VerifiedCache.put, hl, length_eq_countVal, hfull, false_and, if_false]
      rw [countVal_insert_of_none _ _ hl]
      simp only [if_true]
      omega

theorem length_invalidateById (c : VerifiedCache) (id : String) :
    (c.invalidateById id).entries.entries.length ≤ c.entries.entries.length :=
  List.length_filter_le _ _

/-! ### What a hit stands for -/

/-- The store knows of no version above the generation, and an entry of the cache was verified for a token
in `T`; a record in `runtime` of the same lookup and version has the hash that was verified. -/
structure Sound (cfg : Config) (T : Set String) (st : Store) : Prop where
  runtime : ∀ k r, st.runtime.lookup k = some r → r.credVersion ≤ st.generation
  below : ∀ k v, st.verified.entries.lookup k = some v → v.record.credVersion ≤ st.generation
  verified : ∀ k v, st.verified.entries.lookup k = some v →
    ∃ t ∈ T, cfg.lookupOf t = k ∧ cfg.verifyArgon2 t v.record.keyHash = true
  same : ∀ k v r, st.verified.entries.lookup k = some v → st.runtime.lookup k = some r →
    r.credVersion = v.record.credVersion → r.keyHash = v.record.keyHash
  size : st.verified.entries.entries.length ≤ cfg.maxEntries

variable {T : Set String}

theorem sound_init (l : Loaded) : Sound cfg T (init l).store where
  runtime k r h := le_of_eq (l.credVersion_eq h)
  below k v h := by cases h
  verified k v h := by cases h
  same k v r h := by cases h
  size := Nat.zero_le _

theorem Sound.congr (h : Sound cfg T st) (hr : st'.runtime = st.runtime)
    (hg : st'.generation = st.generation) (he : st'.verified.entries = st.verified.entries) :
    Sound cfg T st' where
  runtime := by rw [hr, hg]; exact h.runtime
  below := by rw [he, hg]; exact h.below
  verified := by rw [he]; exact h.verified
  same := by rw [he, hr]; exact h.same
  size := by rw [he]; exact h.size

/-- Argon2 accepts a token of `T` whose record is cached. -/
theorem Sound.verify_of_cached (h : Sound cfg T st) (hT : Set.InjOn cfg.lookupOf T) {token : String}
    (ht : token ∈ T) {r : KeyRecord} (hr : st.runtime.lookup (cfg.lookupOf token) = some r) {now : ℕ}
    (hc : st.verified.isCached cfg.ttl now (cfg.lookupOf token) r.credVersion = true) :
    cfg.verifyArgon2 token r.keyHash = true := by
  obtain ⟨hit, hhit, hver⟩ := VerifiedCache.isCached_eq_true hc
  obtain ⟨t, htT, hlookup, hverify⟩ := h.verified _ _ hhit
  have htoken : t = token := hT htT ht hlookup
  have hhash : r.keyHash = hit.record.keyHash := h.same _ _ _ hhit hr hver.symm
  rw [hhash, ← htoken]
  exact hverify

theorem Sound.put (h : Sound cfg T st) (hmax : cfg.maxEntries ≠ 0) {token : String} (ht : token ∈ T)
    {r : KeyRecord} (hr : st.runtime.lookup (cfg.lookupOf token) = some r)
    (hv : cfg.verifyArgon2 token r.keyHash = true) (now : ℕ) :
    Sound cfg T { st with
      verified := st.verified.put cfg.maxEntries now (cfg.lookupOf token) r } where
  runtime := h.runtime
  below k v hk := by
    rcases VerifiedCache.lookup_put hk with ⟨rfl, rfl⟩ | hk
    · exact h.runtime _ _ hr
    · exact h.below _ _ hk
  verified k v hk := by
    rcases VerifiedCache.lookup_put hk with ⟨rfl, rfl⟩ | hk
    · exact ⟨token, ht, rfl, hv⟩
    · exact h.verified _ _ hk
  same k v r' hk hr' hver := by
    rcases VerifiedCache.lookup_put hk with ⟨rfl, rfl⟩ | hk
    · have heq : r' = r := Option.some.inj (hr'.symm.trans hr)
      rw [heq]
    · exact h.same _ _ _ hk hr' hver
  size := length_put (Nat.pos_of_ne_zero hmax) h.size

/-- A change of keys: what it leaves in `runtime` was there with its hash and version, or has a new version;
the cache loses entries at most. -/
theorem Sound.change (h : Sound cfg T st) (hg : st.generation ≤ st'.generation)
    (hr : ∀ k r, st'.runtime.lookup k = some r →
      (∃ r0, st.runtime.lookup k = some r0 ∧ r.keyHash = r0.keyHash ∧ r.credVersion = r0.credVersion) ∨
        (r.credVersion = st'.generation ∧ st.generation < st'.generation))
    (he : ∀ k v, st'.verified.entries.lookup k = some v → st.verified.entries.lookup k = some v)
    (hs : st'.verified.entries.entries.length ≤ st.verified.entries.entries.length) :
    Sound cfg T st' where
  runtime k r hk := by
    rcases hr k r hk with ⟨r0, hr0, -, hver⟩ | ⟨hver, -⟩
    · rw [hver]
      exact (h.runtime k r0 hr0).trans hg
    · exact le_of_eq hver
  below k v hk := (h.below k v (he k v hk)).trans hg
  verified k v hk := h.verified k v (he k v hk)
  same k v r hk hr' hver := by
    rcases hr k r hr' with ⟨r0, hr0, hhash, hver0⟩ | ⟨hnew, hlt⟩
    · rw [hhash]
      exact h.same k v r0 (he k v hk) hr0 (hver0.symm.trans hver)
    · have hold := h.below k v (he k v hk)
      omega
  size := hs.trans h.size

/-! ### Every sequence of calls -/

/-- What the cache has no part in is the same in both stores. -/
structure Same (st st0 : Store) : Prop where
  runtime : st.runtime = st0.runtime
  generation : st.generation = st0.generation

theorem loadEnabled_congr {st0 : Store} (h : st.runtime = st0.runtime) (token : String) :
    loadEnabled cfg st token = loadEnabled cfg st0 token := by
  unfold loadEnabled
  rw [h]

/-- The answer of a call without a cache. -/
def answer (cfg : Config) (st : Store) (token : String) : Option KeyRecord :=
  (loadEnabled cfg st token).filter fun r => cfg.verifyArgon2 token r.keyHash

theorem authorizeRecord_uncached (st : Store) (token : String) (delays : Delays) :
    authorizeRecord (uncached cfg) st token delays = (st, answer cfg st token) := by
  have hload : loadEnabled (uncached cfg) st token = loadEnabled cfg st token := rfl
  unfold authorizeRecord answer
  rw [hload]
  cases loadEnabled cfg st token with
  | none => rfl
  | some r =>
    simp only [uncached, if_true, Option.filter_some]
    rfl

theorem verifyInFlight_sound (h : Sound cfg T st) (hmax : cfg.maxEntries ≠ 0)
    (hT : Set.InjOn cfg.lookupOf T) {token : String} (ht : token ∈ T) (delay : ℕ) :
    (verifyInFlight cfg st token delay).2 = answer cfg st token ∧
      Same (verifyInFlight cfg st token delay).1 st ∧ Sound cfg T (verifyInFlight cfg st token delay).1 := by
  unfold verifyInFlight answer
  cases hload : loadEnabled cfg st token with
  | none => exact ⟨rfl, ⟨rfl, rfl⟩, h⟩
  | some r =>
    have hr := (Versions.loadEnabled_eq_some hload).1
    by_cases hc : st.verified.isCached cfg.ttl st.now (cfg.lookupOf token) r.credVersion = true
    · have hv := h.verify_of_cached hT ht hr hc
      simp only [hc, if_true]
      exact ⟨by simp [Option.filter, hv], ⟨rfl, rfl⟩, h⟩
    · by_cases hv : cfg.verifyArgon2 token r.keyHash = true
      · simp only [hc, hv, if_true, if_false, Bool.false_eq_true]
        have hwait : Sound cfg T (wait st delay) := h.congr rfl rfl rfl
        exact ⟨by simp [Option.filter, hv], ⟨rfl, rfl⟩, hwait.put hmax ht hr hv _⟩
      · simp only [hc, hv, if_false, Bool.false_eq_true]
        exact ⟨by simp [Option.filter, hv], ⟨rfl, rfl⟩, h⟩

theorem authorizeMiss_sound (h : Sound cfg T st) (hmax : cfg.maxEntries ≠ 0)
    (hT : Set.InjOn cfg.lookupOf T) {token : String} (ht : token ∈ T) (delays : Delays) :
    (authorizeMiss cfg st token delays).2 = answer cfg st token ∧
      Same (authorizeMiss cfg st token delays).1 st ∧ Sound cfg T (authorizeMiss cfg st token delays).1 := by
  unfold authorizeMiss
  generalize hflight : st.verified.flight (cfg.lookupOf token) st.nextSlot = p
  have hentries : p.2.entries = st.verified.entries := by
    rw [← hflight]
    exact VerifiedCache.entries_flight _ _ _
  generalize hst1 : wait { st with verified := p.2, nextSlot := st.nextSlot + 1 } delays.second = st1
  have hrun : st1.runtime = st.runtime := by rw [← hst1]; rfl
  have hgen : st1.generation = st.generation := by rw [← hst1]; rfl
  have hsound : Sound cfg T st1 := h.congr hrun hgen (by rw [← hst1]; exact hentries)
  obtain ⟨hres, hsame, hsound'⟩ := verifyInFlight_sound hsound hmax hT ht delays.put
  have hans : answer cfg st1 token = answer cfg st token := by
    unfold answer
    rw [loadEnabled_congr hrun]
  simp only
  rw [hst1]
  refine ⟨hres.trans hans, ⟨hsame.runtime.trans hrun, hsame.generation.trans hgen⟩,
    hsound'.congr rfl rfl ?_⟩
  exact VerifiedCache.entries_removeIfCurrent _ _ _

theorem authorizeRecord_sound (h : Sound cfg T st) (hT : Set.InjOn cfg.lookupOf T) {token : String}
    (ht : token ∈ T) (delays : Delays) :
    (authorizeRecord cfg st token delays).2 = answer cfg st token ∧
      Same (authorizeRecord cfg st token delays).1 st ∧
      Sound cfg T (authorizeRecord cfg st token delays).1 := by
  unfold authorizeRecord
  cases hload : loadEnabled cfg st token with
  | none => exact ⟨by simp [answer, hload], ⟨rfl, rfl⟩, h⟩
  | some fresh =>
    by_cases hmax : cfg.maxEntries = 0
    · simp only [hmax, if_true]
      exact ⟨by simp [answer, hload, Option.filter], ⟨rfl, rfl⟩, h⟩
    · have hwait : Sound cfg T (wait st delays.first) := h.congr rfl rfl rfl
      have hr := (Versions.loadEnabled_eq_some hload).1
      simp only [hmax, if_false]
      split_ifs with hc
      · have hv := hwait.verify_of_cached hT ht hr hc
        exact ⟨by simp [answer, hload, Option.filter, hv], ⟨rfl, rfl⟩, hwait⟩
      · obtain ⟨hres, hsame, hsound⟩ := authorizeMiss_sound hwait hmax hT ht delays
        exact ⟨hres, ⟨hsame.runtime, hsame.generation⟩, hsound⟩

/-- A call on the store with a cache and the same call on a store without one: they return the same, and
leave the same in `runtime`. -/
structure Agrees (cfg : Config) (T : Set String) {α : Type} (p p0 : Store × α) : Prop where
  reply : p.2 = p0.2
  same : Same p.1 p0.1
  sound : Sound cfg T p.1

theorem agrees_createAttempts {st0 : Store} (h : Sound cfg T st) (hs : Same st st0)
    (tenantId : String) (ownerUserId : Option String) (name : String) (draw : ℕ → Insertion) (left : ℕ) :
    Agrees cfg T (createAttempts cfg st tenantId ownerUserId name draw left)
      (createAttempts (uncached cfg) st0 tenantId ownerUserId name draw left) := by
  induction left with
  | zero => exact ⟨rfl, hs, h⟩
  | succ left ih =>
    unfold createAttempts
    cases draw left with
    | inserted id plaintext keyHash createdAt =>
      refine ⟨by rw [hs.generation]; rfl, ⟨?_, ?_⟩, h.change (Nat.le_succ _) (fun k r hk => ?_)
        (fun _ _ hv => hv) le_rfl⟩
      · simp only [hs.generation, hs.runtime]
        rfl
      · simp only [hs.generation]
      · simp only [lookup_insert] at hk
        split_ifs at hk
        · cases hk
          exact Or.inr ⟨rfl, Nat.lt_succ_self _⟩
        · exact Or.inl ⟨r, hk, rfl, rfl⟩
    | collision => exact ih
    | failed e => exact ⟨rfl, hs, h⟩

theorem agrees_createIn {st0 : Store} (h : Sound cfg T st) (hs : Same st st0) (tenantId : String)
    (ownerUserId : Option String) (name : String) (tenantEnabled : Option Bool)
    (userTenant : Option (Option String)) (draw : ℕ → Insertion) :
    Agrees cfg T (createIn cfg st tenantId ownerUserId name tenantEnabled userTenant draw)
      (createIn (uncached cfg) st0 tenantId ownerUserId name tenantEnabled userTenant draw) := by
  unfold createIn
  split
  · exact agrees_createAttempts h hs tenantId ownerUserId name draw 3
  · exact ⟨rfl, hs, h⟩

theorem agrees_delete {st0 : Store} (h : Sound cfg T st) (hs : Same st st0) (id : String)
    (error : Option String) : Agrees cfg T (delete st id error) (delete st0 id error) := by
  unfold delete
  rw [← hs.runtime, ← hs.generation]
  split_ifs
  · cases error with
    | some e => exact ⟨rfl, hs, h⟩
    | none =>
      refine ⟨rfl, ⟨rfl, rfl⟩, h.change (Nat.le_succ _) (fun k r hk => ?_)
        (fun k v hv => VerifiedCache.lookup_invalidateById hv) (length_invalidateById _ _)⟩
      rw [lookup_retain, Option.filter_eq_some_iff] at hk
      exact Or.inl ⟨r, hk.1, rfl, rfl⟩
  · exact ⟨rfl, hs, h⟩

theorem entries_invalidateAll (ids : List String) (c : VerifiedCache) :
    (∀ k v, (ids.foldl (fun c id => c.invalidateById id) c).entries.lookup k = some v →
      c.entries.lookup k = some v) ∧
    (ids.foldl (fun c id => c.invalidateById id) c).entries.entries.length ≤
      c.entries.entries.length := by
  induction ids generalizing c with
  | nil => exact ⟨fun _ _ hv => hv, le_rfl⟩
  | cons id ids ih =>
    obtain ⟨hlookup, hlength⟩ := ih (c.invalidateById id)
    exact ⟨fun k v hv => VerifiedCache.lookup_invalidateById (hlookup k v hv),
      hlength.trans (length_invalidateById c id)⟩

theorem agrees_disableKeysForOwner {st0 : Store} (h : Sound cfg T st) (hs : Same st st0)
    (ownerUserId : String) (error : Option String) :
    Agrees cfg T (disableKeysForOwner st ownerUserId error)
      (disableKeysForOwner st0 ownerUserId error) := by
  unfold disableKeysForOwner
  rw [← hs.runtime, ← hs.generation]
  dsimp only
  split_ifs
  · exact ⟨rfl, hs, h⟩
  · cases error with
    | some e => exact ⟨rfl, hs, h⟩
    | none =>
      obtain ⟨hlookup, hlength⟩ := entries_invalidateAll
        (((values st.runtime).filter fun r => ownedBy ownerUserId r && r.enabled).map (·.id)) st.verified
      refine ⟨rfl, ⟨rfl, rfl⟩, h.change (Nat.le_succ _) (fun k r hk => ?_) hlookup hlength⟩
      rw [lookup_mapVal] at hk
      obtain ⟨r0, hr0, rfl⟩ := Option.map_eq_some_iff.mp hk
      refine Or.inl ⟨r0, hr0, ?_⟩
      split_ifs <;> exact ⟨rfl, rfl⟩

/-- The token that a call presents. -/
def Op.token : Op → Option String
  | .authorizeRecord token _ => some token
  | _ => none

/-- **One call.** -/
theorem agrees_serve {st0 : Store} (h : Sound cfg T st) (hs : Same st st0)
    (hT : Set.InjOn cfg.lookupOf T) {op : Op} (hop : ∀ t, op.token = some t → t ∈ T) :
    Agrees cfg T (serve cfg st op) (serve (uncached cfg) st0 op) := by
  cases op with
  | authorizeRecord token delays =>
    obtain ⟨hres, hsame, hsound⟩ := authorizeRecord_sound h hT (hop token rfl) delays
    have hans : answer cfg st token = answer cfg st0 token := by
      unfold answer
      rw [loadEnabled_congr hs.runtime]
    simp only [serve, authorizeRecord_uncached, hres, hans]
    exact ⟨rfl, ⟨hsame.runtime.trans hs.runtime, hsame.generation.trans hs.generation⟩, hsound⟩
  | createIn tenantId ownerUserId name tenantEnabled userTenant draw =>
    obtain ⟨hreply, hsame, hsound⟩ :=
      agrees_createIn h hs tenantId ownerUserId name tenantEnabled userTenant draw
    exact ⟨congrArg (fun pc => some (Call.createIn tenantId ownerUserId name pc)) hreply, hsame, hsound⟩
  | delete id error =>
    obtain ⟨hreply, hsame, hsound⟩ := agrees_delete h hs id error
    exact ⟨congrArg (fun pc => some (Call.delete id pc)) hreply, hsame, hsound⟩
  | disableKeysForOwner ownerUserId error =>
    obtain ⟨hreply, hsame, hsound⟩ := agrees_disableKeysForOwner h hs ownerUserId error
    exact ⟨congrArg (fun pc => some (Call.disableKeysForOwner ownerUserId pc)) hreply, hsame, hsound⟩
  | tick d => exact ⟨rfl, ⟨hs.runtime, hs.generation⟩, h.congr rfl rfl rfl⟩

theorem agrees_serveAll (hT : Set.InjOn cfg.lookupOf T) (ops : List Op) :
    ∀ {st st0 : Store}, Sound cfg T st → Same st st0 → (∀ op ∈ ops, ∀ t, op.token = some t → t ∈ T) →
      Agrees cfg T (serveAll cfg st ops) (serveAll (uncached cfg) st0 ops) := by
  induction ops with
  | nil => exact fun h hs _ => ⟨rfl, hs, h⟩
  | cons op ops ih =>
    intro st st0 h hs hops
    obtain ⟨hreply, hsame, hsound⟩ := agrees_serve h hs hT (hops op (by simp))
    obtain ⟨hreplies, hsame', hsound'⟩ := ih hsound hsame fun op' hop' => hops op' (by simp [hop'])
    exact ⟨congrArg₂ List.cons hreply hreplies, hsame', hsound'⟩

/-- **The cache never changes an answer.** For every sequence of calls and every passing of time, every
capacity and every time to live: if no two of the tokens presented have the same SHA-256, each call returns
what it returns with the cache off, and the cache has at most `max_entries` entries. -/
theorem cache_transparent (cfg : Config) (l : Loaded) (ops : List Op)
    (hinj : Set.InjOn cfg.lookupOf {t | ∃ op ∈ ops, op.token = some t}) :
    (serveAll cfg (init l).store ops).2 = (serveAll (uncached cfg) (init l).store ops).2 ∧
      (serveAll cfg (init l).store ops).1.verified.entries.entries.length ≤ cfg.maxEntries := by
  have h := agrees_serveAll hinj ops (sound_init l) ⟨rfl, rfl⟩ fun op hop t ht => ⟨op, hop, ht⟩
  exact ⟨h.reply, h.sound.size⟩

open HomeLlmGateway.Storage.Revocation in
/-- A key is created, used twice, the second time with a hit, deleted and used again. -/
theorem cache_transparent_deleted : ∃ ops : List Op,
    (serveAll exampleConfig (init noKeys).store ops).2 =
        (serveAll (uncached exampleConfig) (init noKeys).store ops).2 ∧
      (serveAll exampleConfig (init noKeys).store ops).1.verified.entries.entries.length ≤ 2 ∧
      (serveAll exampleConfig (init noKeys).store ops).2 =
        [some (.createIn "default" none "a" (.done abcKey "sk-abc")),
          some (.authorizeRecord "sk-abc" (.done (some abcKey))),
          some (.authorizeRecord "sk-abc" (.done (some abcKey))), some (.delete "id1" (.done true)),
          some (.authorizeRecord "sk-abc" (.done none))] := by
  let ops : List Op := [.createIn "default" none "a" (some true) none fun _ =>
      .inserted "id1" "sk-abc" abcHash 5,
    .authorizeRecord "sk-abc" ⟨1, 0, 3⟩, .authorizeRecord "sk-abc" ⟨1, 0, 0⟩, .delete "id1" none,
    .authorizeRecord "sk-abc" ⟨0, 0, 0⟩]
  have hinj : Set.InjOn exampleConfig.lookupOf {t | ∃ op ∈ ops, op.token = some t} := by
    have hone : ∀ t, (∃ op ∈ ops, op.token = some t) → t = "sk-abc" := by
      rintro t ⟨op, hop, ht⟩
      simp only [ops, List.mem_cons, List.not_mem_nil, or_false] at hop
      rcases hop with rfl | rfl | rfl | rfl | rfl <;> cases ht <;> rfl
    intro t ht t' ht' _
    rw [hone t ht, hone t' ht']
  obtain ⟨hsame, hsize⟩ := cache_transparent exampleConfig noKeys ops hinj
  exact ⟨ops, hsame, hsize, by decide⟩

end HomeLlmGateway.Storage.CacheTransparency
