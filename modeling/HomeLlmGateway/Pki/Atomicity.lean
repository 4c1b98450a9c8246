import HomeLlmGateway.Pki.Service

/-! # Failed operations on pairs

Whether a call of `create_pair` or `revoke` that returns an error leaves everything as it was: the table,
the pair directories, the certificates that are served, the map of server names, the trusted roots and the
revoked fingerprints. `create_pair` undoes its files and its row, but not the root that `add_ca` has pushed
before the rebuild of the verifier fails. `revoke` undoes nothing, so it leaves a trace whenever it fails
after it has begun to take the pair out of the live state and there was something to take out.
`failed_calls_leave_no_trace` says exactly when the two are all-or-nothing. -/

namespace HomeLlmGateway.Pki.Atomicity

open HomeLlmGateway.Lib.Assoc
open HomeLlmGateway.Proto.Http (toAsciiLowercase)
open HomeLlmGateway.Pki.Verifier HomeLlmGateway.Pki.Service

variable {V : Type} {cfg : Config V} {s : PkiService V} {now : ℤ} {faults : Faults} {req : CreateRequest}
  {id : String} {generated : Except String GeneratedPair}

/-- What a failed call must not change. -/
structure Same (s s' : PkiService V) : Prop where
  rows : s'.rows = s.rows
  files : s'.files = s.files
  resolver : s'.runtime.resolver = s.runtime.resolver
  pairsByServer : s'.runtime.pairsByServer = s.runtime.pairsByServer
  roots : s'.runtime.verifier.roots = s.runtime.verifier.roots
  revoked : s'.runtime.verifier.revoked = s.runtime.verifier.revoked

theorem Same.refl (s : PkiService V) : Same s s := ⟨rfl, rfl, rfl, rfl, rfl, rfl⟩

/-- If the call has returned an error, nothing has changed. -/
def AllOrNothing {α : Type} (s : PkiService V) (out : PkiService V × Except PkiError α) : Prop :=
  ∀ e, out.2 = .error e → Same s out.1

theorem allOrNothing_ok {α : Type} (s s' : PkiService V) (a : α) : AllOrNothing s (s', .ok a) := by
  intro e he
  cases he

/-- A call that returns an error is all-or-nothing if nothing has changed. -/
theorem allOrNothing_error {α : Type} {s s' : PkiService V} {e : PkiError} :
    AllOrNothing s (s', (.error e : Except PkiError α)) ↔ Same s s' :=
  ⟨fun h => h e rfl, fun h _ _ => h⟩

/-! ### `create_pair` -/

/-- The new CA that goes to the live state, if the call comes so far. -/
def preparedCa (cfg : Config V) (s : PkiService V) (now : ℤ) (faults : Faults) (req : CreateRequest)
    (id : String) (generated : Except String GeneratedPair) : Option Cert :=
  match admitPair s now faults req generated with
  | .error _ => none
  | .ok g =>
    match writePair s.files faults id g with
    | (_, .error _) => none
    | (files, .ok ()) =>
      match loadNew cfg files faults id, insertRow s.rows faults (newRecord now req id g) with
      | .ok (loaded, _), .ok _ => some loaded.caCert
      | _, _ => none

theorem writePair_cases (files : Files) (faults : Faults) (id : String) (g : GeneratedPair) :
    (∃ e, writePair files faults id g = (files, .error e)) ∨
      (∃ e, writePair files faults id g = (files.erase id, .error e)) ∨
      writePair files faults id g = (files.insert id (insertAll ∅ g.contents), .ok ()) := by
  unfold writePair
  rcases hd : faults .createDir with _ | e
  · rcases hw : g.contents.findSome? (fun p => faults (.write p.1)) with _ | e
    · exact Or.inr (Or.inr (by simp only [hw]))
    · exact Or.inr (Or.inl ⟨e, by simp only [hw]⟩)
  · exact Or.inl ⟨e, by simp only⟩

/-- **`create_pair` leaves no trace of a failure, unless the rebuild with the new CA fails.** -/
theorem createPair_allOrNothing (hf : s.files.lookup id = none) :
    AllOrNothing s (createPair cfg s now faults req id generated) ↔
      ∀ ca, preparedCa cfg s now faults req id generated = some ca →
        TakesCa cfg s.runtime.verifier.roots ca := by
  unfold createPair preparedCa
  rcases ha : admitPair s now faults req generated with e | g
  · refine ⟨fun _ ca hca => (by cases hca), fun _ => allOrNothing_error.mpr (Same.refl s)⟩
  rcases writePair_cases s.files faults id g with ⟨e, hw⟩ | ⟨e, hw⟩ | hw
  · simp only [hw]
    exact ⟨fun _ ca hca => (by cases hca), fun _ => allOrNothing_error.mpr (Same.refl s)⟩
  · simp only [hw]
    rw [erase_of_lookup_none hf]
    exact ⟨fun _ ca hca => (by cases hca), fun _ => allOrNothing_error.mpr (Same.refl s)⟩
  simp only [hw]
  have hfiles : (s.files.insert id (insertAll ∅ g.contents)).erase id = s.files :=
    erase_insert_of_none hf _
  rcases hl : loadNew cfg (s.files.insert id (insertAll ∅ g.contents)) faults id with e | ⟨loaded, key⟩
  · simp only [hfiles]
    exact ⟨fun _ ca hca => (by cases hca), fun _ => allOrNothing_error.mpr (Same.refl s)⟩
  rcases hi : insertRow s.rows faults (newRecord now req id g) with e | rows
  · simp only [hfiles]
    exact ⟨fun _ ca hca => (by cases hca), fun _ => allOrNothing_error.mpr (Same.refl s)⟩
  simp only
  by_cases ht : TakesCa cfg s.runtime.verifier.roots loaded.caCert
  · obtain ⟨v, hv, -⟩ := addPair_ok req.serverName id key ht
    have hserver : PkiRuntime.hasServer (V := V)
        ⟨s.runtime.resolver.insert (toAsciiLowercase req.serverName) key, v,
          s.runtime.pairsByServer.insert (toAsciiLowercase req.serverName) id⟩ req.serverName = true := by
      simp [PkiRuntime.hasServer]
    simp only [hv, hserver, if_true]
    refine ⟨fun _ ca hca => ?_, fun _ => allOrNothing_ok _ _ _⟩
    cases hca
    exact ht
  · obtain ⟨e, he⟩ := addPair_error req.serverName id key ht
    simp only [he]
    refine ⟨fun h => absurd (allOrNothing_error.mp h).roots ?_, fun h => absurd (h _ rfl) ht⟩
    simp

/-! ### `revoke` -/

/-- The pair has nothing in the live state that taking it out would change, up to the roots. -/
def Absent (cfg : Config V) (rt : PkiRuntime V) (r : PkiRecord) (ca : Cert) : Prop :=
  rt.resolver.lookup (toAsciiLowercase r.serverName) = none ∧
    trusts cfg.toCrypto rt.verifier.roots (cfg.fingerprintHex ca) = false

/-- Nor in what is changed after the roots. -/
def Forgotten (cfg : Config V) (rt : PkiRuntime V) (r : PkiRecord) (clientCert : Cert) : Prop :=
  cfg.fingerprintHex clientCert ∈ rt.verifier.revoked ∧
    rt.pairsByServer.lookup (toAsciiLowercase r.serverName) = none

/-- When the part of `revoke` that changes something goes through, or changes nothing. -/
def RevokesCleanly (cfg : Config V) (s : PkiService V) (faults : Faults) (r : PkiRecord)
    (ca clientCert : Cert) : Prop :=
  if (rebuild cfg.toCrypto (rootsWithout cfg s.runtime.verifier.roots ca)).isOk then
    faults .revokeRow = none ∨
      Absent cfg s.runtime r ca ∧ Forgotten cfg s.runtime r clientCert
  else Absent cfg s.runtime r ca

theorem rootsWithout_eq_self {roots : List Cert} {ca : Cert} :
    rootsWithout cfg roots ca = roots ↔ trusts cfg.toCrypto roots (cfg.fingerprintHex ca) = false := by
  unfold rootsWithout trusts
  rw [List.filter_eq_self, List.any_eq_false]
  simp

/-- **`revoke` leaves no trace of a failure exactly when its last steps succeed, or find nothing to
change.** -/
theorem revoke_allOrNothing :
    AllOrNothing s (revoke cfg s now faults id) ↔
      ∀ r ca clientCert, findPair cfg s faults id = .ok (r, ca, clientCert) →
        RevokesCleanly cfg s faults r ca clientCert := by
  unfold revoke
  rcases hp : findPair cfg s faults id with e | ⟨r, ca, clientCert⟩
  · refine ⟨fun _ r ca cc h => (by cases h), fun _ => allOrNothing_error.mpr (Same.refl s)⟩
  have hone : (∀ r' ca' cc', (Except.ok (r, ca, clientCert) : Except PkiError _) = .ok (r', ca', cc') →
      RevokesCleanly cfg s faults r' ca' cc') ↔ RevokesCleanly cfg s faults r ca clientCert := by
    refine ⟨fun h => h _ _ _ rfl, fun h r' ca' cc' he => ?_⟩
    cases he
    exact h
  rw [hone]
  unfold RevokesCleanly Absent Forgotten
  rcases hb : rebuild cfg.toCrypto (rootsWithout cfg s.runtime.verifier.roots ca) with e | v
  · simp only [removePair_error hb]
    rw [allOrNothing_error, if_neg (by simp [Except.isOk, Except.toBool])]
    constructor
    · intro h
      exact ⟨erase_eq_self.mp h.resolver, rootsWithout_eq_self.mp h.roots⟩
    · rintro ⟨h1, h2⟩
      exact ⟨rfl, rfl, erase_eq_self.mpr h1, rfl, rootsWithout_eq_self.mpr h2, rfl⟩
  · simp only [removePair_ok hb]
    rw [if_pos (show Except.isOk (Except.ok v : Except PkiError _) = true from rfl)]
    rcases hrow : faults .revokeRow with _ | e
    · exact ⟨fun _ => Or.inl rfl, fun _ => allOrNothing_ok _ _ _⟩
    · rw [allOrNothing_error]
      constructor
      · intro h
        exact Or.inr ⟨⟨erase_eq_self.mp h.resolver, rootsWithout_eq_self.mp h.roots⟩,
          Finset.insert_eq_self.mp h.revoked, erase_eq_self.mp h.pairsByServer⟩
      · rintro (h | ⟨⟨h1, h2⟩, h3, h4⟩)
        · cases h
        · exact ⟨rfl, rfl, erase_eq_self.mpr h1, erase_eq_self.mpr h4, rootsWithout_eq_self.mpr h2,
            Finset.insert_eq_self.mpr h3⟩

/-- **A failed call leaves no trace, exactly when**: for `create_pair`, the rebuild with the new CA is not
what fails; for `revoke`, the rebuild without the CA and the final `UPDATE` succeed, or find nothing in the
live state to change. The directory of a new pair is one that is
not there yet. -/
theorem failed_calls_leave_no_trace (cfg : Config V) (s : PkiService V) (now : ℤ) (faults : Faults)
    (req : CreateRequest) (newId : String) (generated : Except String GeneratedPair) (id : String)
    (hfiles : s.files.lookup newId = none) :
    (AllOrNothing s (createPair cfg s now faults req newId generated) ↔
      ∀ ca, preparedCa cfg s now faults req newId generated = some ca →
        TakesCa cfg s.runtime.verifier.roots ca) ∧
      (AllOrNothing s (revoke cfg s now faults id) ↔
        ∀ r ca clientCert, findPair cfg s faults id = .ok (r, ca, clientCert) →
          RevokesCleanly cfg s faults r ca clientCert) :=
  ⟨createPair_allOrNothing hfiles, revoke_allOrNothing⟩

/-! ### Failures late in a call -/

def emptyService : PkiService (List Cert) := ⟨∅, ∅, PkiRuntime.empty⟩

/-- The service with one pair. -/
def servesHome : PkiService (List Cert) :=
  (createPair lenient emptyService 10 noFaults homeRequest "p1" (.ok (pairOf [1] [2] [3] 1000))).1

/-- The last statement of `revoke` fails. -/
def updateFails : Faults := fun
  | .revokeRow => some (.storage "disk I/O error")
  | _ => none

/-- The insertion of the row fails. -/
def insertFails : Faults := fun
  | .insert => some (.storage "disk I/O error")
  | _ => none

def officeRequest : CreateRequest := ⟨"office", "t1", "office.example", ["office.example"], "admin"⟩

/-- When the row cannot be inserted, the files of the new pair are gone again. -/
theorem failed_calls_leave_no_trace_insert :
    AllOrNothing servesHome (createPair lenient servesHome 10 insertFails officeRequest "p2"
      (.ok (pairOf [4] [5] [6] 1000))) ∧
    (createPair lenient servesHome 10 insertFails officeRequest "p2" (.ok (pairOf [4] [5] [6] 1000))).2 =
      .error (.storage "disk I/O error") := by
  refine ⟨(failed_calls_leave_no_trace lenient servesHome 10 insertFails officeRequest "p2" _ "p1"
    (by decide +kernel)).1.mpr ?_, by decide +kernel⟩
  have hnone : preparedCa lenient servesHome 10 insertFails officeRequest "p2"
      (.ok (pairOf [4] [5] [6] 1000)) = none := by
    decide +kernel
  intro ca hca
  rw [hnone] at hca
  cases hca

/-- `revoke` fails at its last statement, and the certificate is no longer served; `create_pair` fails with a
CA that is no root, and the CA stays among the roots. -/
theorem failed_calls_leave_traces :
    ¬ AllOrNothing servesHome (revoke lenient servesHome 20 updateFails "p1") ∧
      ¬ AllOrNothing emptyService
        (createPair lenient emptyService 10 noFaults homeRequest "p1" (.ok (pairOf [1, 1] [2] [3] 1000))) := by
  constructor
  · intro h
    have hsame := (h (.storage "disk I/O error") (by decide +kernel)).resolver
    exact absurd (congrArg (·.lookup "home.example") hsame) (by decide +kernel)
  · intro h
    have hsame := (h (.invalid "invalid client CA: BadDer") (by decide +kernel)).roots
    exact absurd hsame (by decide +kernel)

end HomeLlmGateway.Pki.Atomicity
