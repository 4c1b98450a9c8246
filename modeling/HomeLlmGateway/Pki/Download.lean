import HomeLlmGateway.Lib.Runs
import HomeLlmGateway.Lib.Holding
import HomeLlmGateway.Pki.Service

/-! # Downloads at once

`download` and `revoke` of `PkiService` one statement and one file operation at a time, any number of calls at
once. That a pair has been downloaded is asked when a call begins, and marked when it is nearly done, without
asking again; in between the client key is read. So two calls may both read the key and both return it
(`key_returned_twice`). If no call reads the key of a pair while another one has read it and has not returned,
the key of a pair is returned once at most (`key_returned_once`): the first call has removed the file. Alone a
call is what `download` and `revoke` say (`finish_download`, `finish_revoke`). -/

namespace HomeLlmGateway.Pki.Download

open HomeLlmGateway.Lib.Runs HomeLlmGateway.Lib.Assoc HomeLlmGateway.Lib.Holding
open HomeLlmGateway.Lib.ByteCodec (Bytes)
open HomeLlmGateway.Pki.Verifier HomeLlmGateway.Pki.Service

/-! ### One call -/

inductive Op where
  | download (id : String)
  | revoke (id : String)
  deriving DecidableEq

def Op.id : Op → String
  | .download id => id
  | .revoke id => id

/-- What the files of a pair are loaded for. -/
inductive Purpose where
  | download (r : PkiRecord) (key : Bytes)
  | revoke (r : PkiRecord)
  deriving DecidableEq

def Purpose.record : Purpose → PkiRecord
  | .download r _ => r
  | .revoke r => r

/-- Where a call is. `load` has read some of the files of `load_pair`. -/
inductive Pc where
  | start
  | exists (r : PkiRecord)
  | readKey (r : PkiRecord)
  | load (p : Purpose) (contents : List Bytes)
  | mark (bundle : DownloadBundle)
  | removeKey (bundle : DownloadBundle)
  | removePair (r : PkiRecord) (ca clientCert : Cert)
  | update
  | done (result : Except PkiError (Option DownloadBundle))
  deriving DecidableEq

/-- The error is returned. -/
def Pc.fail (e : PkiError) : Pc := .done (.error e)

/-- The next file of `load_pair`. -/
def nextFile : List Bytes → FileName
  | [] => .caCrt
  | [_] => .serverCrt
  | [_, _] => .serverKey
  | _ => .clientCrt

variable {V : Type} (cfg : Config V)

/-- The end of `load_pair`, after the files have been read. -/
def parsePair (id : String) (caCertPem serverCertPem serverKeyPem clientCertPem : Bytes) :
    Except PkiError LoadedPair := do
  let caCerts ← parseCerts cfg caCertPem
  let serverChain ← parseCerts cfg serverCertPem
  match caCerts with
  | [] => throw (.invalid ("pair " ++ id ++ ": empty ca.crt"))
  | caCert :: _ =>
    let serverKey ← parseKey cfg serverKeyPem
    pure ⟨id, caCert, serverChain, serverKey, caCertPem, clientCertPem⟩

/-- An error of `load_pair`, as the caller shows it. -/
def Purpose.failLoad (id : String) (e : PkiError) : Purpose → Pc
  | .download .. => .fail e
  | .revoke _ => .fail (.storage ("cannot revoke pair " ++ id ++ ": " ++ e.display))

/-- What the caller of `load_pair` does next. -/
def Purpose.loaded (l : LoadedPair) : Purpose → Pc
  | .download r key => .mark (buildDownloadBundle r.name r.serverName l.caCertPem l.clientCertPem key)
  | .revoke r =>
    match l.clientCert cfg with
    | .error e => .fail e
    | .ok clientCert => .removePair r l.caCert clientCert

/-- After a file has been read: the next one, or the end of `load_pair`. -/
def afterRead (id : String) (p : Purpose) : List Bytes → Pc
  | [ca, server, key, client] =>
    match parsePair cfg p.record.id ca server key client with
    | .error e => p.failLoad id e
    | .ok l => p.loaded cfg l
  | contents => .load p contents

/-- One statement or file operation of a call; the checks after it belong to it. -/
def callStep (s : PkiService V) (now : ℤ) (faults : Faults) : Op → Pc → Option (PkiService V × Pc)
  | .download id, .start =>
    match (do
      let r ← record s.rows faults id
      checkDownload now r
      pure r : Except PkiError PkiRecord) with
    | .error e => some (s, .fail e)
    | .ok r => some (s, .exists r)
  | .download id, .exists r => some (s, if hasClientKey s.files id then .readKey r else .fail .downloadConsumed)
  | .download id, .readKey r =>
    match readSecure cfg s.files faults id .clientKey with
    | .error e => some (s, .fail e)
    | .ok key => some (s, .load (.download r key) [])
  | .download id, .mark bundle =>
    match faults .markDownloaded with
    | some e => some (s, .fail e)
    | none => some ({ s with rows := markDownloaded s.rows now id }, .removeKey bundle)
  | .download id, .removeKey bundle =>
    match faults .removeClientKey with
    | some e => some (s, .fail e)
    | none => some ({ s with files := removeClientKey s.files id }, .done (.ok (some bundle)))
  | .revoke id, .start =>
    match (do
      let r ← record s.rows faults id
      if r.status = .revoked then throw (.conflict "pair is already revoked")
      pure r : Except PkiError PkiRecord) with
    | .error e => some (s, .fail e)
    | .ok r => some (s, .load (.revoke r) [])
  | .revoke _, .removePair r ca clientCert =>
    match removePair cfg s.runtime r.serverName ca clientCert with
    | (rt, .error e) => some ({ s with runtime := rt }, .fail e)
    | (rt, .ok ()) => some ({ s with runtime := rt }, .update)
  | .revoke id, .update =>
    match faults .revokeRow with
    | some e => some (s, .fail e)
    | none => some ({ s with rows := modify id (PkiRecord.revoke now) s.rows }, .done (.ok none))
  | op, .load p contents =>
    match readSecure cfg s.files faults p.record.id (nextFile contents) with
    | .error e => some (s, p.failLoad op.id e)
    | .ok pem => some (s, afterRead cfg op.id p (contents ++ [pem]))
  | _, _ => none

/-- A call goes on, `n` steps at most, with no other one under way. -/
def finish (now : ℤ) (faults : Faults) (op : Op) : ℕ → PkiService V → Pc → PkiService V × Pc
  | 0, s, pc => (s, pc)
  | n + 1, s, pc =>
    match callStep cfg s now faults op pc with
    | none => (s, pc)
    | some (s', pc') => finish now faults op n s' pc'

/-! ### Any number of calls -/

structure Call where
  op : Op
  faults : Faults
  pc : Pc

structure State (V : Type) where
  service : PkiService V
  clock : ℤ
  calls : HashMap ℕ Call

inductive Label where
  | advance (d : ℕ)
  | start (i : ℕ) (op : Op) (faults : Faults)
  | step (i : ℕ)

def step (s : State V) : Label → Option (State V)
  | .advance d => some { s with clock := s.clock + d }
  | .start i op faults =>
    match s.calls.lookup i with
    | some _ => none
    | none => some { s with calls := s.calls.insert i ⟨op, faults, .start⟩ }
  | .step i => do
    let c ← s.calls.lookup i
    let (service, pc) ← callStep cfg s.service s.clock c.faults c.op c.pc
    pure { s with service := service, calls := s.calls.insert i { c with pc := pc } }

/-- A service with no call under way. -/
def init (service : PkiService V) (now : ℤ) : State V := ⟨service, now, ∅⟩

/-! ### A call alone -/

variable {cfg} {service service' : PkiService V} {now : ℤ} {faults : Faults} {id : String}

theorem loadPair_eq : loadPair cfg service.files faults id = (do
    let ca ← readSecure cfg service.files faults id .caCrt
    let server ← readSecure cfg service.files faults id .serverCrt
    let key ← readSecure cfg service.files faults id .serverKey
    let client ← readSecure cfg service.files faults id .clientCrt
    parsePair cfg id ca server key client) := rfl

@[simp] theorem finish_done (op : Op) (n : ℕ) (r : Except PkiError (Option DownloadBundle)) :
    finish cfg now faults op n service (.done r) = (service, .done r) := by
  rcases n with _ | n
  · rfl
  · rcases op with id | id <;> rfl

@[simp] theorem finish_fail (op : Op) (n : ℕ) (e : PkiError) :
    finish cfg now faults op n service (.fail e) = (service, .done (.error e)) := finish_done op n _

theorem finish_succ (op : Op) (n : ℕ) {pc pc' : Pc}
    (h : callStep cfg service now faults op pc = some (service', pc')) :
    finish cfg now faults op (n + 1) service pc = finish cfg now faults op n service' pc' := by
  simp only [finish, h]

/-- Where the call is after the files have been read. -/
def afterLoad (cfg : Config V) (op : Op) (p : Purpose) : Except PkiError LoadedPair → Pc
  | .error e => p.failLoad op.id e
  | .ok l => p.loaded cfg l

theorem callStep_load (op : Op) (p : Purpose) (contents : List Bytes) :
    callStep cfg service now faults op (.load p contents) =
      match readSecure cfg service.files faults p.record.id (nextFile contents) with
      | .error e => some (service, p.failLoad op.id e)
      | .ok pem => some (service, afterRead cfg op.id p
          (contents ++ [pem])) := by
  rcases op with id | id <;> rfl

theorem finish_failLoad (op : Op) (n : ℕ) (p : Purpose) (id : String) (e : PkiError) :
    finish cfg now faults op n service (p.failLoad id e) = (service, p.failLoad id e) := by
  rcases p with _ | _
  · exact finish_fail op n e
  · exact finish_fail op n _

theorem finish_load (op : Op) (p : Purpose) (n : ℕ) :
    finish cfg now faults op (n + 4) service (.load p []) = finish cfg now faults op n service
      (afterLoad cfg op p (loadPair cfg service.files faults p.record.id)) := by
  rw [loadPair_eq]
  have hfail : ∀ (m : ℕ) (contents : List Bytes) (e : PkiError),
      readSecure cfg service.files faults p.record.id (nextFile contents) = .error e →
      finish cfg now faults op (m + 1) service (.load p contents) =
        finish cfg now faults op n service (afterLoad cfg op p (.error e)) := by
    intro m contents e he
    have hstep : callStep cfg service now faults op (.load p contents) = _ := callStep_load op p contents
    rw [he] at hstep
    rw [finish_succ op m hstep]
    unfold afterLoad
    rw [finish_failLoad, finish_failLoad]
  have hread : ∀ (m : ℕ) (contents : List Bytes) (pem : Bytes),
      readSecure cfg service.files faults p.record.id (nextFile contents) = .ok pem →
      finish cfg now faults op (m + 1) service (.load p contents) =
        finish cfg now faults op m service
          (afterRead cfg op.id p (contents ++ [pem])) := by
    intro m contents pem he
    have hstep : callStep cfg service now faults op (.load p contents) = _ := callStep_load op p contents
    rw [he] at hstep
    exact finish_succ op m hstep
  rcases hca : readSecure cfg service.files faults p.record.id .caCrt with e | ca
  · exact hfail (n + 3) [] e hca
  rw [hread (n + 3) [] ca hca]
  rcases hserver : readSecure cfg service.files faults p.record.id .serverCrt with e | server
  · exact hfail (n + 2) [ca] e hserver
  refine (hread (n + 2) [ca] server hserver).trans ?_
  rcases hkey : readSecure cfg service.files faults p.record.id .serverKey with e | key
  · exact hfail (n + 1) [ca, server] e hkey
  refine (hread (n + 1) [ca, server] key hkey).trans ?_
  rcases hclient : readSecure cfg service.files faults p.record.id .clientCrt with e | client
  · exact hfail n [ca, server, key] e hclient
  refine (hread n [ca, server, key] client hclient).trans ?_
  show finish cfg now faults op n service (match parsePair cfg p.record.id ca server key client with
    | .error e => _
    | .ok l => _) =
    finish cfg now faults op n service (afterLoad cfg op p (parsePair cfg p.record.id ca server key client))
  unfold afterLoad
  rcases parsePair cfg p.record.id ca server key client with e | l <;> rfl

theorem start_download {r : PkiRecord} (hr : record service.rows faults id = .ok r) :
    callStep cfg service now faults (.download id) .start = some (service, match checkDownload now r with
      | .error e => .fail e
      | .ok () => .exists r) := by
  simp only [callStep, hr, bind, Except.bind]
  rcases checkDownload now r with e | _ <;> rfl

theorem start_revoke {r : PkiRecord} (hr : record service.rows faults id = .ok r) :
    callStep cfg service now faults (.revoke id) .start = some (service,
      if r.status = .revoked then .fail (.conflict "pair is already revoked") else .load (.revoke r) []) := by
  simp only [callStep, hr, bind, Except.bind]
  by_cases hrev : r.status = .revoked
  · simp only [hrev, if_true]
    rfl
  · simp only [hrev, if_false]
    rfl

theorem finish_download :
    finish cfg now faults (.download id) 9 service .start =
      ((download cfg service now faults id).1, .done ((download cfg service now faults id).2.map some)) := by
  unfold download bundleOf loadClientKey
  rcases hr : record service.rows faults id with e | r
  · have hstep : callStep cfg service now faults (.download id) .start = some (service, .fail e) := by
      simp only [callStep, hr]
      rfl
    rw [finish_succ _ 8 hstep, finish_fail]
    rfl
  rw [finish_succ _ 8 (start_download hr)]
  rcases hc : checkDownload now r with e | _
  · rw [finish_fail]
    simp only [bind, Except.bind, hc]
    rfl
  by_cases hk : hasClientKey service.files id = true
  · have hstep : callStep cfg service now faults (.download id) (.exists r) = some (service, .readKey r) := by
      simp only [callStep, hk, if_true]
    rw [finish_succ _ 7 hstep]
    rcases hread : readSecure cfg service.files faults id .clientKey with e | key
    · have hstep : callStep cfg service now faults (.download id) (.readKey r) = some (service, .fail e) := by
        simp only [callStep, hread]
      rw [finish_succ _ 6 hstep, finish_fail]
      simp only [bind, Except.bind, hc, hk, if_true]
      rfl
    · have hstep : callStep cfg service now faults (.download id) (.readKey r) =
          some (service, .load (.download r key) []) := by
        simp only [callStep, hread]
      rw [finish_succ _ 6 hstep, finish_load _ _ 2]
      simp only [bind, Except.bind, hc, hk, if_true, Purpose.record]
      rcases hl : loadPair cfg service.files faults r.id with e | l
      · exact finish_fail _ 2 e
      · simp only [afterLoad, Purpose.loaded, pure, Except.pure]
        rcases hm : faults .markDownloaded with _ | e
        · rcases hrem : faults .removeClientKey with _ | e
          · simp only [finish, callStep, hm, hrem]
            rfl
          · simp only [finish, callStep, hm, hrem]
            rfl
        · simp only [finish, callStep, hm]
          rfl
  · have hstep : callStep cfg service now faults (.download id) (.exists r) =
        some (service, .fail .downloadConsumed) := by
      simp only [callStep, hk, Bool.false_eq_true, if_false]
    rw [finish_succ _ 7 hstep, finish_fail]
    simp only [bind, Except.bind, hc, hk, Bool.false_eq_true, if_false]
    rfl

theorem finish_revoke :
    finish cfg now faults (.revoke id) 7 service .start =
      ((revoke cfg service now faults id).1,
        .done ((revoke cfg service now faults id).2.map fun _ => none)) := by
  unfold revoke findPair
  rcases hr : record service.rows faults id with e | r
  · have hstep : callStep cfg service now faults (.revoke id) .start = some (service, .fail e) := by
      simp only [callStep, hr]
      rfl
    rw [finish_succ _ 6 hstep, finish_fail]
    rfl
  rw [finish_succ _ 6 (start_revoke hr)]
  by_cases hrev : r.status = .revoked
  · rw [if_pos hrev, finish_fail]
    simp only [bind, Except.bind, hrev, if_true]
    rfl
  rw [if_neg hrev, finish_load _ _ 2]
  simp only [bind, Except.bind, hrev, if_false, pure, Except.pure, Purpose.record]
  rcases hl : loadPair cfg service.files faults r.id with e | l
  · exact finish_fail _ 2 _
  simp only [afterLoad, Purpose.loaded]
  rcases hcc : l.clientCert cfg with e | clientCert
  · exact finish_fail _ 2 e
  simp only
  rcases hp : removePair cfg service.runtime r.serverName l.caCert clientCert with ⟨rt, e | _⟩
  · simp only [finish, callStep, hp]
    rfl
  · rcases hrow : faults .revokeRow with _ | e
    · simp only [finish, callStep, hp, hrow]
      rfl
    · simp only [finish, callStep, hp, hrow]
      rfl

/-! ### Who has the key -/

/-- The call has read the key and has not returned. -/
def Pc.inHand : Pc → Bool
  | .load (.download ..) _ => true
  | .mark _ => true
  | .removeKey _ => true
  | _ => false

/-- The call has returned the key. -/
def Pc.returned : Pc → Bool
  | .done (.ok (some _)) => true
  | _ => false

def Pc.isReadKey : Pc → Bool
  | .readKey _ => true
  | _ => false

/-- The pair whose key the call has, or has returned. -/
def Call.keyOf (c : Call) : Option String :=
  match c.op with
  | .download id => if c.pc.inHand || c.pc.returned then some id else none
  | .revoke _ => none

/-- The call returned the key of the pair. -/
def Returned (s : State V) (id : String) (i : ℕ) : Prop :=
  ∃ c, s.calls.lookup i = some c ∧ c.op = .download id ∧ c.pc.returned = true

/-- The key of a pair is read only while no other call has it in hand. -/
def ReadsAlone (s : State V) : Label → Prop
  | .step i => ∀ c ∈ s.calls.lookup i, c.pc.isReadKey →
    ∀ e ∈ s.calls.entries, e.1 ≠ i → e.2.op = c.op → e.2.pc.inHand = false
  | _ => True

/-- The key file of a pair whose key has been returned is gone. -/
def KeysGone (s : State V) : Prop :=
  ∀ i c id, s.calls.lookup i = some c → c.op = .download id → c.pc.returned = true →
    hasClientKey s.service.files id = false

theorem hasClientKey_removeClientKey (files : Files) (id i : String) :
    hasClientKey (removeClientKey files id) i = if i = id then false else hasClientKey files i := by
  unfold hasClientKey removeClientKey
  rw [lookup_modify]
  split_ifs with hi
  · rcases files.lookup i with _ | contents
    · rfl
    · simp
  · rfl

theorem inHand_failLoad (p : Purpose) (id : String) (e : PkiError) :
    (p.failLoad id e).inHand = false ∧ (p.failLoad id e).returned = false := by
  rcases p with _ | _ <;> exact ⟨rfl, rfl⟩

theorem inHand_afterRead (cfg : Config V) (id : String) (p : Purpose) (contents old : List Bytes) :
    ((afterRead cfg id p contents).inHand = true → (Pc.load p old).inHand = true) ∧
      (afterRead cfg id p contents).returned = false := by
  unfold afterRead
  split
  · split
    · rw [(inHand_failLoad p id _).1, (inHand_failLoad p id _).2]
      exact ⟨fun h => (by cases h), rfl⟩
    · rcases p with ⟨r, key⟩ | r
      · exact ⟨fun _ => rfl, rfl⟩
      · simp only [Purpose.loaded]
        split
        · exact ⟨fun h => (by cases h), rfl⟩
        · exact ⟨fun h => (by cases h), rfl⟩
  · rcases p with ⟨r, key⟩ | r
    · exact ⟨fun _ => rfl, rfl⟩
    · exact ⟨fun h => h, rfl⟩

/-- What a step of a call does with keys. -/
structure Touches (service service' : PkiService V) (op : Op) (pc pc' : Pc) : Prop where
  /-- a key comes into a hand when it is read from its file -/
  taken : pc'.inHand = true → pc.inHand = true ∨ pc.isReadKey = true ∧ hasClientKey service.files op.id = true
  /-- it is returned from a hand, when its file has been removed -/
  given : pc'.returned = true → pc.inHand = true ∧ hasClientKey service'.files op.id = false
  kept : pc.returned = false
  /-- no key file appears -/
  files : ∀ i, hasClientKey service'.files i = true → hasClientKey service.files i = true

theorem hasClientKey_of_readSecure {key : Bytes}
    (h : readSecure cfg service.files faults id .clientKey = .ok key) :
    hasClientKey service.files id = true := by
  unfold readSecure at h
  unfold hasClientKey
  rcases hk : (service.files.lookup id).bind (·.lookup .clientKey) with _ | k
  · rw [hk] at h
    rcases hf : faults (.read .clientKey) with _ | e
    · rw [hf] at h
      cases h
    · rw [hf] at h
      cases h
  · rw [hk]
    rfl

theorem Touches.quiet {op : Op} {pc pc' : Pc} (hin : pc'.inHand = true → pc.inHand = true)
    (hret : pc'.returned = false) (hpc : pc.returned = false) (hfiles : service'.files = service.files) :
    Touches service service' op pc pc' := by
  refine ⟨fun h => Or.inl (hin h), fun h => ?_, hpc, fun i h => hfiles ▸ h⟩
  rw [hret] at h
  cases h

theorem touches_fail (op : Op) {pc : Pc} (hpc : pc.returned = false) (hfiles : service'.files = service.files)
    (e : PkiError) : Touches service service' op pc (.fail e) :=
  Touches.quiet (fun h => (by cases h)) rfl hpc hfiles

theorem touches_load {op : Op} {p : Purpose} {contents : List Bytes} {pc' : Pc}
    (h : callStep cfg service now faults op (.load p contents) = some (service', pc')) :
    Touches service service' op (.load p contents) pc' := by
  rw [callStep_load] at h
  split at h
  · next e _ =>
    cases h
    obtain ⟨hin, hret⟩ := inHand_failLoad p op.id e
    refine Touches.quiet (fun h => ?_) hret rfl rfl
    rw [hin] at h
    cases h
  · next pem _ =>
    cases h
    obtain ⟨hin, hret⟩ := inHand_afterRead cfg op.id p (contents ++ [pem]) contents
    exact Touches.quiet hin hret rfl rfl

theorem touches_of_callStep {op : Op} {pc pc' : Pc}
    (h : callStep cfg service now faults op pc = some (service', pc')) :
    Touches service service' op pc pc' := by
  rcases op with id | id
  · rcases pc with _ | r | r | ⟨p, contents⟩ | b | b | ⟨r, ca, cc⟩ | _ | res
    · simp only [callStep] at h
      split at h
      · cases h
        exact touches_fail _ rfl rfl _
      · cases h
        exact Touches.quiet (fun h => (by cases h)) rfl rfl rfl
    · simp only [callStep] at h
      cases h
      split_ifs
      · exact Touches.quiet (fun h => (by cases h)) rfl rfl rfl
      · exact touches_fail _ rfl rfl _
    · simp only [callStep] at h
      rcases hread : readSecure cfg service.files faults id .clientKey with e | key
      · simp only [hread] at h
        cases h
        exact touches_fail _ rfl rfl _
      · simp only [hread] at h
        cases h
        exact ⟨fun _ => Or.inr ⟨rfl, hasClientKey_of_readSecure hread⟩, fun h => (by cases h), rfl,
          fun i hi => hi⟩
    · exact touches_load h
    · simp only [callStep] at h
      split at h
      · cases h
        exact touches_fail _ rfl rfl _
      · cases h
        exact Touches.quiet (fun _ => rfl) rfl rfl rfl
    · simp only [callStep] at h
      split at h
      · cases h
        exact touches_fail _ rfl rfl _
      · cases h
        refine ⟨fun h => (by cases h), fun _ => ⟨rfl, ?_⟩, rfl, fun i hi => ?_⟩
        · show hasClientKey (removeClientKey service.files id) id = false
          rw [hasClientKey_removeClientKey, if_pos rfl]
        · rw [hasClientKey_removeClientKey] at hi
          split_ifs at hi
          exact hi
    · cases h
    · cases h
    · cases h
  · rcases pc with _ | r | r | ⟨p, contents⟩ | b | b | ⟨r, ca, cc⟩ | _ | res
    · simp only [callStep] at h
      split at h
      · cases h
        exact touches_fail _ rfl rfl _
      · cases h
        exact Touches.quiet (fun h => (by cases h)) rfl rfl rfl
    · cases h
    · cases h
    · exact touches_load h
    · cases h
    · cases h
    · simp only [callStep] at h
      split at h
      · cases h
        exact Touches.quiet (fun h => (by cases h)) rfl rfl rfl
      · cases h
        exact Touches.quiet (fun h => (by cases h)) rfl rfl rfl
    · simp only [callStep] at h
      split at h
      · cases h
        exact touches_fail _ rfl rfl _
      · cases h
        exact Touches.quiet (fun h => (by cases h)) rfl rfl rfl
    · cases h

/-! ### Whole runs -/

/-- What a step is. -/
inductive Move (cfg : Config V) (s : State V) : Label → State V → Prop
  | advance (d : ℕ) : Move cfg s (.advance d) { s with clock := s.clock + d }
  | start (i : ℕ) (op : Op) (faults : Faults) (hi : s.calls.lookup i = none) :
    Move cfg s (.start i op faults) { s with calls := s.calls.insert i ⟨op, faults, .start⟩ }
  | step (i : ℕ) (c : Call) (service : PkiService V) (pc : Pc) (hi : s.calls.lookup i = some c)
      (hs : callStep cfg s.service s.clock c.faults c.op c.pc = some (service, pc)) :
    Move cfg s (.step i) { s with service := service, calls := s.calls.insert i { c with pc := pc } }

theorem move_of_step {s s' : State V} {l : Label} (h : step cfg s l = some s') : Move cfg s l s' := by
  rcases l with d | ⟨i, op, faults⟩ | i
  · cases h
    exact .advance d
  · unfold step at h
    rcases hi : s.calls.lookup i with _ | c
    · simp only [hi] at h
      cases h
      exact .start i op faults hi
    · simp only [hi] at h
      cases h
  · unfold step at h
    rcases hi : s.calls.lookup i with _ | c
    · simp [hi] at h
    · rcases hs : callStep cfg s.service s.clock c.faults c.op c.pc with _ | ⟨service, pc⟩
      · simp [hi, hs] at h
      · simp only [hi, hs, Option.bind_eq_bind, Option.bind_some] at h
        cases h
        exact .step i c service pc hi hs

/-- At most one call has the key of a pair or has returned it, and what was returned is no longer stored. -/
structure Once (s : State V) : Prop where
  exclusive : Exclusive Call.keyOf s.calls
  gone : KeysGone s

theorem once_init (service : PkiService V) (now : ℤ) : Once (init service now) := by
  refine ⟨exclusive_empty, fun i c id hi => ?_⟩
  cases hi

theorem keyOf_eq_some {c : Call} {id : String} :
    c.keyOf = some id ↔ c.op = .download id ∧ (c.pc.inHand = true ∨ c.pc.returned = true) := by
  unfold Call.keyOf
  rcases c with ⟨id' | id', faults, pc⟩
  · simp only [Option.ite_none_right_eq_some, Bool.or_eq_true, Option.some.injEq, Op.download.injEq]
    exact And.comm
  · simp

/-- A key is taken only from a file, and then no call has returned it. -/
theorem once_step {s s' : State V} {l : Label} (h : Once s) (hC : ReadsAlone s l)
    (hs : step cfg s l = some s') : Once s' := by
  rcases move_of_step hs with d | ⟨i, op, faults, hi⟩ | ⟨i, c, service, pc, hi, hst⟩
  · exact ⟨h.exclusive, h.gone⟩
  · refine ⟨h.exclusive.insert fun u hu => ?_, fun j d id hj hop hret => ?_⟩
    · obtain ⟨-, hpc⟩ := keyOf_eq_some.mp hu
      simp [Pc.inHand, Pc.returned] at hpc
    · rw [lookup_insert] at hj
      split_ifs at hj
      · cases hj
        cases hret
      · exact h.gone j d id hj hop hret
  · have ht := touches_of_callStep hst
    refine ⟨h.exclusive.insert fun id hu => ?_, fun j d id hj hop hret => ?_⟩
    · obtain ⟨hop, hpc⟩ := keyOf_eq_some.mp hu
      have hid : c.op = .download id := hop
      rcases hpc with hin | hret
      · rcases ht.taken hin with hold | ⟨hread, hfile⟩
        · exact Or.inl ⟨c, hi, keyOf_eq_some.mpr ⟨hid, Or.inl hold⟩⟩
        · refine Or.inr fun j d hj hd => ?_
          obtain ⟨hdop, hdpc⟩ := keyOf_eq_some.mp hd
          have hfile : hasClientKey s.service.files id = true := by
            rw [hid] at hfile
            exact hfile
          rcases hdpc with hdin | hdret
          · have hne : j ≠ i := by
              rintro rfl
              rw [hi] at hj
              cases hj
              rcases hcpc : c.pc with _ | _ | _ | _ | _ | _ | _ | _ | _
              all_goals simp [hcpc, Pc.isReadKey] at hread
              simp [hcpc, Pc.inHand] at hdin
            have hfree := hC c hi hread ⟨j, d⟩ ((mem_entries_iff _ _ _).mpr hj) hne (hdop.trans hid.symm)
            rw [hdin] at hfree
            cases hfree
          · have hgone := h.gone j d id hj hdop hdret
            rw [hgone] at hfile
            cases hfile
      · exact Or.inl ⟨c, hi, keyOf_eq_some.mpr ⟨hid, Or.inl (ht.given hret).1⟩⟩
    · rw [Bool.eq_false_iff]
      intro hfile
      rw [lookup_insert] at hj
      split_ifs at hj with hji
      · cases hj
        have hid : c.op = .download id := hop
        have hfalse := (ht.given hret).2
        rw [hid] at hfalse
        exact absurd hfile (by rw [Bool.eq_false_iff] at hfalse; exact hfalse)
      · have hgone := h.gone j d id hj hop hret
        rw [ht.files id hfile] at hgone
        cases hgone

/-- **The client key of a pair is returned once at most**, in a run where no call reads the key while another
one has it in hand. -/
theorem key_returned_once {service : PkiService V} {now : ℤ} {ls : List Label} {s : State V}
    (hC : AllSteps (step cfg) ReadsAlone (init service now) ls)
    (h : run (step cfg) (init service now) ls = some s) {id : String} {i j : ℕ}
    (hi : Returned s id i) (hj : Returned s id j) : i = j := by
  have honce : Once s := run_invariant_of (I := Once)
    (fun _ _ _ hI hl hs => once_step hI hl hs) ls _ s (once_init service now) hC h
  obtain ⟨c, hci, hcop, hcret⟩ := hi
  obtain ⟨d, hdj, hdop, hdret⟩ := hj
  exact honce.exclusive i j c d id hci hdj (keyOf_eq_some.mpr ⟨hcop, Or.inr hcret⟩)
    (keyOf_eq_some.mpr ⟨hdop, Or.inr hdret⟩)

/-! ### Two downloads at once -/

instance (s : State V) : ∀ l : Label, Decidable (ReadsAlone s l)
  | .step i => inferInstanceAs (Decidable (∀ c ∈ s.calls.lookup i, _ → ∀ _ ∈ _, _ → _ → _))
  | .advance _ => isTrue trivial
  | .start .. => isTrue trivial

/-- The service with one pair. -/
def withPair : PkiService (List Cert) :=
  (createPair lenient ⟨∅, ∅, PkiRuntime.empty⟩ 10 noFaults homeRequest "p1"
    (.ok (pairOf [1] [2] [3] 1000))).1

/-- Two downloads and a revocation; the first download has removed the key when the second one reads it. -/
def inTurn : List Label :=
  [.start 0 (.download "p1") noFaults, .start 1 (.download "p1") noFaults, .start 2 (.revoke "p1") noFaults,
    .step 0, .step 1, .step 1] ++ List.replicate 8 (.step 0) ++ List.replicate 7 (.step 2) ++ [.step 1]

theorem returned_of_any {s : State V} {i : ℕ}
    (h : (s.calls.lookup i).any (fun c => c.op = .download id && c.pc.returned) = true) :
    Returned s id i := by
  obtain ⟨c, hc, hret⟩ := (Option.any_eq_true _ _).mp h
  rw [Bool.and_eq_true, decide_eq_true_iff] at hret
  exact ⟨c, hc, hret.1, hret.2⟩

/-- The first one returns the key. -/
theorem key_returned_once_inTurn : ∃ s, run (step lenient) (init withPair 20) inTurn = some s ∧
    Returned s "p1" 0 ∧ ∀ j, Returned s "p1" j → j = 0 := by
  obtain ⟨s, hs, hp⟩ := exists_run (step lenient) (init withPair 20) inTurn
    (fun s => (s.calls.lookup 0).any (fun c => c.op = .download "p1" && c.pc.returned) = true)
    (by decide +kernel)
  exact ⟨s, hs, returned_of_any hp,
    fun j hj => key_returned_once (by decide +kernel) hs hj (returned_of_any hp)⟩

/-- The steps of two downloads alternate. -/
def alternating : List Label :=
  [.start 0 (.download "p1") noFaults, .start 1 (.download "p1") noFaults] ++
    (List.replicate 9 [.step 0, .step 1]).flatten

/-- Both return the key. -/
theorem key_returned_twice : ∃ s, run (step lenient) (init withPair 20) alternating = some s ∧
    Returned s "p1" 0 ∧ Returned s "p1" 1 ∧ ¬ ∀ i j, Returned s "p1" i → Returned s "p1" j → i = j := by
  obtain ⟨s, hs, h0, h1⟩ := exists_run (step lenient) (init withPair 20) alternating
    (fun s => (s.calls.lookup 0).any (fun c => c.op = .download "p1" && c.pc.returned) = true ∧
      (s.calls.lookup 1).any (fun c => c.op = .download "p1" && c.pc.returned) = true) (by decide +kernel)
  exact ⟨s, hs, returned_of_any h0, returned_of_any h1,
    fun hall => absurd (hall 0 1 (returned_of_any h0) (returned_of_any h1)) (by decide)⟩

end HomeLlmGateway.Pki.Download
