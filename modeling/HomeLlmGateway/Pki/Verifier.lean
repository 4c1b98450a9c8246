import HomeLlmGateway.Lib.Runs
import HomeLlmGateway.Lib.Assoc
import HomeLlmGateway.Lib.ByteCodec

/-! # The client verifier

`PkiClientVerifier` (`gateway/src/pki/tls.rs`): the roots that a client certificate may be issued by, and a
verifier of `rustls` that is rebuilt from them when they change. `add_ca` and `remove_ca` change the roots,
read them back and install the rebuilt verifier in three sections, each under its own lock. Alone a call
is what `addCa` and `removeCa` say (`alone`); among others it may install a verifier that was built from roots
which are no longer there (`stale_verifier_installed`). If no call does, or only while another one still has a
newer verifier to install, the installed one matches the roots in the end
(`installed_verifier_matches_roots`). -/

namespace HomeLlmGateway.Pki.Verifier

open HomeLlmGateway.Lib.Runs HomeLlmGateway.Lib.Assoc
open HomeLlmGateway.Lib.ByteCodec (Bytes)

/-! ### Certificates -/

/-- `CertificateDer`. -/
abbrev Cert := Bytes

/-- `PkiError`. -/
inductive PkiError where
  | invalid (message : String)
  | io (message : String)
  | generate (message : String)
  | storage (message : String)
  | notFound
  | conflict (message : String)
  | downloadConsumed
  | expired
  | httpsRequired
  deriving DecidableEq

/-- `Display` of an error. -/
def PkiError.display : PkiError → String
  | .invalid message => "pki: " ++ message
  | .io message => "pki I/O: " ++ message
  | .generate message => "pki certificate generation: " ++ message
  | .storage message => "pki storage: " ++ message
  | .notFound => "pki pair not found"
  | .conflict message => "pki conflict: " ++ message
  | .downloadConsumed => "client private key has already been downloaded; create a new pair"
  | .expired => "credential pair has expired; create a new pair"
  | .httpsRequired => "client private key download requires HTTPS or loopback/SSH tunnel access"

/-- What the verifier uses of `sha2` and `rustls`. -/
structure Crypto (V : Type) where
  /-- `fingerprint_hex` -/
  fingerprintHex : Cert → String
  /-- the error of `RootCertStore::add`, if any -/
  addRoot : Cert → Option String
  /-- `WebPkiClientVerifier::builder(..).build()` -/
  build : List Cert → Except String V
  /-- `verify_client_cert` of such a verifier, at a time -/
  verify : V → Cert → List Cert → ℤ → Except String Unit

variable {V : Type} (c : Crypto V)

/-- The loop of `rebuild`. -/
def addRoots : List Cert → Except PkiError Unit
  | [] => .ok ()
  | cert :: rest =>
    match c.addRoot cert with
    | some e => .error (.invalid ("invalid client CA: " ++ e))
    | none => addRoots rest

def rebuild (roots : List Cert) : Except PkiError (Option V) :=
  if roots.isEmpty then .ok none
  else
    match addRoots c roots, c.build roots with
    | .error e, _ => .error e
    | .ok (), .error e => .error (.invalid ("client verifier: " ++ e))
    | .ok (), .ok v => .ok (some v)

/-- `PkiClientVerifier`. -/
structure PkiClientVerifier (V : Type) where
  inner : Option V
  roots : List Cert
  revoked : Finset String
  deriving DecidableEq

/-- `TlsError`, as far as the verifier returns it. -/
inductive TlsError where
  | revoked
  | unknownIssuer
  /-- an error of the inner verifier -/
  | inner (message : String)
  deriving DecidableEq

def verifyClientCert (v : PkiClientVerifier V) (endEntity : Cert) (intermediates : List Cert) (now : ℤ) :
    Except TlsError Unit :=
  if c.fingerprintHex endEntity ∈ v.revoked then .error .revoked
  else
    match v.inner with
    | none => .error .unknownIssuer
    | some inner => (c.verify inner endEntity intermediates now).mapError .inner

/-! ### The calls -/

inductive Op where
  | addCa (cert : Cert)
  | removeCa (cert : Cert)
  deriving DecidableEq

/-- A root has this fingerprint. -/
def trusts (roots : List Cert) (fp : String) : Bool := roots.any fun r => c.fingerprintHex r = fp

/-- The first section, under the write lock of the roots; `none` if `add_ca` returns there. -/
def changeRoots (roots : List Cert) : Op → Option (List Cert)
  | .addCa cert => if trusts c roots (c.fingerprintHex cert) then none else some (roots ++ [cert])
  | .removeCa cert => some (roots.filter fun r => c.fingerprintHex r ≠ c.fingerprintHex cert)

/-- Where a call of `add_ca` or `remove_ca` stands. -/
inductive Pc (V : Type) where
  | start
  /-- the roots are changed; they are read back next, and the verifier is rebuilt -/
  | reading
  | installing (rebuilt : Option V)
  | done (result : Except PkiError Unit)

/-- It has returned. -/
def Pc.isDone : Pc V → Bool
  | .done _ => true
  | _ => false

/-- It reads the roots next. -/
def Pc.isReading : Pc V → Bool
  | .reading => true
  | _ => false

/-- What it installs next. -/
def Pc.rebuilt : Pc V → Option (Option V)
  | .installing v => some v
  | _ => none

structure Call (V : Type) where
  op : Op
  pc : Pc V

def callStep (v : PkiClientVerifier V) (op : Op) : Pc V → Option (PkiClientVerifier V × Pc V)
  | .start =>
    match changeRoots c v.roots op with
    | none => some (v, .done (.ok ()))
    | some roots => some ({ v with roots := roots }, .reading)
  | .reading =>
    match rebuild c v.roots with
    | .error e => some (v, .done (.error e))
    | .ok rebuilt => some (v, .installing rebuilt)
  | .installing rebuilt => some ({ v with inner := rebuilt }, .done (.ok ()))
  | .done _ => none

/-- One call, with nothing between its sections. -/
def apply (v : PkiClientVerifier V) (op : Op) : PkiClientVerifier V × Except PkiError Unit :=
  match changeRoots c v.roots op with
  | none => (v, .ok ())
  | some roots =>
    match rebuild c roots with
    | .error e => ({ v with roots := roots }, .error e)
    | .ok rebuilt => ({ v with roots := roots, inner := rebuilt }, .ok ())

def addCa (v : PkiClientVerifier V) (cert : Cert) : PkiClientVerifier V × Except PkiError Unit :=
  apply c v (.addCa cert)

def removeCa (v : PkiClientVerifier V) (cert : Cert) : PkiClientVerifier V × Except PkiError Unit :=
  apply c v (.removeCa cert)

/-! ### The system -/

structure State (V : Type) where
  verifier : PkiClientVerifier V
  calls : HashMap ℕ (Call V)

/-- `PkiClientVerifier::default()`. -/
def init : State V := ⟨⟨none, [], ∅⟩, ∅⟩

inductive Label where
  /-- the call `i` begins -/
  | start (i : ℕ) (op : Op)
  /-- it goes through its next section -/
  | step (i : ℕ)
  deriving DecidableEq

def step (s : State V) : Label → Option (State V)
  | .start i op =>
    match s.calls.lookup i with
    | none => some { s with calls := s.calls.insert i ⟨op, .start⟩ }
    | some _ => none
  | .step i =>
    (s.calls.lookup i).bind fun call =>
      (callStep c s.verifier call.op call.pc).map fun p =>
        ⟨p.1, s.calls.insert i { call with pc := p.2 }⟩

variable {c} {s s' : State V} {l : Label}

/-- What a step is. -/
inductive Move (c : Crypto V) (s : State V) : Label → State V → Prop
  | start (i : ℕ) (op : Op) (hi : s.calls.lookup i = none) :
    Move c s (.start i op) { s with calls := s.calls.insert i ⟨op, .start⟩ }
  | known (i : ℕ) (op : Op) (hi : s.calls.lookup i = some ⟨op, .start⟩)
      (hr : changeRoots c s.verifier.roots op = none) :
    Move c s (.step i) { s with calls := s.calls.insert i ⟨op, .done (.ok ())⟩ }
  | change (i : ℕ) (op : Op) (roots : List Cert) (hi : s.calls.lookup i = some ⟨op, .start⟩)
      (hr : changeRoots c s.verifier.roots op = some roots) :
    Move c s (.step i) ⟨{ s.verifier with roots := roots }, s.calls.insert i ⟨op, .reading⟩⟩
  | fail (i : ℕ) (op : Op) (e : PkiError) (hi : s.calls.lookup i = some ⟨op, .reading⟩)
      (hr : rebuild c s.verifier.roots = .error e) :
    Move c s (.step i) { s with calls := s.calls.insert i ⟨op, .done (.error e)⟩ }
  | read (i : ℕ) (op : Op) (v : Option V) (hi : s.calls.lookup i = some ⟨op, .reading⟩)
      (hr : rebuild c s.verifier.roots = .ok v) :
    Move c s (.step i) { s with calls := s.calls.insert i ⟨op, .installing v⟩ }
  | install (i : ℕ) (op : Op) (v : Option V) (hi : s.calls.lookup i = some ⟨op, .installing v⟩) :
    Move c s (.step i) ⟨{ s.verifier with inner := v }, s.calls.insert i ⟨op, .done (.ok ())⟩⟩

theorem move_of_step (h : step c s l = some s') : Move c s l s' := by
  rcases l with ⟨i, op⟩ | i
  · simp only [step] at h
    split at h
    · next hi =>
      cases h
      exact .start i op hi
    · cases h
  · simp only [step, Option.bind_eq_some_iff, Option.map_eq_some_iff] at h
    obtain ⟨⟨op, pc⟩, hc, ⟨v', pc'⟩, hst, rfl⟩ := h
    rcases pc with _ | _ | v | r <;> simp only [callStep] at hst
    · split at hst
      · next hr =>
        cases hst
        exact .known i op hc hr
      · next roots hr =>
        cases hst
        exact .change i op roots hc hr
    · split at hst
      · next e he =>
        cases hst
        exact .fail i op e hc he
      · next v hv =>
        cases hst
        exact .read i op v hc hv
    · cases hst
      exact .install i op v hc
    · cases hst

/-! ### A call alone -/

/-- The sections of one call, one after the other, are `apply`. -/
theorem alone (i : ℕ) (op : Op) (hi : s.calls.lookup i = none) :
    ∃ n s', run (step c) s (.start i op :: List.replicate n (.step i)) = some s' ∧
      s'.verifier = (apply c s.verifier op).1 ∧
      s'.calls.lookup i = some ⟨op, .done (apply c s.verifier op).2⟩ := by
  have hbegin : step c s (.start i op) = some { s with calls := s.calls.insert i ⟨op, .start⟩ } := by
    simp only [step, hi]
  have hgo : ∀ (t t' : PkiClientVerifier V) (calls : HashMap ℕ (Call V)) (pc pc' : Pc V),
      calls.lookup i = some ⟨op, pc⟩ → callStep c t op pc = some (t', pc') →
      step c ⟨t, calls⟩ (.step i) = some ⟨t', calls.insert i ⟨op, pc'⟩⟩ := by
    intro t t' calls pc pc' hl hst
    simp [step, hl, hst]
  have hself : ∀ (calls : HashMap ℕ (Call V)) (pc : Pc V),
      (calls.insert i ⟨op, pc⟩).lookup i = some ⟨op, pc⟩ := fun calls pc => AList.lookup_insert _
  rcases hr : changeRoots c s.verifier.roots op with _ | roots
  · refine ⟨1, _, run_cons_eq_some.mpr ⟨_, hbegin, run_cons_eq_some.mpr ⟨_,
      hgo s.verifier s.verifier _ .start (.done (.ok ())) (hself _ _) (by simp only [callStep, hr]),
      rfl⟩⟩, ?_, ?_⟩
    · simp only [apply, hr]
    · simp only [apply, hr]
      exact hself _ _
  · have h1 := hgo s.verifier { s.verifier with roots := roots } _ .start .reading
      (hself s.calls _) (by simp only [callStep, hr])
    rcases hb : rebuild c roots with e | v
    · refine ⟨2, _, run_cons_eq_some.mpr ⟨_, hbegin, run_cons_eq_some.mpr ⟨_, h1,
        run_cons_eq_some.mpr ⟨_, hgo _ { s.verifier with roots := roots } _ .reading (.done (.error e))
          (hself _ _) (by simp only [callStep, hb]), rfl⟩⟩⟩, ?_, ?_⟩
      · simp only [apply, hr, hb]
      · simp only [apply, hr, hb]
        exact hself _ _
    · have h2 := hgo { s.verifier with roots := roots } { s.verifier with roots := roots } _ .reading
        (.installing v) (hself (s.calls.insert i ⟨op, .start⟩) _) (by simp only [callStep, hb])
      refine ⟨3, _, run_cons_eq_some.mpr ⟨_, hbegin, run_cons_eq_some.mpr ⟨_, h1,
        run_cons_eq_some.mpr ⟨_, h2, run_cons_eq_some.mpr ⟨_,
          hgo _ { s.verifier with roots := roots, inner := v } _ (.installing v) (.done (.ok ()))
            (hself _ _) rfl, rfl⟩⟩⟩⟩, ?_, ?_⟩
      · simp only [apply, hr, hb]
      · simp only [apply, hr, hb]
        exact hself _ _

/-! ### Which verifier is installed -/

/-- Every call has returned. -/
def Quiescent (s : State V) : Prop := ∀ i call, s.calls.lookup i = some call → call.pc.isDone

/-- The call will still install a verifier, and as things are it will be that of the roots. -/
def Pending (c : Crypto V) (roots : List Cert) : Pc V → Prop
  | .reading => True
  | .installing v => rebuild c roots = .ok v
  | _ => False

theorem not_pending_of_isDone {pc : Pc V} (h : pc.isDone = true) (roots : List Cert) :
    ¬ Pending c roots pc := by
  rcases pc with _ | _ | v | r
  · exact id
  · cases h
  · cases h
  · exact id

/-- The rebuild of this step, if it makes one, succeeds. -/
def Rebuilds (c : Crypto V) (s : State V) : Label → Prop
  | .start .. => True
  | .step i => ∀ call ∈ s.calls.lookup i, call.pc.isReading → (rebuild c s.verifier.roots).isOk

/-- A call installs the verifier of the roots, or another call is still going to. -/
def InstallsFresh (c : Crypto V) (s : State V) : Label → Prop
  | .start .. => True
  | .step i => ∀ call ∈ s.calls.lookup i, ∀ v ∈ call.pc.rebuilt,
    rebuild c s.verifier.roots = .ok v ∨
      ∃ e ∈ s.calls.entries, e.1 ≠ i ∧ Pending c s.verifier.roots e.2.pc

instance [DecidableEq V] (roots : List Cert) : ∀ pc : Pc V, Decidable (Pending c roots pc)
  | .start => isFalse id
  | .reading => isTrue trivial
  | .installing _ => inferInstanceAs (Decidable (_ = _))
  | .done _ => isFalse id

instance (s : State V) : Decidable (Quiescent s) :=
  decidable_of_iff (∀ e ∈ s.calls.entries, e.2.pc.isDone)
    ⟨fun h i call hi => h ⟨i, call⟩ ((mem_entries_iff _ _ _).mpr hi),
      fun h e he => h e.1 e.2 ((mem_entries_iff _ _ _).mp he)⟩

instance (s : State V) : ∀ l, Decidable (Rebuilds c s l)
  | .start .. => isTrue trivial
  | .step i => inferInstanceAs (Decidable (∀ call ∈ s.calls.lookup i, _ → _))

instance [DecidableEq V] (s : State V) : ∀ l, Decidable (InstallsFresh c s l)
  | .start .. => isTrue trivial
  | .step i => inferInstanceAs (Decidable (∀ call ∈ s.calls.lookup i, ∀ v ∈ call.pc.rebuilt, _ ∨ _))

/-- The invariant. -/
def Covered (c : Crypto V) (s : State V) : Prop :=
  rebuild c s.verifier.roots = .ok s.verifier.inner ∨
    ∃ j call, s.calls.lookup j = some call ∧ Pending c s.verifier.roots call.pc

theorem covered_init : Covered c (init : State V) := Or.inl rfl

theorem Covered.goOn (h : Covered c s) {i : ℕ} {call : Call V}
    (hi : ∀ old, s.calls.lookup i = some old → ¬ Pending c s.verifier.roots old.pc) :
    Covered c { s with calls := s.calls.insert i call } := by
  rcases h with h | ⟨j, old, hj, hp⟩
  · exact Or.inl h
  · refine Or.inr ⟨j, old, ?_, hp⟩
    have hne : j ≠ i := by
      rintro rfl
      exact hi old hj hp
    show (s.calls.insert i call).lookup j = some old
    rw [lookup_insert, if_neg hne]
    exact hj

theorem covered_step (h : Covered c s) (hr : Rebuilds c s l) (hf : InstallsFresh c s l)
    (hs : step c s l = some s') : Covered c s' := by
  have hself : ∀ (calls : HashMap ℕ (Call V)) (i : ℕ) (call : Call V),
      (calls.insert i call).lookup i = some call := fun calls i call => AList.lookup_insert _
  cases move_of_step hs with
  | start i op hi =>
    refine h.goOn fun old ho => ?_
    rw [hi] at ho
    cases ho
  | known i op hi hk =>
    refine h.goOn fun old ho => ?_
    rw [hi] at ho
    cases ho
    exact id
  | change i op roots hi hk => exact Or.inr ⟨i, _, hself _ _ _, trivial⟩
  | fail i op e hi he =>
    have hok := hr _ hi rfl
    rw [he] at hok
    cases hok
  | read i op v hi hv => exact Or.inr ⟨i, _, hself _ _ _, hv⟩
  | install i op v hi =>
    rcases hf _ hi v rfl with hv | ⟨⟨j, call⟩, hm, hne, hp⟩
    · exact Or.inl hv
    · have hj := (mem_entries_iff s.calls j call).mp hm
      refine Or.inr ⟨j, call, ?_, hp⟩
      show (s.calls.insert i _).lookup j = some call
      rw [lookup_insert, if_neg hne]
      exact hj

/-! ### Roots that are taken out -/

/-- The step puts a certificate with this fingerprint among the roots. -/
def Adds (c : Crypto V) (fp : String) (s : State V) (l : Label) : Prop :=
  ∃ i cert, l = .step i ∧ s.calls.lookup i = some ⟨.addCa cert, .start⟩ ∧ c.fingerprintHex cert = fp

/-- In this run a call of `remove_ca` took the certificates of this fingerprint out of the roots, and none
was put there since. -/
def RemovedIn (c : Crypto V) (ls : List Label) (fp : String) : Prop :=
  ∃ as i bs s1 s2 cert, ls = as ++ .step i :: bs ∧ run (step c) init as = some s1 ∧
    s1.calls.lookup i = some ⟨.removeCa cert, .start⟩ ∧ c.fingerprintHex cert = fp ∧
    step c s1 (.step i) = some s2 ∧ AllSteps (step c) (fun s l => ¬ Adds c fp s l) s2 bs

theorem untrusted_step {fp : String} (h : ∀ r ∈ s.verifier.roots, c.fingerprintHex r ≠ fp)
    (hl : ¬ Adds c fp s l) (hs : step c s l = some s') :
    ∀ r ∈ s'.verifier.roots, c.fingerprintHex r ≠ fp := by
  cases move_of_step hs with
  | start | known | fail | read | install => exact h
  | change i op roots hi hk =>
    rcases op with cert | cert <;> simp only [changeRoots] at hk
    · split_ifs at hk
      cases hk
      intro r hr hfp
      rcases List.mem_append.mp hr with hr | hr
      · exact h r hr hfp
      · rw [List.mem_singleton.mp hr] at hfp
        exact hl ⟨i, cert, rfl, hi, hfp⟩
    · cases hk
      intro r hr
      exact h r (List.mem_filter.mp hr).1

theorem untrusted_of_removedIn {ls : List Label} {fp : String} (hr : RemovedIn c ls fp)
    (h : run (step c) init ls = some s) : ∀ r ∈ s.verifier.roots, c.fingerprintHex r ≠ fp := by
  obtain ⟨as, i, bs, s1, s2, cert, rfl, h1, hi, hfp, h2, hbs⟩ := hr
  have hrest : run (step c) s2 bs = some s := by
    rw [run_append, h1, Option.bind_some, run_cons_eq_some] at h
    obtain ⟨s3, h3, h4⟩ := h
    rw [h2] at h3
    cases h3
    exact h4
  refine run_invariant_of (I := fun s => ∀ r ∈ s.verifier.roots, c.fingerprintHex r ≠ fp)
    (fun _ _ _ hI hC hs => untrusted_step hI hC hs) bs s2 s ?_ hbs hrest
  simp only [step, hi, Option.bind_some, callStep, changeRoots, Option.map_some, Option.some.injEq] at h2
  subst h2
  intro r hr
  have := (List.mem_filter.mp hr).2
  simpa [hfp] using this

/-! ### The main result -/

/-- **The installed verifier matches the roots.** In every run whose rebuilds succeed and whose calls
install a verifier only if it is that of the roots or another call is still going to install that one: when
all calls have returned, the inner verifier is the one of the current roots, none if there are none. A
fingerprint that was removed and not added since is not among the roots it was built from. -/
theorem installed_verifier_matches_roots {ls : List Label}
    (hC : AllSteps (step c) (fun s l => Rebuilds c s l ∧ InstallsFresh c s l) init ls)
    (h : run (step c) init ls = some s) (hq : Quiescent s) :
    rebuild c s.verifier.roots = .ok s.verifier.inner ∧
      (s.verifier.roots = [] → ∀ cert chain now, ∃ e, verifyClientCert c s.verifier cert chain now = .error e) ∧
      ∀ fp, RemovedIn c ls fp → ∃ roots, rebuild c roots = .ok s.verifier.inner ∧
        ∀ r ∈ roots, c.fingerprintHex r ≠ fp := by
  have hcov : Covered c s := run_invariant_of (I := Covered c)
    (fun _ _ _ hI hl hs => covered_step hI hl.1 hl.2 hs) ls init s covered_init hC h
  have hinner : rebuild c s.verifier.roots = .ok s.verifier.inner := by
    rcases hcov with hv | ⟨j, call, hj, hp⟩
    · exact hv
    · exact absurd hp (not_pending_of_isDone (hq j call hj) _)
  refine ⟨hinner, fun hnil cert chain now => ?_, fun fp hfp => ⟨_, hinner, untrusted_of_removedIn hfp h⟩⟩
  have hnone : s.verifier.inner = none := by
    rw [hnil] at hinner
    exact (Except.ok.inj hinner).symm
  unfold verifyClientCert
  rw [hnone]
  split_ifs
  · exact ⟨_, rfl⟩
  · exact ⟨_, rfl⟩

/-! ### Two calls at once -/

/-- A `rustls` whose verifiers are the lists of roots they are built from; two certificates. -/
def plain : Crypto (List Cert) where
  fingerprintHex cert := if cert = [1] then "01" else "02"
  addRoot _ := none
  build roots := .ok roots
  verify _ _ _ _ := .ok ()

/-- One certificate is replaced by another while the calls overlap. -/
def replaces : List Label :=
  [.start 0 (.addCa [1]), .step 0, .step 0, .step 0, .start 1 (.addCa [2]), .start 2 (.removeCa [1]),
    .step 1, .step 2, .step 1, .step 2, .step 2, .step 1]

/-- The verifier of the second certificate is installed. -/
theorem installed_verifier_matches_roots_replaced : ∃ s, run (step plain) init replaces = some s ∧
    s.verifier.roots = [[2]] ∧ rebuild plain s.verifier.roots = .ok s.verifier.inner := by
  obtain ⟨s, hs, hp⟩ := exists_run (step plain) init replaces
    (fun s => s.verifier.roots = [[2]] ∧ Quiescent s) (by decide)
  exact ⟨s, hs, hp.1, (installed_verifier_matches_roots (by decide) hs hp.2).1⟩

/-- A certificate is added and removed at once; the call that added it installs its verifier last. -/
def overtaken : List Label :=
  [.start 0 (.addCa [1]), .step 0, .step 0, .start 1 (.removeCa [1]), .step 1, .step 1, .step 1, .step 0]

/-- Every rebuild succeeds, all calls have returned, there are no roots, and a verifier of the removed
certificate is installed. -/
theorem stale_verifier_installed : ∃ s, run (step plain) init overtaken = some s ∧
    AllSteps (step plain) (Rebuilds plain) init overtaken ∧ Quiescent s ∧
    s.verifier.roots = [] ∧ s.verifier.inner = some [[1]] ∧
    rebuild plain s.verifier.roots ≠ .ok s.verifier.inner := by
  obtain ⟨s, hs, hq, hroots, hinner⟩ := exists_run (step plain) init overtaken
    (fun s => Quiescent s ∧ s.verifier.roots = [] ∧ s.verifier.inner = some [[1]]) (by decide)
  refine ⟨s, hs, by decide, hq, hroots, hinner, fun h => ?_⟩
  rw [hroots, hinner] at h
  cases h

end HomeLlmGateway.Pki.Verifier
