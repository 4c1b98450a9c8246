import HomeLlmGateway.Lib.Runs
import HomeLlmGateway.Pki.Service

/-! # Active pairs are served

The life of the pairs as a run: pairs are created, downloaded, revoked and used, time passes, the process is
restarted, and no file operation and no statement fails. A record is active while it is neither revoked nor
expired. In the table there is one active record for each server name at most, but the live state is keyed by
the server name alone, and `revoke` takes the entry of the server name out whichever record it belongs to. So
a record that has expired and whose name is in use again must not be revoked: in a run where none is, every
active record is served (`every_active_pair_is_served`), and without that it need not be
(`revoked_expired_pair_unserves`). -/

namespace HomeLlmGateway.Pki.Pairs

open HomeLlmGateway.Lib.Runs HomeLlmGateway.Lib.Assoc
open HomeLlmGateway.Proto.Http (toAsciiLowercase)
open HomeLlmGateway.Pki.Verifier HomeLlmGateway.Pki.Service

/-! ### Runs -/

structure State (V : Type) where
  service : PkiService V
  clock : ℤ

inductive Label where
  | advance (d : ℕ)
  | createPair (req : CreateRequest) (id : String) (generated : Except String GeneratedPair)
  | download (id : String)
  | revoke (id : String)
  | markConnected (serverName : String)
  | restart

variable {V : Type} (cfg : Config V)

/-- A process that cannot load the active pairs does not start. -/
def step (s : State V) : Label → Option (State V)
  | .advance d => some { s with clock := s.clock + d }
  | .createPair req id generated =>
    some { s with service := (createPair cfg s.service s.clock noFaults req id generated).1 }
  | .download id => some { s with service := (download cfg s.service s.clock noFaults id).1 }
  | .revoke id => some { s with service := (revoke cfg s.service s.clock noFaults id).1 }
  | .markConnected serverName =>
    some { s with service := (markConnected s.service s.clock noFaults serverName).1 }
  | .restart =>
    match loadActivePairs cfg s.service.files s.service.rows noFaults s.clock with
    | .error _ => none
    | .ok rt => some { s with service := { s.service with runtime := rt } }

/-- No pair yet. -/
def init (now : ℤ) : State V := ⟨⟨∅, ∅, PkiRuntime.empty⟩, now⟩

/-! ### What is claimed -/

/-- Neither revoked nor expired. -/
def Active (now : ℤ) (r : PkiRecord) : Prop := r.status ≠ .revoked ∧ now < r.clientNotAfter

instance (now : ℤ) (r : PkiRecord) : Decidable (Active now r) := inferInstanceAs (Decidable (_ ∧ _))

/-- The resolver has the record's own certificate under its server name, the server name leads to the record,
and its CA is trusted. -/
structure Served (cfg : Config V) (files : Files) (rt : PkiRuntime V) (r : PkiRecord) : Prop where
  resolver : ∃ l key, loadPair cfg files noFaults r.id = .ok l ∧ l.certifiedKey cfg = .ok key ∧
    rt.resolver.lookup (toAsciiLowercase r.serverName) = some key ∧
    key.chain.head?.map cfg.fingerprintHex = some r.serverFingerprintSha256
  pairId : rt.pairIdForServer r.serverName = some r.id
  trusted : trusts cfg.toCrypto rt.verifier.roots r.caFingerprintSha256 = true

structure AllServed (cfg : Config V) (s : State V) : Prop where
  unique : ∀ i j r r', s.service.rows.lookup i = some r → s.service.rows.lookup j = some r' →
    Active s.clock r → Active s.clock r' → r.serverName = r'.serverName → i = j
  served : ∀ id r, s.service.rows.lookup id = some r → Active s.clock r →
    Served cfg s.service.files s.service.runtime r
  untrusted : ∀ id r, s.service.rows.lookup id = some r → r.status = .revoked →
    trusts cfg.toCrypto s.service.runtime.verifier.roots r.caFingerprintSha256 = false

/-! ### What is assumed of the certificates, and the condition -/

/-- The first certificate of a file. -/
def firstCert (pem : Lib.ByteCodec.Bytes) : Option Cert :=
  match cfg.certs pem with
  | .ok (cert :: _) => some cert
  | _ => none

/-- The material is what `rcgen` promises: the files parse, to certificates that have the fingerprints, with a
CA that can be a root and a key that can sign. -/
structure Material (g : GeneratedPair) : Prop where
  ca : ∃ cert ∈ firstCert cfg g.caCertPem, cfg.fingerprintHex cert = g.caFingerprintSha256 ∧
    cfg.addRoot cert = none
  server : ∃ cert ∈ firstCert cfg g.serverCertPem, cfg.fingerprintHex cert = g.serverFingerprintSha256
  key : ∃ key ∈ (cfg.privateKey g.serverKeyPem).toOption.join, cfg.unsupportedKey key = none
  client : (firstCert cfg g.clientCertPem).isSome

/-- A new pair has a random id and new certificates. -/
def Genuine (s : State V) : Label → Prop
  | .createPair _ id (.ok g) =>
    s.service.rows.lookup id = none ∧ Material cfg g ∧
      ∀ e ∈ s.service.rows.entries, e.2.caFingerprintSha256 ≠ g.caFingerprintSha256
  | _ => True

/-- A pair is revoked only while no other active pair has its server name. -/
def SparesActive (s : State V) : Label → Prop
  | .revoke id => ∀ r ∈ s.service.rows.lookup id, r.status ≠ .revoked →
    ∀ e ∈ s.service.rows.entries, e.1 ≠ id → Active s.clock e.2 → e.2.serverName ≠ r.serverName
  | _ => True

/-- `build()` of `rustls` succeeds on roots that it has accepted. -/
def Builds (c : Crypto V) : Prop :=
  ∀ roots, roots ≠ [] → (∀ r ∈ roots, c.addRoot r = none) → (c.build roots).isOk

variable {cfg}

theorem rebuild_isOk {c : Crypto V} (hb : Builds c) {roots : List Cert}
    (h : ∀ r ∈ roots, c.addRoot r = none) : ∃ v, rebuild c roots = .ok v := by
  have hadd : ∀ l : List Cert, (∀ r ∈ l, c.addRoot r = none) → addRoots c l = .ok () := by
    intro l
    induction l with
    | nil => exact fun _ => rfl
    | cons a l ih =>
      intro hl
      unfold addRoots
      rw [hl a List.mem_cons_self]
      exact ih fun r hr => hl r (List.mem_cons_of_mem a hr)
  unfold rebuild
  by_cases hnil : roots = []
  · exact ⟨none, by simp [hnil]⟩
  · have hok := hb roots hnil h
    rcases hv : c.build roots with e | v
    · rw [hv] at hok
      cases hok
    · exact ⟨some v, by simp [hnil, hadd roots h]⟩

/-! ### Files and names -/

theorem loadPair_congr {files files' : Files} {id : String}
    (h : ∀ f, f ≠ .clientKey → (files'.lookup id).bind (·.lookup f) = (files.lookup id).bind (·.lookup f)) :
    loadPair cfg files' noFaults id = loadPair cfg files noFaults id := by
  have hread : ∀ f, f ≠ .clientKey →
      readSecure cfg files' noFaults id f = readSecure cfg files noFaults id f := by
    intro f hf
    unfold readSecure
    rw [h f hf]
  unfold loadPair
  rw [hread .caCrt (by decide), hread .serverCrt (by decide), hread .serverKey (by decide),
    hread .clientCrt (by decide)]

theorem loadPair_insert_of_ne {files : Files} {id i : String}
    {contents : HashMap FileName Lib.ByteCodec.Bytes}
    (h : i ≠ id) : loadPair cfg (files.insert id contents) noFaults i = loadPair cfg files noFaults i := by
  refine loadPair_congr fun f _ => ?_
  rw [lookup_insert, if_neg h]

theorem loadPair_removeClientKey (files : Files) (id i : String) :
    loadPair cfg (removeClientKey files id) noFaults i = loadPair cfg files noFaults i := by
  refine loadPair_congr fun f hf => ?_
  unfold removeClientKey
  rw [lookup_modify]
  by_cases hi : i = id
  · rw [if_pos hi]
    rcases files.lookup i with _ | contents
    · rfl
    · show (contents.erase .clientKey).lookup f = contents.lookup f
      rw [lookup_erase, if_neg hf]
  · rw [if_neg hi]

theorem toLower_of_labelChar {c : Char} (h : labelChar c = true) : c.toLower = c := by
  refine Proto.Http.toLower_of_nameChar ?_
  unfold labelChar at h
  unfold Proto.Http.nameChar
  simp only [Bool.or_eq_true] at h ⊢
  rcases h with h | h
  · exact Or.inl h
  · rw [beq_iff_eq.mp h]
    exact Or.inr (by decide)

theorem mem_of_mem_intercalate {x c : Char} : ∀ {parts : List (List Char)}, c ∈ [x].intercalate parts →
    c = x ∨ ∃ part ∈ parts, c ∈ part
  | [], h => by simp [List.intercalate] at h
  | [part], h => Or.inr ⟨part, List.mem_singleton_self part, by simpa [List.intercalate] using h⟩
  | part :: part' :: parts, h => by
    have hc : c ∈ part ∨ c = x ∨ c ∈ [x].intercalate (part' :: parts) := by
      simpa [List.intercalate] using h
    rcases hc with hc | hc | hc
    · exact Or.inr ⟨part, List.mem_cons_self, hc⟩
    · exact Or.inl hc
    · rcases mem_of_mem_intercalate hc with hc | ⟨q, hq, hc⟩
      · exact Or.inl hc
      · exact Or.inr ⟨q, List.mem_cons_of_mem part hq, hc⟩

theorem toAsciiLowercase_of_valid {name : String} (h : validServerName name = true) :
    toAsciiLowercase name = name := by
  unfold validServerName at h
  simp only [Bool.and_eq_true, List.all_eq_true] at h
  have hlabels := h.2
  have hchars : ∀ c ∈ name.toList, c.toLower = c := by
    intro c hc
    have hjoin : ['.'].intercalate (name.toList.splitOn '.') = name.toList := List.intercalate_splitOn '.'
    rw [← hjoin] at hc
    rcases mem_of_mem_intercalate hc with hdot | ⟨part, hpart, hc⟩
    · rw [hdot]
      rfl
    · have hv := hlabels part hpart
      unfold validLabel at hv
      simp only [Bool.and_eq_true, List.all_eq_true] at hv
      exact toLower_of_labelChar (hv.2 c hc)
  unfold toAsciiLowercase
  rw [List.map_congr_left hchars, List.map_id', String.ofList_toList]

/-! ### Lists of records -/

theorem mem_list {rows : HashMap String PkiRecord} {now : ℤ} {r' : PkiRecord} :
    r' ∈ list rows now none ↔ ∃ id r, rows.lookup id = some r ∧ r.shown now = r' := by
  unfold list
  rw [List.mem_map]
  constructor
  · rintro ⟨r, hr, he⟩
    rw [List.mem_mergeSort, List.mem_filter, mem_values] at hr
    obtain ⟨⟨id, hid⟩, -⟩ := hr
    exact ⟨id, r, hid, he⟩
  · rintro ⟨id, r, hid, he⟩
    refine ⟨r, ?_, he⟩
    rw [List.mem_mergeSort, List.mem_filter, mem_values]
    exact ⟨⟨id, hid⟩, rfl⟩

theorem shown_eq (now : ℤ) (r : PkiRecord) : r.shown now = { r with status := (r.shown now).status } := by
  unfold PkiRecord.shown
  split_ifs <;> rfl

theorem shown_active {now : ℤ} {r : PkiRecord} (h : r.status ≠ .expired) :
    (r.shown now).status.active = true ↔ Active now r := by
  unfold PkiRecord.shown Active Status.active
  by_cases hr : r.status = .revoked
  · simp [hr]
  · by_cases hn : r.clientNotAfter ≤ now
    · have hlt : ¬ now < r.clientNotAfter := by omega
      simp [hr, hn]
    · have hlt : now < r.clientNotAfter := by omega
      have hs : r.status = .waiting ∨ r.status = .connected := by
        rcases hc : r.status <;> simp_all
      rcases hs with hs | hs
      · by_cases hl : r.lastConnectedAt.isSome = true
        · simp [hs, hn, hl, hlt]
        · simp [hs, hn, hl, hlt]
      · simp [hs, hn, hlt]

/-! ### The invariant -/

/-- The files of a record load, to the certificates the record names. -/
structure Stored (cfg : Config V) (files : Files) (r : PkiRecord) (l : LoadedPair) (key : CertifiedKey) :
    Prop where
  load : loadPair cfg files noFaults r.id = .ok l
  certified : l.certifiedKey cfg = .ok key
  server : key.chain.head?.map cfg.fingerprintHex = some r.serverFingerprintSha256
  ca : cfg.fingerprintHex l.caCert = r.caFingerprintSha256
  root : cfg.addRoot l.caCert = none
  client : ∃ cert, l.clientCert cfg = .ok cert

/-- What holds of every record. -/
structure Kept (cfg : Config V) (files : Files) (id : String) (r : PkiRecord) : Prop where
  id : r.id = id
  status : r.status ≠ .expired
  lower : toAsciiLowercase r.serverName = r.serverName
  stored : ∃ l key, Stored cfg files r l key

structure Inv (cfg : Config V) (s : State V) : Prop where
  kept : ∀ id r, s.service.rows.lookup id = some r → Kept cfg s.service.files id r
  distinct : ∀ i j r r', s.service.rows.lookup i = some r → s.service.rows.lookup j = some r' →
    r.caFingerprintSha256 = r'.caFingerprintSha256 → i = j
  unique : ∀ i j r r', s.service.rows.lookup i = some r → s.service.rows.lookup j = some r' →
    Active s.clock r → Active s.clock r' → r.serverName = r'.serverName → i = j
  served : ∀ id r, s.service.rows.lookup id = some r → Active s.clock r →
    Served cfg s.service.files s.service.runtime r
  roots : ∀ c ∈ s.service.runtime.verifier.roots, cfg.addRoot c = none ∧
    ∃ id r, s.service.rows.lookup id = some r ∧ r.status ≠ .revoked ∧
      cfg.fingerprintHex c = r.caFingerprintSha256

theorem trusts_iff {c : Crypto V} {roots : List Cert} {fp : String} :
    trusts c roots fp = true ↔ ∃ r ∈ roots, c.fingerprintHex r = fp := by
  unfold trusts
  simp

/-- The invariant says what is claimed: a trusted CA is that of a record that is not revoked. -/
theorem Inv.allServed {s : State V} (h : Inv cfg s) : AllServed cfg s := by
  refine ⟨h.unique, h.served, fun id r hid hr => ?_⟩
  rw [Bool.eq_false_iff]
  intro ht
  obtain ⟨c, hc, hfp⟩ := trusts_iff.mp ht
  obtain ⟨-, j, r', hj, hr', hfp'⟩ := h.roots c hc
  have hij := h.distinct id j r r' hid hj (hfp.symm.trans hfp')
  subst hij
  rw [hid] at hj
  cases hj
  exact hr' hr

theorem inv_init (now : ℤ) : Inv cfg (init now : State V) := by
  have hnone : ∀ id, (init now : State V).service.rows.lookup id = none := fun _ => rfl
  refine ⟨fun id r h => ?_, fun i _ r _ h => ?_, fun i _ r _ h => ?_, fun id r h => ?_, fun c hc => ?_⟩
  · rw [hnone] at h
    cases h
  · rw [hnone] at h
    cases h
  · rw [hnone] at h
    cases h
  · rw [hnone] at h
    cases h
  · cases hc

/-- As time passes fewer records are active. -/
theorem inv_advance {s : State V} (h : Inv cfg s) (d : ℕ) : Inv cfg { s with clock := s.clock + d } := by
  have hact : ∀ r, Active (s.clock + d) r → Active s.clock r := by
    intro r hr
    exact ⟨hr.1, by have := hr.2; omega⟩
  exact ⟨h.kept, h.distinct, fun i j r r' hi hj hr hr' => h.unique i j r r' hi hj (hact r hr) (hact r' hr'),
    fun id r hid hr => h.served id r hid (hact r hr), h.roots⟩

/-! ### Marks on a record -/

/-- A change of a record that neither `Inv` nor the live state notices. -/
structure Alike (r r' : PkiRecord) : Prop where
  id : r'.id = r.id
  serverName : r'.serverName = r.serverName
  ca : r'.caFingerprintSha256 = r.caFingerprintSha256
  server : r'.serverFingerprintSha256 = r.serverFingerprintSha256
  notAfter : r'.clientNotAfter = r.clientNotAfter
  revoked : r'.status = .revoked ↔ r.status = .revoked
  expired : r.status ≠ .expired → r'.status ≠ .expired

theorem Alike.refl (r : PkiRecord) : Alike r r := ⟨rfl, rfl, rfl, rfl, rfl, Iff.rfl, fun h => h⟩

theorem alike_connected (now : ℤ) (r : PkiRecord) : Alike r (r.connected now) := by
  unfold PkiRecord.connected
  split_ifs with hr
  · refine ⟨rfl, rfl, rfl, rfl, rfl, ?_, fun _ h => (by cases h)⟩
    rcases hs : r.status <;> simp_all [Status.active]
  · exact Alike.refl r

theorem Alike.active {r r' : PkiRecord} (h : Alike r r') {now : ℤ} : Active now r' ↔ Active now r := by
  unfold Active
  rw [h.notAfter, Ne, h.revoked]

theorem Inv.mark {s : State V} (h : Inv cfg s) {id : String} {f : PkiRecord → PkiRecord}
    (hf : ∀ r, Alike r (f r)) {files : Files}
    (hfiles : ∀ i, loadPair cfg files noFaults i = loadPair cfg s.service.files noFaults i) :
    Inv cfg { s with service := { s.service with rows := modify id f s.service.rows, files := files } } := by
  -- both ways between the old table and the new one
  have hback : ∀ i r', (modify id f s.service.rows).lookup i = some r' →
      ∃ r, s.service.rows.lookup i = some r ∧ Alike r r' := by
    intro i r' hi
    rw [lookup_modify] at hi
    split_ifs at hi with he
    · rw [Option.map_eq_some_iff] at hi
      obtain ⟨r, hr, hr'⟩ := hi
      exact ⟨r, hr, hr' ▸ hf r⟩
    · exact ⟨r', hi, Alike.refl r'⟩
  have hthere : ∀ i r, s.service.rows.lookup i = some r →
      ∃ r', (modify id f s.service.rows).lookup i = some r' ∧ Alike r r' := by
    intro i r hi
    rw [lookup_modify]
    split_ifs with he
    · exact ⟨f r, by rw [hi]; rfl, hf r⟩
    · exact ⟨r, hi, Alike.refl r⟩
  refine ⟨fun i r' hi => ?_, fun i j r r' hi hj hca => ?_, fun i j r r' hi hj hr hr' hn => ?_,
    fun i r' hi hr' => ?_, fun c hc => ?_⟩
  · obtain ⟨r, hr, ha⟩ := hback i r' hi
    obtain ⟨h1, h2, h3, l, key, h4⟩ := h.kept i r hr
    refine ⟨ha.id.trans h1, ha.expired h2, by rw [ha.serverName, h3], l, key, ?_⟩
    exact ⟨by rw [hfiles, ha.id, h4.load], h4.certified, by rw [ha.server, h4.server], by rw [ha.ca, h4.ca],
      h4.root, h4.client⟩
  · obtain ⟨r0, h0, ha⟩ := hback i r hi
    obtain ⟨r1, h1, hb⟩ := hback j r' hj
    exact h.distinct i j r0 r1 h0 h1 (by rw [← ha.ca, hca, hb.ca])
  · obtain ⟨r0, h0, ha⟩ := hback i r hi
    obtain ⟨r1, h1, hb⟩ := hback j r' hj
    exact h.unique i j r0 r1 h0 h1 (ha.active.mp hr) (hb.active.mp hr')
      (by rw [← ha.serverName, hn, hb.serverName])
  · obtain ⟨r, hr, ha⟩ := hback i r' hi
    obtain ⟨⟨l, key, hl, hk, hres, hfp⟩, hp, ht⟩ := h.served i r hr (ha.active.mp hr')
    refine ⟨⟨l, key, ?_, hk, ?_, ?_⟩, ?_, ?_⟩
    · rw [hfiles, ha.id, hl]
    · rw [ha.serverName]
      exact hres
    · rw [ha.server, hfp]
    · rw [ha.serverName, ha.id]
      exact hp
    · rw [ha.ca]
      exact ht
  · obtain ⟨hroot, j, r, hj, hr, hfp⟩ := h.roots c hc
    obtain ⟨r', hj', ha⟩ := hthere j r hj
    exact ⟨hroot, j, r', hj', fun he => hr (ha.revoked.mp he), by rw [ha.ca, hfp]⟩

theorem inv_download {s : State V} (h : Inv cfg s) (id : String) :
    Inv cfg { s with service := (download cfg s.service s.clock noFaults id).1 } := by
  unfold download
  split
  · exact h
  · exact h.mark (f := fun r => { r with downloadedAt := some s.clock })
      (fun _ => ⟨rfl, rfl, rfl, rfl, rfl, Iff.rfl, fun h => h⟩) (loadPair_removeClientKey _ _)

theorem inv_markConnected {s : State V} (h : Inv cfg s) (serverName : String) :
    Inv cfg { s with service := (markConnected s.service s.clock noFaults serverName).1 } := by
  unfold markConnected
  rcases s.service.runtime.pairIdForServer serverName with _ | id
  · exact h
  · exact h.mark (alike_connected s.clock) fun _ => rfl

/-! ### A new pair -/

theorem certs_of_firstCert {pem : Lib.ByteCodec.Bytes} {cert : Cert} (h : firstCert cfg pem = some cert) :
    ∃ rest, parseCerts cfg pem = .ok (cert :: rest) := by
  unfold firstCert at h
  unfold parseCerts
  split at h
  · next c rest hc =>
    rw [hc]
    cases h
    exact ⟨rest, rfl⟩
  · cases h

/-- The chain that is served begins with the server certificate. -/
theorem head_chain (server : Cert) (rest : List Cert) (ca : Cert) :
    (if (server :: rest).contains ca then server :: rest else server :: rest ++ [ca]).head? = some server := by
  split_ifs <;> rfl

theorem loadNew_of_material {g : GeneratedPair} (h : Material cfg g) (files : Files) (id : String) (now : ℤ)
    (req : CreateRequest) :
    ∃ l key, loadNew cfg (files.insert id (insertAll ∅ g.contents)) noFaults id = .ok (l, key) ∧
      Stored cfg (files.insert id (insertAll ∅ g.contents)) (newRecord now req id g) l key := by
  obtain ⟨⟨ca, hca, hcafp, hroot⟩, ⟨server, hserver, hserverfp⟩, ⟨key, hkey, hsupported⟩, hclient⟩ := h
  obtain ⟨client, hclient⟩ := Option.isSome_iff_exists.mp hclient
  obtain ⟨caRest, hca⟩ := certs_of_firstCert hca
  obtain ⟨chain, hserver⟩ := certs_of_firstCert hserver
  obtain ⟨clientRest, hclient⟩ := certs_of_firstCert hclient
  have hkey : parseKey cfg g.serverKeyPem = .ok key := by
    unfold parseKey
    rcases hk : cfg.privateKey g.serverKeyPem with e | _ | k
    · simp [hk, Except.toOption] at hkey
    · simp [hk, Except.toOption] at hkey
    · simp only [hk, Except.toOption, Option.join_some, Option.mem_def, Option.some.injEq] at hkey
      rw [hkey]
  have hread : ∀ f pem, (insertAll ∅ g.contents).lookup f = some pem →
      readSecure cfg (files.insert id (insertAll ∅ g.contents)) noFaults id f = .ok pem := by
    intro f pem hf
    unfold readSecure noFaults
    rw [lookup_insert, if_pos rfl]
    simp only [Option.bind_some, hf]
  have hload : loadPair cfg (files.insert id (insertAll ∅ g.contents)) noFaults id =
      .ok ⟨id, ca, server :: chain, key, g.caCertPem, g.clientCertPem⟩ := by
    unfold loadPair
    rw [hread .caCrt g.caCertPem rfl, hread .serverCrt g.serverCertPem rfl,
      hread .serverKey g.serverKeyPem rfl, hread .clientCrt g.clientCertPem rfl]
    simp only [bind, Except.bind, hca, hserver, hkey]
    rfl
  have hcert : LoadedPair.certifiedKey cfg ⟨id, ca, server :: chain, key, g.caCertPem, g.clientCertPem⟩ =
      .ok ⟨if (server :: chain).contains ca then server :: chain else server :: chain ++ [ca], key⟩ := by
    unfold LoadedPair.certifiedKey
    simp only [hsupported]
  refine ⟨_, _, ?_, hload, hcert, ?_, hcafp, hroot, client, ?_⟩
  · unfold loadNew
    simp only [bind, Except.bind, hload, hcert]
    rfl
  · rw [head_chain, Option.map_some, hserverfp]
    rfl
  · unfold LoadedPair.clientCert
    simp only [bind, Except.bind, hclient]
    rfl

theorem validServerName_of_checkRequest {req : CreateRequest} (h : checkRequest req = .ok ()) :
    validServerName req.serverName = true := by
  unfold checkRequest at h
  split_ifs at h with h1 h2 h3
  simpa using h2

/-- A request that is admitted has a valid server name that no active record has. -/
theorem admitPair_ok {s : PkiService V} {now : ℤ} {req : CreateRequest}
    {generated : Except String GeneratedPair} {g : GeneratedPair}
    (h : admitPair s now noFaults req generated = .ok g) :
    generated = .ok g ∧ validServerName req.serverName = true ∧
      conflicts (list s.rows now none) req = false := by
  unfold admitPair noFaults at h
  rcases hreq : checkRequest req with e | _
  · rw [hreq] at h
    cases h
  · rcases hc : conflicts (list s.rows now none) req with _ | _
    · rcases generated with e | g'
      · simp only [hreq, hc] at h
        cases h
      · simp only [hreq, hc] at h
        cases h
        exact ⟨rfl, validServerName_of_checkRequest hreq, rfl⟩
    · simp only [hreq, hc] at h
      cases h

theorem serverName_ne_of_not_conflicts {s : State V} (h : Inv cfg s) {req : CreateRequest}
    (hc : conflicts (list s.service.rows s.clock none) req = false) {id : String} {r : PkiRecord}
    (hid : s.service.rows.lookup id = some r) (hr : Active s.clock r) : r.serverName ≠ req.serverName := by
  unfold conflicts at hc
  rw [List.any_eq_false] at hc
  have hmem := hc (r.shown s.clock) (mem_list.mpr ⟨id, r, hid, rfl⟩)
  have hact := (shown_active (h.kept id r hid).status).mpr hr
  have hname : (r.shown s.clock).serverName = r.serverName := by rw [shown_eq]
  intro he
  simp [hact, hname, he] at hmem

theorem takesCa_of_roots (hb : Builds cfg.toCrypto) {roots : List Cert} {ca : Cert}
    (hroots : ∀ c ∈ roots, cfg.addRoot c = none) (hca : cfg.addRoot ca = none) : TakesCa cfg roots ca := by
  have hall : ∀ c ∈ roots ++ [ca], cfg.addRoot c = none := by
    intro c hc
    rcases List.mem_append.mp hc with hc | hc
    · exact hroots c hc
    · rw [List.mem_singleton.mp hc]
      exact hca
  obtain ⟨v, hv⟩ := rebuild_isOk hb hall
  exact Or.inr (by rw [hv]; rfl)

theorem mem_rootsWith {roots : List Cert} {ca c : Cert} (h : c ∈ rootsWith cfg roots ca) :
    c ∈ roots ∨ c = ca := by
  unfold rootsWith at h
  split_ifs at h
  · exact Or.inl h
  · simpa using h

theorem trusts_rootsWith_self (roots : List Cert) (ca : Cert) :
    trusts cfg.toCrypto (rootsWith cfg roots ca) (cfg.fingerprintHex ca) = true := by
  unfold rootsWith
  split_ifs with ht
  · exact ht
  · exact trusts_iff.mpr ⟨ca, by simp, rfl⟩

theorem trusts_rootsWith {roots : List Cert} {fp : String} (ca : Cert)
    (h : trusts cfg.toCrypto roots fp = true) : trusts cfg.toCrypto (rootsWith cfg roots ca) fp = true := by
  obtain ⟨r, hr, hfp⟩ := trusts_iff.mp h
  refine trusts_iff.mpr ⟨r, ?_, hfp⟩
  unfold rootsWith
  split_ifs
  · exact hr
  · exact List.mem_append_left _ hr

theorem Served.addOther {files files' : Files} {rt : PkiRuntime V} {r : PkiRecord}
    (h : Served cfg files rt r) (hload : loadPair cfg files' noFaults r.id = loadPair cfg files noFaults r.id)
    {name id : String} {key : CertifiedKey} {v : PkiClientVerifier V} {ca : Cert}
    (hname : toAsciiLowercase r.serverName ≠ toAsciiLowercase name)
    (hv : v.roots = rootsWith cfg rt.verifier.roots ca) :
    Served cfg files' ⟨rt.resolver.insert (toAsciiLowercase name) key, v,
      rt.pairsByServer.insert (toAsciiLowercase name) id⟩ r := by
  obtain ⟨⟨l, k, hl, hk, hres, hfp⟩, hp, ht⟩ := h
  refine ⟨⟨l, k, hload.trans hl, hk, ?_, hfp⟩, ?_, ?_⟩
  · rw [lookup_insert, if_neg hname, hres]
  · unfold PkiRuntime.pairIdForServer
    rw [lookup_insert, if_neg hname]
    exact hp
  · show trusts cfg.toCrypto v.roots _ = true
    rw [hv]
    exact trusts_rootsWith ca ht

theorem Stored.served {files : Files} {rt : PkiRuntime V} {r : PkiRecord} {l : LoadedPair}
    {key : CertifiedKey} (h : Stored cfg files r l key) {v : PkiClientVerifier V}
    (hv : v.roots = rootsWith cfg rt.verifier.roots l.caCert) :
    Served cfg files ⟨rt.resolver.insert (toAsciiLowercase r.serverName) key, v,
      rt.pairsByServer.insert (toAsciiLowercase r.serverName) r.id⟩ r := by
  refine ⟨⟨l, key, h.load, h.certified, ?_, h.server⟩, ?_, ?_⟩
  · rw [lookup_insert, if_pos rfl]
  · unfold PkiRuntime.pairIdForServer
    rw [lookup_insert, if_pos rfl]
  · show trusts cfg.toCrypto v.roots _ = true
    rw [hv, ← h.ca]
    exact trusts_rootsWith_self _ _

theorem createPair_cases {s : State V} (hb : Builds cfg.toCrypto) (h : Inv cfg s) {req : CreateRequest}
    {id : String} {generated : Except String GeneratedPair}
    (hg : Genuine cfg s (.createPair req id generated)) :
    (createPair cfg s.service s.clock noFaults req id generated).1 = s.service ∨
      ∃ g l key v, generated = .ok g ∧ validServerName req.serverName = true ∧
        conflicts (list s.service.rows s.clock none) req = false ∧
        Stored cfg (s.service.files.insert id (insertAll ∅ g.contents)) (newRecord s.clock req id g) l key ∧
        v.roots = rootsWith cfg s.service.runtime.verifier.roots l.caCert ∧
        (createPair cfg s.service s.clock noFaults req id generated).1 =
          ⟨s.service.files.insert id (insertAll ∅ g.contents),
            s.service.rows.insert id (newRecord s.clock req id g),
            ⟨s.service.runtime.resolver.insert (toAsciiLowercase req.serverName) key, v,
              s.service.runtime.pairsByServer.insert (toAsciiLowercase req.serverName) id⟩⟩ := by
  unfold createPair
  rcases ha : admitPair s.service s.clock noFaults req generated with e | g
  · exact Or.inl rfl
  obtain ⟨rfl, hvalid, hconf⟩ := admitPair_ok ha
  obtain ⟨hfresh, hmat, -⟩ := hg
  obtain ⟨l, key, hload, hstored⟩ := loadNew_of_material hmat s.service.files id s.clock req
  have hwrite : writePair s.service.files noFaults id g =
      (s.service.files.insert id (insertAll ∅ g.contents), .ok ()) := rfl
  have hrow : insertRow s.service.rows noFaults (newRecord s.clock req id g) =
      .ok (s.service.rows.insert id (newRecord s.clock req id g)) := by
    unfold insertRow noFaults
    simp [newRecord, hfresh]
  obtain ⟨v, hadd, hv⟩ := addPair_ok req.serverName id key
    (takesCa_of_roots hb (fun c hc => (h.roots c hc).1) hstored.root)
  refine Or.inr ⟨g, l, key, v, rfl, hvalid, hconf, hstored, hv, ?_⟩
  simp only [hwrite, hload, hrow, hadd]
  rw [if_pos (by simp [PkiRuntime.hasServer])]

theorem inv_createPair {s : State V} (hb : Builds cfg.toCrypto) (h : Inv cfg s) {req : CreateRequest}
    {id : String} {generated : Except String GeneratedPair}
    (hg : Genuine cfg s (.createPair req id generated)) :
    Inv cfg { s with service := (createPair cfg s.service s.clock noFaults req id generated).1 } := by
  rcases createPair_cases hb h hg with he | ⟨g, l, key, v, rfl, hvalid, hconf, hstored, hv, he⟩
  · rw [he]
    exact h
  rw [he]
  obtain ⟨hfresh, -, hnew⟩ := hg
  have hlower := toAsciiLowercase_of_valid hvalid
  -- the other records, and what they do not share with the new one
  have hother : ∀ i r, s.service.rows.lookup i = some r → i ≠ id ∧
      r.caFingerprintSha256 ≠ g.caFingerprintSha256 := by
    intro i r hi
    refine ⟨fun hid => ?_, hnew ⟨i, r⟩ ((mem_entries_iff _ _ _).mpr hi)⟩
    rw [hid, hfresh] at hi
    cases hi
  have hrow : ∀ i r, (s.service.rows.insert id (newRecord s.clock req id g)).lookup i = some r →
      i = id ∧ r = newRecord s.clock req id g ∨ s.service.rows.lookup i = some r := by
    intro i r hi
    rw [lookup_insert] at hi
    split_ifs at hi with hid
    · exact Or.inl ⟨hid, (Option.some.inj hi).symm⟩
    · exact Or.inr hi
  have hname : ∀ i r, s.service.rows.lookup i = some r → Active s.clock r → r.serverName ≠ req.serverName :=
    fun i r hi hr => serverName_ne_of_not_conflicts h hconf hi hr
  refine ⟨fun i r hi => ?_, fun i j r r' hi hj hca => ?_, fun i j r r' hi hj hr hr' hn => ?_,
    fun i r hi hr => ?_, fun c hc => ?_⟩
  · rcases hrow i r hi with ⟨rfl, rfl⟩ | hi
    · exact ⟨rfl, (by simp [newRecord]), hlower, l, key, hstored⟩
    · obtain ⟨h1, h2, h3, l', key', h4⟩ := h.kept i r hi
      refine ⟨h1, h2, h3, l', key', ?_, h4.certified, h4.server, h4.ca, h4.root, h4.client⟩
      rw [loadPair_insert_of_ne (h1 ▸ (hother i r hi).1), h4.load]
  · rcases hrow i r hi with ⟨rfl, rfl⟩ | hi0 <;> rcases hrow j r' hj with ⟨rfl, rfl⟩ | hj0
    · rfl
    · exact absurd hca.symm (hother j r' hj0).2
    · exact absurd hca (hother i r hi0).2
    · exact h.distinct i j r r' hi0 hj0 hca
  · rcases hrow i r hi with ⟨rfl, rfl⟩ | hi0 <;> rcases hrow j r' hj with ⟨rfl, rfl⟩ | hj0
    · rfl
    · exact absurd hn.symm (hname j r' hj0 hr')
    · exact absurd hn (hname i r hi0 hr)
    · exact h.unique i j r r' hi0 hj0 hr hr' hn
  · rcases hrow i r hi with ⟨rfl, rfl⟩ | hi
    · exact hstored.served hv
    · refine (h.served i r hi hr).addOther ?_ ?_ hv
      · have hid := (h.kept i r hi).id
        exact loadPair_insert_of_ne (hid ▸ (hother i r hi).1)
      · rw [(h.kept i r hi).lower, hlower]
        exact hname i r hi hr
  · rw [hv] at hc
    rcases mem_rootsWith hc with hc | rfl
    · obtain ⟨hroot, j, r, hj, hr, hfp⟩ := h.roots c hc
      refine ⟨hroot, j, r, ?_, hr, hfp⟩
      rw [lookup_insert, if_neg (hother j r hj).1, hj]
    · exact ⟨hstored.root, id, newRecord s.clock req id g, by rw [lookup_insert, if_pos rfl],
        (by simp [newRecord]), hstored.ca⟩

/-! ### A pair is revoked -/

/-- What `revoke` finds of a record that is there. -/
theorem findPair_ok {s : State V} {id : String} {r : PkiRecord} {ca client : Cert}
    (h : findPair cfg s.service noFaults id = .ok (r, ca, client)) :
    s.service.rows.lookup id = some r ∧ r.status ≠ .revoked ∧
      ∃ l, loadPair cfg s.service.files noFaults r.id = .ok l ∧ l.caCert = ca := by
  unfold findPair record noFaults at h
  rcases hrow : s.service.rows.lookup id with _ | r0
  · rw [hrow] at h
    cases h
  · simp only [hrow, bind, Except.bind] at h
    by_cases hrev : r0.status = .revoked
    · simp only [hrev, if_true] at h
      cases h
    · simp only [hrev, if_false, pure, Except.pure] at h
      rcases hl : loadPair cfg s.service.files (fun _ => none) r0.id with e | l
      · simp only [hl] at h
        cases h
      · simp only [hl] at h
        rcases hc : l.clientCert cfg with e | cert
        · simp only [hc] at h
          cases h
        · simp only [hc] at h
          cases h
          exact ⟨rfl, hrev, l, hl, rfl⟩

theorem inv_revoke {s : State V} (hb : Builds cfg.toCrypto) (h : Inv cfg s) {id : String}
    (hc : SparesActive s (.revoke id)) :
    Inv cfg { s with service := (revoke cfg s.service s.clock noFaults id).1 } := by
  unfold revoke
  rcases hp : findPair cfg s.service noFaults id with e | ⟨r0, ca, client⟩
  · exact h
  obtain ⟨hid, hrev, l, hload, hca⟩ := findPair_ok hp
  -- the CA of the record is that of its files
  have hcafp : cfg.fingerprintHex ca = r0.caFingerprintSha256 := by
    obtain ⟨-, -, -, l', key', h4⟩ := h.kept id r0 hid
    have hl := h4.load
    rw [hload] at hl
    cases hl
    rw [← hca, h4.ca]
  have hroots : ∀ r ∈ rootsWithout cfg s.service.runtime.verifier.roots ca, cfg.addRoot r = none :=
    fun r hr => (h.roots r (List.mem_filter.mp hr).1).1
  obtain ⟨v, hv⟩ := rebuild_isOk hb hroots
  simp only [removePair_ok hv, noFaults]
  have hback : ∀ i r', (modify id (PkiRecord.revoke s.clock) s.service.rows).lookup i = some r' →
      i = id ∧ r' = r0.revoke s.clock ∨ i ≠ id ∧ s.service.rows.lookup i = some r' := by
    intro i r' hi
    rw [lookup_modify] at hi
    split_ifs at hi with he
    · subst he
      rw [hid] at hi
      exact Or.inl ⟨rfl, (Option.some.inj hi).symm⟩
    · exact Or.inr ⟨he, hi⟩
  have hrevoked : (r0.revoke s.clock).status = .revoked := by simp [PkiRecord.revoke, hrev]
  have hinactive : ¬ Active s.clock (r0.revoke s.clock) := fun ha => ha.1 hrevoked
  have hfp0 : (r0.revoke s.clock).caFingerprintSha256 = r0.caFingerprintSha256 := by
    simp [PkiRecord.revoke, hrev]
  refine ⟨fun i r' hi => ?_, fun i j r r' hi hj hca' => ?_, fun i j r r' hi hj hr hr' hn => ?_,
    fun i r' hi hr' => ?_, fun c hc' => ?_⟩
  · rcases hback i r' hi with ⟨rfl, rfl⟩ | ⟨-, hi⟩
    · obtain ⟨h1, h2, h3, l', key', h4⟩ := h.kept i r0 hid
      unfold PkiRecord.revoke
      rw [if_neg hrev]
      exact ⟨h1, (by simp), h3, l', key', h4.load, h4.certified, h4.server, h4.ca, h4.root, h4.client⟩
    · exact h.kept i r' hi
  · rcases hback i r hi with ⟨rfl, rfl⟩ | ⟨-, hi0⟩ <;> rcases hback j r' hj with ⟨rfl, rfl⟩ | ⟨-, hj0⟩
    · rfl
    · exact h.distinct _ _ r0 r' hid hj0 (by rw [← hca', hfp0])
    · exact h.distinct _ _ r r0 hi0 hid (by rw [hca', hfp0])
    · exact h.distinct i j r r' hi0 hj0 hca'
  · rcases hback i r hi with ⟨rfl, rfl⟩ | ⟨-, hi⟩
    · exact absurd hr hinactive
    · rcases hback j r' hj with ⟨rfl, rfl⟩ | ⟨-, hj⟩
      · exact absurd hr' hinactive
      · exact h.unique i j r r' hi hj hr hr' hn
  · rcases hback i r' hi with ⟨rfl, rfl⟩ | ⟨hne, hi⟩
    · exact absurd hr' hinactive
    · obtain ⟨⟨l', key', hl', hk', hres, hfp⟩, hpid, ht⟩ := h.served i r' hi hr'
      have hname : toAsciiLowercase r'.serverName ≠ toAsciiLowercase r0.serverName := by
        rw [(h.kept i r' hi).lower, (h.kept id r0 hid).lower]
        exact hc r0 hid hrev ⟨i, r'⟩ ((mem_entries_iff _ _ _).mpr hi) hne hr'
      refine ⟨⟨l', key', hl', hk', ?_, hfp⟩, ?_, ?_⟩
      · rw [lookup_erase, if_neg hname, hres]
      · unfold PkiRuntime.pairIdForServer
        rw [lookup_erase, if_neg hname]
        exact hpid
      · obtain ⟨c, hcm, hcfp⟩ := trusts_iff.mp ht
        refine trusts_iff.mpr ⟨c, ?_, hcfp⟩
        refine List.mem_filter.mpr ⟨hcm, ?_⟩
        have hfpne : cfg.fingerprintHex c ≠ cfg.fingerprintHex ca := by
          intro he
          exact hne (h.distinct i id r' r0 hi hid (by rw [← hcfp, he, hcafp]))
        simpa using hfpne
  · obtain ⟨hcm, hcne⟩ := List.mem_filter.mp hc'
    obtain ⟨hroot, j, r, hj, hr, hfp⟩ := h.roots c hcm
    have hjne : j ≠ id := by
      rintro rfl
      rw [hid] at hj
      cases hj
      rw [hcafp, ← hfp] at hcne
      simp at hcne
    refine ⟨hroot, j, r, ?_, hr, hfp⟩
    show (modify id (PkiRecord.revoke s.clock) s.service.rows).lookup j = some r
    rw [lookup_modify, if_neg hjne, hj]

/-! ### The process starts again -/

theorem loadRecord_ok {files : Files} {rt : PkiRuntime V} {r : PkiRecord} {l : LoadedPair}
    {key : CertifiedKey} (hb : Builds cfg.toCrypto) (h : Stored cfg files r l key)
    (hroots : ∀ c ∈ rt.verifier.roots, cfg.addRoot c = none) :
    ∃ v, loadRecord cfg files noFaults rt r =
        .ok ⟨rt.resolver.insert (toAsciiLowercase r.serverName) key, v,
          rt.pairsByServer.insert (toAsciiLowercase r.serverName) r.id⟩ ∧
      v.roots = rootsWith cfg rt.verifier.roots l.caCert := by
  obtain ⟨v, hadd, hv⟩ := addPair_ok r.serverName r.id key
    (takesCa_of_roots hb hroots h.root)
  refine ⟨v, ?_, hv⟩
  unfold loadRecord
  simp only [h.load, bind, Except.bind, pure, Except.pure, h.certified, hadd]

/-- The live state after some of the records. -/
structure Loading (cfg : Config V) (files : Files) (done : List PkiRecord) (rt : PkiRuntime V) : Prop where
  served : ∀ r ∈ done, Served cfg files rt r
  roots : ∀ c ∈ rt.verifier.roots, cfg.addRoot c = none ∧
    ∃ r ∈ done, cfg.fingerprintHex c = r.caFingerprintSha256

/-- The loop over records whose files load and no two of which have one server name. -/
theorem foldlM_loadRecord {files : Files} {all : List PkiRecord} (hb : Builds cfg.toCrypto)
    (hstored : ∀ r ∈ all, ∃ l key, Stored cfg files r l key)
    (hunique : ∀ r ∈ all, ∀ r' ∈ all, toAsciiLowercase r.serverName = toAsciiLowercase r'.serverName → r = r') :
    ∀ (todo done : List PkiRecord) (rt : PkiRuntime V), done ++ todo = all → Loading cfg files done rt →
      ∃ rt', todo.foldlM (loadRecord cfg files noFaults) rt = .ok rt' ∧ Loading cfg files all rt' := by
  intro todo
  induction todo with
  | nil =>
    intro done rt hall h
    rw [List.append_nil] at hall
    exact ⟨rt, rfl, hall ▸ h⟩
  | cons r todo ih =>
    intro done rt hall h
    have hr : r ∈ all := hall ▸ (by simp)
    have hdone : ∀ r' ∈ done, r' ∈ all := fun r' hr' => hall ▸ List.mem_append_left _ hr'
    obtain ⟨l, key, hs⟩ := hstored r hr
    obtain ⟨v, hload, hv⟩ := loadRecord_ok hb hs fun c hc => (h.roots c hc).1
    rw [List.foldlM_cons, hload]
    refine ih (done ++ [r]) _ (by rw [List.append_assoc]; exact hall) ⟨fun r' hr' => ?_, fun c hc => ?_⟩
    · rcases List.mem_append.mp hr' with hr' | hr'
      · by_cases hn : toAsciiLowercase r'.serverName = toAsciiLowercase r.serverName
        · rw [hunique r' (hdone r' hr') r hr hn]
          exact hs.served hv
        · exact (h.served r' hr').addOther rfl hn hv
      · rw [List.mem_singleton.mp hr']
        exact hs.served hv
    · rw [hv] at hc
      rcases mem_rootsWith hc with hc | rfl
      · obtain ⟨hroot, r', hr', hfp⟩ := h.roots c hc
        exact ⟨hroot, r', List.mem_append_left _ hr', hfp⟩
      · exact ⟨hs.root, r, by simp, hs.ca⟩

theorem mem_activeRecords {s : State V} (h : Inv cfg s) {r' : PkiRecord} :
    r' ∈ activeRecords s.service.rows s.clock ↔
      ∃ id r, s.service.rows.lookup id = some r ∧ Active s.clock r ∧ r.shown s.clock = r' := by
  unfold activeRecords
  rw [List.mem_filter, mem_list]
  constructor
  · rintro ⟨⟨id, r, hid, rfl⟩, hact⟩
    exact ⟨id, r, hid, (shown_active (h.kept id r hid).status).mp hact, rfl⟩
  · rintro ⟨id, r, hid, hact, rfl⟩
    exact ⟨⟨id, r, hid, rfl⟩, (shown_active (h.kept id r hid).status).mpr hact⟩

theorem loadActivePairs_ok {s : State V} (hb : Builds cfg.toCrypto) (h : Inv cfg s) :
    ∃ rt, loadActivePairs cfg s.service.files s.service.rows noFaults s.clock = .ok rt ∧
      Loading cfg s.service.files (activeRecords s.service.rows s.clock) rt := by
  refine foldlM_loadRecord hb (fun r' hr' => ?_) (fun r1 h1 r2 h2 hn => ?_) _ [] _ rfl
    ⟨fun r hr => (by cases hr), fun c hc => (by cases hc)⟩
  · obtain ⟨id, r, hid, hact, rfl⟩ := (mem_activeRecords h).mp hr'
    obtain ⟨-, -, -, l, key, hs⟩ := h.kept id r hid
    rw [shown_eq]
    exact ⟨l, key, hs.load, hs.certified, hs.server, hs.ca, hs.root, hs.client⟩
  · obtain ⟨i, r, hi, hr, rfl⟩ := (mem_activeRecords h).mp h1
    obtain ⟨j, r', hj, hr', rfl⟩ := (mem_activeRecords h).mp h2
    rw [shown_eq, shown_eq s.clock r'] at hn
    have hname : r.serverName = r'.serverName := by
      rw [← (h.kept i r hi).lower, ← (h.kept j r' hj).lower]
      exact hn
    have hij := h.unique i j r r' hi hj hr hr' hname
    subst hij
    rw [hi] at hj
    cases hj
    rfl

theorem inv_restart {s : State V} (hb : Builds cfg.toCrypto) (h : Inv cfg s) {rt : PkiRuntime V}
    (hrt : loadActivePairs cfg s.service.files s.service.rows noFaults s.clock = .ok rt) :
    Inv cfg { s with service := { s.service with runtime := rt } } := by
  obtain ⟨rt', hrt', hl⟩ := loadActivePairs_ok hb h
  rw [hrt] at hrt'
  cases hrt'
  refine ⟨h.kept, h.distinct, h.unique, fun id r hid hr => ?_, fun c hc => ?_⟩
  · have hs := hl.served _ ((mem_activeRecords h).mpr ⟨id, r, hid, hr, rfl⟩)
    rw [shown_eq] at hs
    exact ⟨hs.resolver, hs.pairId, hs.trusted⟩
  · obtain ⟨hroot, r', hr', hfp⟩ := hl.roots c hc
    obtain ⟨id, r, hid, hact, rfl⟩ := (mem_activeRecords h).mp hr'
    rw [shown_eq] at hfp
    exact ⟨hroot, id, r, hid, hact.1, hfp⟩

/-! ### Whole runs -/

theorem inv_step {s s' : State V} {l : Label} (hb : Builds cfg.toCrypto) (h : Inv cfg s)
    (hg : Genuine cfg s l) (hc : SparesActive s l) (hs : step cfg s l = some s') : Inv cfg s' := by
  unfold step at hs
  rcases l with d | ⟨req, id, generated⟩ | id | id | serverName | _
  · cases hs
    exact inv_advance h d
  · cases hs
    exact inv_createPair hb h hg
  · cases hs
    exact inv_download h id
  · cases hs
    exact inv_revoke hb h hc
  · cases hs
    exact inv_markConnected h serverName
  · rcases hrt : loadActivePairs cfg s.service.files s.service.rows noFaults s.clock with e | rt
    · simp only [hrt] at hs
      cases hs
    · simp only [hrt] at hs
      cases hs
      exact inv_restart hb h hrt

/-- **Every active pair is served**, in a run that never revokes a pair whose server name an active pair has
taken over: there is at most one active record for each server name, the live state has each of them under its
own certificate, id and CA, the CA of a revoked record is not trusted, and the process can start again. -/
theorem every_active_pair_is_served {now : ℤ} {ls : List Label} {s : State V} (hb : Builds cfg.toCrypto)
    (hC : AllSteps (step cfg) (fun s l => Genuine cfg s l ∧ SparesActive s l) (init now) ls)
    (h : run (step cfg) (init now) ls = some s) :
    AllServed cfg s ∧ ∃ s', step cfg s .restart = some s' := by
  have hinv : Inv cfg s := run_invariant_of (I := Inv cfg)
    (fun _ _ _ hI hl hs => inv_step hb hI hl.1 hl.2 hs) ls _ s (inv_init now) hC h
  refine ⟨hinv.allServed, ?_⟩
  obtain ⟨rt, hrt, -⟩ := loadActivePairs_ok hb hinv
  exact ⟨{ s with service := { s.service with runtime := rt } }, by unfold step; simp only [hrt]⟩

/-! ### A server name that is used again -/

instance (g : GeneratedPair) : Decidable (Material cfg g) :=
  decidable_of_iff (_ ∧ _ ∧ _ ∧ _) ⟨fun ⟨a, b, c, d⟩ => ⟨a, b, c, d⟩, fun ⟨a, b, c, d⟩ => ⟨a, b, c, d⟩⟩

instance (s : State V) : ∀ l : Label, Decidable (Genuine cfg s l)
  | .createPair _ _ (.ok _) => inferInstanceAs (Decidable (_ ∧ _ ∧ _))
  | .createPair _ _ (.error _) => isTrue trivial
  | .advance _ => isTrue trivial
  | .download _ => isTrue trivial
  | .revoke _ => isTrue trivial
  | .markConnected _ => isTrue trivial
  | .restart => isTrue trivial

instance (s : State V) : ∀ l : Label, Decidable (SparesActive s l)
  | .revoke id => inferInstanceAs (Decidable (∀ r ∈ s.service.rows.lookup id, _ → ∀ _ ∈ _, _ → _ → _))
  | .createPair .. => isTrue trivial
  | .advance _ => isTrue trivial
  | .download _ => isTrue trivial
  | .markConnected _ => isTrue trivial
  | .restart => isTrue trivial

theorem lenient_builds : Builds lenient.toCrypto := fun _ _ _ => rfl

/-- A pair is downloaded and used and expires, and its server name gets a new pair. -/
def renews : List Label :=
  [.createPair homeRequest "p1" (.ok (pairOf [1] [2] [3] 100)), .download "p1", .markConnected "home.example",
    .advance 100, .createPair homeRequest "p2" (.ok (pairOf [4] [5] [6] 1000))]

/-- Both records are there, and the new one is served. -/
theorem every_active_pair_is_served_renewed : ∃ s, run (step lenient) (init 10) renews = some s ∧
    AllServed lenient s ∧ ∃ r, s.service.rows.lookup "p2" = some r ∧
      Served lenient s.service.files s.service.runtime r := by
  obtain ⟨s, hs, hr⟩ := exists_run (step lenient) (init 10) renews
    (fun s => (s.service.rows.lookup "p2").any (fun r => decide (Active s.clock r)) = true) (by decide +kernel)
  have hall := (every_active_pair_is_served lenient_builds (by decide +kernel) hs).1
  obtain ⟨r, hid, hact⟩ := (Option.any_eq_true _ _).mp hr
  exact ⟨s, hs, hall, r, hid, hall.served "p2" r hid (of_decide_eq_true hact)⟩

/-- The expired pair is revoked, and the new one is not served any more. -/
theorem revoked_expired_pair_unserves : ∃ s, run (step lenient) (init 10) (renews ++ [.revoke "p1"]) = some s ∧
    AllSteps (step lenient) (Genuine lenient) (init 10) (renews ++ [.revoke "p1"]) ∧
    (∃ r, s.service.rows.lookup "p2" = some r ∧ Active s.clock r ∧
      ¬ Served lenient s.service.files s.service.runtime r) ∧
    ¬ AllServed lenient s := by
  obtain ⟨s, hs, hr, hnone⟩ := exists_run (step lenient) (init 10) (renews ++ [.revoke "p1"])
    (fun s => (s.service.rows.lookup "p2").any
      (fun r => decide (Active s.clock r) && r.serverName = "home.example")
      = true ∧ s.service.runtime.resolver.lookup "home.example" = none) (by decide +kernel)
  obtain ⟨r, hid, hact⟩ := (Option.any_eq_true _ _).mp hr
  rw [Bool.and_eq_true, decide_eq_true_iff, decide_eq_true_iff] at hact
  have hunserved : ¬ Served lenient s.service.files s.service.runtime r := by
    intro hserved
    obtain ⟨l, key, -, -, hres, -⟩ := hserved.resolver
    rw [hact.2] at hres
    have hlower : toAsciiLowercase "home.example" = "home.example" := by decide +kernel
    rw [hlower, hnone] at hres
    cases hres
  exact ⟨s, hs, by decide +kernel, ⟨r, hid, hact.1, hunserved⟩,
    fun hall => hunserved (hall.served "p2" r hid hact.1)⟩

end HomeLlmGateway.Pki.Pairs
