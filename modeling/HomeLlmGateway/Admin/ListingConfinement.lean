import HomeLlmGateway.Admin.Listings
import HomeLlmGateway.Storage.KeyTenants

/-! # What a tenant learns of the others

Two states are alike for a principal of the tenant `t` if they differ only in what belongs to other tenants, and
for a user also to other users of `t` (`Alike`). To every reading of `Admin.Listings` but two they are the same
(`listings_confined_iff`): `status` counts the credentials of all tenants, and `list_keys` shows the admin of a
tenant the name of the owner of a key, who may have been moved to another tenant. -/

namespace HomeLlmGateway.Admin.ListingConfinement

open HomeLlmGateway.Lib.Assoc HomeLlmGateway.Lib.Sorted
open HomeLlmGateway.Access.Rbac
open HomeLlmGateway.Storage HomeLlmGateway.Storage.Users
open HomeLlmGateway.Storage.Cache (KeyRecord)
open HomeLlmGateway.Storage.Tenants (TenantRecord)
open HomeLlmGateway.Storage.Attribution (tenantTotals)
open HomeLlmGateway.Storage.UsageArithmetic (KeyUsageInfo usageOf)
open HomeLlmGateway.Storage.KeyTenants (InTenant)
open HomeLlmGateway.Registry.Discovery (agentInfo snapshot countForTenant)
open HomeLlmGateway.Pki.Service (PkiService PkiRecord Status activeRecords)
open HomeLlmGateway.Admin.Handlers HomeLlmGateway.Admin.Listings

variable {V : Type}

/-! ### Alike states -/

/-- The same response; rows of one rank may have changed places, since they come as the hash map has them. -/
def Same : Except Response Listing → Except Response Listing → Prop
  | .ok (.rows l), .ok (.rows l') => l.Perm l' ∧ l.map Row.rank = l'.map Row.rank
  | a, b => a = b

/-- The same keys with the property `P`, and the same is shown of them. -/
structure SameKeys (P : KeyRecord → Prop) (w w' : World V) : Prop where
  records : ∀ k r, P r → (w.runtime.lookup k = some r ↔ w'.runtime.lookup k = some r)
  usage : ∀ k r, P r → w.runtime.lookup k = some r → w.usage.lookup r.id = w'.usage.lookup r.id

/-- The same record of the tenant `t`, and the same figures. -/
structure SameFigures (t : String) (w w' : World V) : Prop where
  tenant : w.admin.tenant t = w'.admin.tenant t
  keyCount : keyCountForTenant w.runtime t = keyCountForTenant w'.runtime t
  userCount : userCountForTenant w.users t = userCountForTenant w'.users t
  agentCount : countForTenant w.agents t = countForTenant w'.agents t
  usage : tenantTotals w.usage t = tenantTotals w'.usage t

/-- The same in all that belongs to the tenant `t`. -/
structure SameTenant (t : String) (w w' : World V) : Prop where
  tenant : w.admin.tenant t = w'.admin.tenant t
  keys : SameKeys (·.tenantId = t) w w'
  users : ∀ id u, u.tenantId = some t → (w.users.lookup id = some u ↔ w'.users.lookup id = some u)
  usage : ∀ id r, r.current.tenantId = t → (w.usage.lookup id = some r ↔ w'.usage.lookup id = some r)
  agents : ∀ k e, k.tenantId = t → (w.agents.lookup k = some e ↔ w'.agents.lookup k = some e)
  inflight : ∀ k e, k.tenantId = t → w.agents.lookup k = some e →
    w.mem.inflight e.inflight = w'.mem.inflight e.inflight
  lastSeen : ∀ k e, k.tenantId = t → w.agents.lookup k = some e →
    (w.mem.health e.stableId).lastSeenMillis = (w'.mem.health e.stableId).lastSeenMillis
  pki : w.pki.isSome = w'.pki.isSome
  pairs : ∀ s s', w.pki = some s → w'.pki = some s' → ∀ id r, r.tenantId = t →
    (s.rows.lookup id = some r ↔ s'.rows.lookup id = some r)

/-- The same record of the principal, and of the tenant it is in. -/
structure SameSelf (p : Principal) (w w' : World V) : Prop where
  user : ∀ id, p.userId = some id → w.users.lookup id = w'.users.lookup id
  home : ∀ id u tid, p.userId = some id → w.users.lookup id = some u → u.tenantId = some tid →
    w.admin.tenant tid = w'.admin.tenant tid

/-- The keys of the principal. -/
def Owns (p : Principal) (r : KeyRecord) : Prop := ∃ u, p.userId = some u ∧ r.ownerUserId = some u

/-- What may be known to a principal of the tenant `t` is the same: to a user his keys and the figures of the
tenant, to its admin all of it. -/
def Alike (p : Principal) (t : String) (w w' : World V) : Prop :=
  SameSelf p w w' ∧
    match p.role with
    | .user => SameFigures t w w' ∧ SameKeys (fun r => r.tenantId = t ∧ Owns p r) w w'
    | _ => SameTenant t w w'

/-- Every key is in the tenant of its owner. So it is when it is created, and until the owner is moved. -/
def KeysAtHome (w : World V) : Prop := ∀ u, InTenant w.runtime w.users u

/-- The PKI status is shown. -/
def CountsAll (env : Env) (p : Principal) (q : Query) : Prop :=
  q = .pkiStatus ∧ p.role ≠ .user ∧ env.listFault = none

/-- The keys of the tenant are shown to its admin. -/
def NamesOwners (p : Principal) (t : String) (q : Query) : Prop :=
  p.role ≠ .user ∧ ∃ requested, q = .list .keys requested ∧ ∀ t', requested = some t' → t' = t

theorem Same.refl (a : Except Response Listing) : Same a a := by
  rcases a with r | l
  · rfl
  · cases l with
    | rows l => exact ⟨List.Perm.refl l, rfl⟩
    | one row => rfl
    | status s => rfl
    | me user => rfl

theorem perm_map {α β : Type*} {l l' : List α} {f g : α → β} (h : l.Perm l') (hfg : ∀ a ∈ l, f a = g a) :
    (l.map f).Perm (l'.map g) := by
  rw [List.map_congr_left hfg]
  exact h.map g

/-- Both lists are sorted by the key that the rank of a row is taken from. -/
theorem same_rows {α β : Type*} [LinearOrder β] (key : α → β) (rank : β → ℤ × List String) {l l' : List α}
    {f f' : α → Row} (h : l.Perm l') (hl : l.Pairwise fun a b => key a ≤ key b)
    (hl' : l'.Pairwise fun a b => key a ≤ key b) (hf : ∀ a ∈ l, f a = f' a)
    (hrank : ∀ a, (f' a).rank = rank (key a)) : Same (.ok (.rows (l.map f))) (.ok (.rows (l'.map f'))) := by
  refine ⟨perm_map h hf, ?_⟩
  have hmap : ∀ l : List α, (l.map f').map Row.rank = (l.map key).map rank := by
    intro l
    rw [List.map_map, List.map_map]
    exact List.map_congr_left fun a _ => hrank a
  rw [List.map_congr_left hf, hmap, hmap, map_eq_of_perm hl hl' h]

/-! ### Scopes -/

section scopes

variable {p : Principal} {t : String}

theorem scope_mine (hp : p.isSuper = false) (ht : p.tenantId = some t) {action : Action}
    (hall : allowed p.role action = true) {requested : Option String}
    (hown : ∀ t', requested = some t' → t' = t) : scope p action requested = .ok (some t) := by
  cases requested with
  | none => simp [scope, authorize, effectiveTenant, hp, ht, hall, Except.mapError]
  | some t' =>
    obtain rfl := hown t' rfl
    simp [scope, authorize, effectiveTenant, hp, ht, hall, Except.mapError]

/-- A principal of the tenant `t` is refused, or gets what is of `t`. -/
theorem scope_own (hp : p.isSuper = false) (ht : p.tenantId = some t) (action : Action)
    (requested : Option String) : (∃ r, scope p action requested = .error r) ∨
      (allowed p.role action = true ∧ (∀ t', requested = some t' → t' = t) ∧
        scope p action requested = .ok (some t)) := by
  cases h : authorize p action requested with
  | error e =>
    refine Or.inl ⟨rbacResponse e, ?_⟩
    unfold scope
    rw [h]
  | ok =>
    obtain ⟨hreq, hall⟩ := authorize_ok hp h
    have hown : ∀ t', requested = some t' → t' = t := by
      intro t' ht'
      have hpt : p.tenantId = some t' := hreq t' ht'
      exact Option.some.inj (hpt.symm.trans ht)
    exact Or.inr ⟨hall, hown, scope_mine hp ht hall hown⟩

theorem same_of_scope {action : Action} {f f' : Option String → Except Response Listing}
    (hp : p.isSuper = false) (ht : p.tenantId = some t) (requested : Option String)
    (h : allowed p.role action = true → (∀ t', requested = some t' → t' = t) → Same (f (some t)) (f' (some t))) :
    Same (scope p action requested >>= f) (scope p action requested >>= f') := by
  rcases scope_own hp ht action requested with ⟨r, hr⟩ | ⟨hall, hown, hok⟩
  · rw [hr]
    exact rfl
  · rw [hok]
    exact h hall hown

end scopes

/-! ### What is shown of one tenant -/

section shown

variable {P : KeyRecord → Prop} {w w' : World V} {p : Principal} {t : String}

theorem exists_lookup_of_mem {α β : Type*} [LinearOrder β] {f : α → β} {m : HashMap String α} {q : α → Bool}
    {r : α} (h : r ∈ sortOn f ((values m).filter q)) : (∃ k, m.lookup k = some r) ∧ q r = true := by
  obtain ⟨hv, hr⟩ := List.mem_filter.mp (mem_sortOn.mp h)
  exact ⟨(mem_values _ _).mp hv, hr⟩

theorem owned {u : String} (hu : p.userId = some u) {r : KeyRecord}
    (h : decide (r.tenantId = t ∧ r.ownerUserId = some u) = true) : r.tenantId = t ∧ Owns p r := by
  have hr : r.tenantId = t ∧ r.ownerUserId = some u := of_decide_eq_true h
  exact ⟨hr.1, u, hu, hr.2⟩

theorem keyRow_eq (htenant : w.admin.tenant t = w'.admin.tenant t) (h : SameKeys P w w') {k : String}
    {r : KeyRecord} (hr : P r) (hrt : r.tenantId = t) (hk : w.runtime.lookup k = some r)
    (howner : w.ownerUsername r = w'.ownerUsername r) : keyRow w r = keyRow w' r := by
  have husage : usageOf w.usage r.id = usageOf w'.usage r.id := by
    unfold usageOf
    rw [h.usage k r hr hk]
  unfold keyRow
  rw [hrt, htenant, howner, husage]

theorem same_keyRows (htenant : w.admin.tenant t = w'.admin.tenant t) (h : SameKeys P w w')
    {q : KeyRecord → Bool} (hq : ∀ r, q r = true → P r ∧ r.tenantId = t)
    (howner : ∀ k r, q r = true → w.runtime.lookup k = some r → w.ownerUsername r = w'.ownerUsername r) :
    Same (.ok (.rows ((sortOn (·.createdAt) ((values w.runtime).filter q)).map fun r => .key (keyRow w r))))
      (.ok (.rows ((sortOn (·.createdAt) ((values w'.runtime).filter q)).map fun r => .key (keyRow w' r)))) := by
  have hperm : ((values w.runtime).filter q).Perm ((values w'.runtime).filter q) :=
    perm_filter_values q fun k r hr => h.records k r (hq r hr).1
  refine same_rows (·.createdAt) (fun n : ℕ => (n, [])) (perm_sortOn _ hperm) (pairwise_sortOn _ _)
    (pairwise_sortOn _ _) (fun r hr => ?_) fun _ => rfl
  obtain ⟨⟨k, hk⟩, hr⟩ := exists_lookup_of_mem hr
  rw [keyRow_eq htenant h (hq r hr).1 (hq r hr).2 hk (howner k r hr hk)]

/-- The owner of a key that is in the tenant of its owner. -/
theorem ownerUsername_eq (h : SameTenant t w w') (hw : KeysAtHome w) (hw' : KeysAtHome w') {k : String}
    {r : KeyRecord} (hrt : r.tenantId = t) (hk : w.runtime.lookup k = some r) :
    w.ownerUsername r = w'.ownerUsername r := by
  cases ho : r.ownerUserId with
  | none => simp [World.ownerUsername, ho]
  | some o =>
    have howner : w.users.lookup o = w'.users.lookup o := by
      cases hx : w.users.lookup o with
      | some x =>
        have hxt : x.tenantId = some t := hrt ▸ hw o k r x hk ho hx
        exact ((h.users o x hxt).mp hx).symm
      | none =>
        cases hx' : w'.users.lookup o with
        | none => rfl
        | some x =>
          have hxt : x.tenantId = some t := hrt ▸ hw' o k r x ((h.keys.records k r hrt).mp hk) ho hx'
          have hx0 := (h.users o x hxt).mpr hx'
          rw [hx] at hx0
          cases hx0
    unfold World.ownerUsername
    rw [ho]
    exact congrArg (Option.map UserRecord.username) howner

theorem perm_usageForOwner {u : String} (hu : p.userId = some u)
    (h : SameKeys (fun r => r.tenantId = t ∧ Owns p r) w w') :
    (usageForOwner w.runtime w.usage t u).Perm (usageForOwner w'.runtime w'.usage t u) := by
  have hkeys : (listForOwner w.runtime t u).Perm (listForOwner w'.runtime t u) :=
    perm_sortOn _ (perm_filter_values _ fun k r hr => h.records k r (owned hu hr))
  have husage : ∀ id ∈ (listForOwner w.runtime t u).map (·.id), usageOf w.usage id = usageOf w'.usage id := by
    intro id hid
    obtain ⟨r, hr, rfl⟩ := List.mem_map.mp hid
    obtain ⟨⟨k, hk⟩, hr⟩ := exists_lookup_of_mem hr
    unfold usageOf
    rw [h.usage k r (owned hu hr) hk]
  refine perm_sortOn _ ?_
  rw [List.filterMap_congr husage]
  exact (hkeys.map _).filterMap _

theorem perm_listForTenant (h : SameTenant t w w') :
    (listForTenant w.runtime t).Perm (listForTenant w'.runtime t) :=
  perm_sortOn _ (perm_filter_values _ fun k r hr => h.keys.records k r (of_decide_eq_true hr))

theorem perm_usersForTenant (h : SameTenant t w w') :
    (usersForTenant w.users t).Perm (usersForTenant w'.users t) :=
  perm_sortOn _ (perm_filter_values _ fun k u hu => h.users k u (of_decide_eq_true hu))

theorem perm_usage (h : SameTenant t w w') :
    (w.usage.entries.filter fun e => decide (e.2.current.tenantId = t)).Perm
      (w'.usage.entries.filter fun e => decide (e.2.current.tenantId = t)) :=
  perm_filter_entries (fun _ r => decide (r.current.tenantId = t)) fun k r hr =>
    h.usage k r (of_decide_eq_true hr)

theorem perm_usageForTenant (h : SameTenant t w w') :
    (usageForTenant w.usage t).Perm (usageForTenant w'.usage t) :=
  perm_sortOn _ ((perm_usage h).map _)

theorem same_usageRows {l l' : List KeyUsageInfo} (h : (sortOn (·.keyId) l).Perm (sortOn (·.keyId) l')) :
    Same (.ok (.rows ((sortOn (·.keyId) l).map .usage))) (.ok (.rows ((sortOn (·.keyId) l').map .usage))) :=
  same_rows (fun u : KeyUsageInfo => u.keyId) (fun id => (0, [id])) h (pairwise_sortOn _ _)
    (pairwise_sortOn _ _) (fun _ _ => rfl) fun _ => rfl

theorem same_userRows (h : SameTenant t w w') :
    Same (.ok (.rows ((usersForTenant w.users t).map fun u => .user (userJson w.admin u))))
      (.ok (.rows ((usersForTenant w'.users t).map fun u => .user (userJson w'.admin u)))) := by
  refine same_rows (·.createdAt) (fun n : ℕ => (n, [])) (perm_usersForTenant h) (pairwise_sortOn _ _)
    (pairwise_sortOn _ _) (fun u hu => ?_) fun _ => rfl
  have hu : u.tenantId = some t := of_decide_eq_true (exists_lookup_of_mem hu).2
  unfold userJson
  rw [hu, Option.bind_some, Option.bind_some, h.tenant]

theorem perm_agents (env : Env) (h : SameTenant t w w') :
    ((snapshot w.agents w.mem env.nowMillis env.agentStaleAfter).filter (·.tenantId = t)).Perm
      ((snapshot w'.agents w'.mem env.nowMillis env.agentStaleAfter).filter (·.tenantId = t)) := by
  refine (filter_snapshot env w t).trans (List.Perm.trans ?_ (filter_snapshot env w' t).symm)
  refine perm_map (perm_filter_entries (fun k _ => decide (k.tenantId = t)) fun k e hk =>
    h.agents k e (of_decide_eq_true hk)) ?_
  rintro ⟨k, e⟩ he
  obtain ⟨he, hk⟩ := List.mem_filter.mp he
  have hk : k.tenantId = t := of_decide_eq_true hk
  have hlookup : w.agents.lookup k = some e := (mem_entries_iff _ _ _).mp he
  unfold agentInfo
  rw [h.inflight k e hk hlookup, h.lastSeen k e hk hlookup]

theorem same_agentRows (env : Env) (h : SameTenant t w w') :
    Same (.ok (.rows (((snapshot w.agents w.mem env.nowMillis env.agentStaleAfter).filter
        (·.tenantId = t)).map .agent)))
      (.ok (.rows (((snapshot w'.agents w'.mem env.nowMillis env.agentStaleAfter).filter
        (·.tenantId = t)).map .agent))) :=
  same_rows (fun a => toLex (a.tenantId, toLex (a.agentId, a.ip)))
    (fun x => (0, [(ofLex x).1, (ofLex (ofLex x).2).1, (ofLex (ofLex x).2).2])) (perm_agents env h)
    ((pairwise_sortOn _ _).filter _) ((pairwise_sortOn _ _).filter _) (fun _ _ => rfl) fun _ => rfl

/-- The newest come first. -/
theorem pairwise_list (rows : HashMap String PkiRecord) (now : ℤ) (tenantId : Option String) :
    (Pki.Service.list rows now tenantId).Pairwise fun a b =>
      OrderDual.toDual a.createdAt ≤ OrderDual.toDual b.createdAt := by
  refine List.pairwise_map.mpr ?_
  simp only [shown_createdAt, OrderDual.toDual_le_toDual]
  exact (List.pairwise_mergeSort newer_trans newer_total _).imp of_decide_eq_true

theorem perm_pairs (now : ℤ) {rows rows' : HashMap String PkiRecord}
    (h : ∀ id r, r.tenantId = t → (rows.lookup id = some r ↔ rows'.lookup id = some r)) :
    (Pki.Service.list rows now (some t)).Perm (Pki.Service.list rows' now (some t)) := by
  have hperm : ((values rows).filter fun r => (some t).all (· = r.tenantId)).Perm
      ((values rows').filter fun r => (some t).all (· = r.tenantId)) := by
    refine perm_filter_values _ fun k r hr => h k r ?_
    simpa [eq_comm] using hr
  exact (((List.mergeSort_perm _ _).trans hperm).trans (List.mergeSort_perm _ _).symm).map _

theorem same_pairRows (now : ℤ) {rows rows' : HashMap String PkiRecord}
    (h : ∀ id r, r.tenantId = t → (rows.lookup id = some r ↔ rows'.lookup id = some r)) :
    Same (.ok (.rows ((Pki.Service.list rows now (some t)).map fun r => .pair (pairRow r))))
      (.ok (.rows ((Pki.Service.list rows' now (some t)).map fun r => .pair (pairRow r)))) :=
  same_rows (fun r => OrderDual.toDual r.createdAt) (fun n => (OrderDual.ofDual n, [])) (perm_pairs now h)
    (pairwise_list _ _ _) (pairwise_list _ _ _) (fun _ _ => rfl) fun _ => rfl

/-! ### The figures of a tenant -/

theorem SameTenant.figures (h : SameTenant t w w') : SameFigures t w w' := by
  have hagents := perm_agents ⟨0, 0, 0, false, none⟩ h
  constructor
  · exact h.tenant
  · rw [← length_listForTenant, ← length_listForTenant]
    exact (perm_listForTenant h).length_eq
  · rw [← length_usersForTenant, ← length_usersForTenant]
    exact (perm_usersForTenant h).length_eq
  · rw [← length_filter_snapshot, ← length_filter_snapshot]
    exact hagents.length_eq
  · rw [tenantTotals_eq_sum, tenantTotals_eq_sum]
    exact ((perm_usage h).map _).sum_eq

theorem tenantRow_eq (h : SameFigures t w w') {r : TenantRecord} (hr : r.id = t) :
    tenantRow w r = tenantRow w' r := by
  unfold tenantRow
  rw [hr, h.keyCount, h.userCount, h.agentCount, h.usage]

theorem Alike.figures (h : Alike p t w w') : SameFigures t w w' := by
  obtain ⟨-, h⟩ := h
  split at h
  · exact h.1
  · exact h.figures

theorem Alike.tenant (h : Alike p t w w') (hp : p.role ≠ .user) : SameTenant t w w' := by
  obtain ⟨-, h⟩ := h
  split at h
  · next hrole => exact absurd hrole hp
  · exact h

end shown

/-! ### One listing in two states -/

section same

variable {w w' : World V} {p : Principal} {t : String}

/-- Users see keys, their usage and their tenant. -/
theorem not_user {action : Action} (haction : allowed .user action = false)
    (hall : allowed p.role action = true) : p.role ≠ .user := by
  intro hrole
  rw [hrole, haction] at hall
  cases hall

theorem same_byRole {α : Type} {own own' : String → String → List α} {ten ten' : String → List α}
    {all all' : List α} {f f' : α → Row}
    (hown : ∀ u, p.role = .user → p.userId = some u →
      Same (.ok (.rows ((own t u).map f))) (.ok (.rows ((own' t u).map f'))))
    (hten : p.role ≠ .user → Same (.ok (.rows ((ten t).map f))) (.ok (.rows ((ten' t).map f')))) :
    Same (byRole p (some t) own ten all >>= fun l => .ok (.rows (l.map f)))
      (byRole p (some t) own' ten' all' >>= fun l => .ok (.rows (l.map f'))) := by
  unfold byRole
  cases hrole : p.role with
  | user =>
    cases hu : p.userId with
    | none => exact rfl
    | some u => exact hown u hrole hu
  | tenantAdmin => exact hten (by simp [hrole])
  | superAdmin => exact hten (by simp [hrole])

theorem Alike.own (h : Alike p t w w') (hp : p.role = .user) :
    SameKeys (fun r => r.tenantId = t ∧ Owns p r) w w' := by
  obtain ⟨-, h⟩ := h
  rw [hp] at h
  exact h.2

theorem keysJson_same (hp : p.isSuper = false) (ht : p.tenantId = some t) (h : Alike p t w w')
    (requested : Option String)
    (howners : NamesOwners p t (.list .keys requested) → KeysAtHome w ∧ KeysAtHome w') :
    Same (keysJson w p requested) (keysJson w' p requested) := by
  refine same_of_scope hp ht requested fun _ hown => same_byRole (fun u hrole hu => ?_) fun hrole => ?_
  · refine same_keyRows h.figures.tenant (h.own hrole) (fun r hr => ?_) fun k r hr hk => ?_
    · have hmine := owned hu hr
      exact ⟨hmine, hmine.1⟩
    · -- the user sees his own name
      have hr : r.tenantId = t ∧ r.ownerUserId = some u := of_decide_eq_true hr
      unfold World.ownerUsername
      rw [hr.2]
      exact congrArg (Option.map UserRecord.username) (h.1.user u hu)
  · obtain ⟨hw, hw'⟩ := howners ⟨hrole, requested, rfl, hown⟩
    refine same_keyRows h.figures.tenant (h.tenant hrole).keys (fun r hr => ?_) fun k r hr hk => ?_
    · have hr : r.tenantId = t := of_decide_eq_true hr
      exact ⟨hr, hr⟩
    · exact ownerUsername_eq (h.tenant hrole) hw hw' (of_decide_eq_true hr) hk

theorem usageJson_same (hp : p.isSuper = false) (ht : p.tenantId = some t) (h : Alike p t w w')
    (requested : Option String) : Same (usageJson w p requested) (usageJson w' p requested) := by
  refine same_of_scope hp ht requested fun _ _ => same_byRole (fun u hrole hu => ?_) fun hrole => ?_
  · exact same_usageRows (perm_usageForOwner hu (h.own hrole))
  · exact same_usageRows (perm_usageForTenant (h.tenant hrole))

theorem withPki_same (env : Env) {f : PkiService V → Listing} (h : SameTenant t w w')
    (hf : env.listFault = none → ∀ s s', w.pki = some s → w'.pki = some s' → Same (.ok (f s)) (.ok (f s'))) :
    Same (withPki env w f) (withPki env w' f) := by
  have hsome := h.pki
  unfold withPki
  cases hs : w.pki with
  | none =>
    cases hs' : w'.pki with
    | none => exact rfl
    | some s' => simp [hs, hs'] at hsome
  | some s =>
    cases hs' : w'.pki with
    | none => simp [hs, hs'] at hsome
    | some s' =>
      cases hfault : env.listFault with
      | some e => exact rfl
      | none => exact hf hfault s s' hs hs'

theorem listPairs_same (env : Env) (hp : p.isSuper = false) (ht : p.tenantId = some t) (h : Alike p t w w')
    (requested : Option String) : Same (listPairs env w p requested) (listPairs env w' p requested) := by
  refine same_of_scope hp ht requested fun hall _ => ?_
  have hsame := h.tenant (not_user (by rfl) hall)
  exact withPki_same env hsame fun _ s s' hs hs' => same_pairRows env.nowSecs (hsame.pairs s s' hs hs')

theorem listTenants_same (hp : p.isSuper = false) (ht : p.tenantId = some t) (h : Alike p t w w') :
    Same (listTenants w p) (listTenants w' p) := by
  refine same_of_scope hp ht none fun _ _ => ?_
  have hrow : ∀ r ∈ (w.admin.tenant t).toList, Row.tenant (tenantRow w r) = .tenant (tenantRow w' r) := by
    intro r hr
    rw [tenantRow_eq h.figures (w.ids t r (Option.mem_toList.mp hr))]
  show Same (.ok (.rows ((w.admin.tenant t).toList.map _))) (.ok (.rows ((w'.admin.tenant t).toList.map _)))
  rw [← h.figures.tenant, List.map_congr_left hrow]
  exact Same.refl _

theorem listAudit_same (hp : p.isSuper = false) (ht : p.tenantId = some t) (requested : Option String) :
    Same (listAudit w p requested) (listAudit w' p requested) := by
  refine same_of_scope hp ht requested fun hall _ => ?_
  cases hrole : p.role with
  | superAdmin => simp [Principal.isSuper, hrole] at hp
  | tenantAdmin => simp [allowed, hrole] at hall
  | user => simp [allowed, hrole] at hall

/-- `status`, where it is refused or the table cannot be read. -/
theorem pkiStatus_same (env : Env) (hp : p.isSuper = false) (h : Alike p t w w')
    (hcount : ¬ CountsAll env p .pkiStatus) : Same (pkiStatus env w p) (pkiStatus env w' p) := by
  unfold pkiStatus
  cases hauth : authorize p .pkiRead none with
  | error e => exact rfl
  | ok =>
    have hrole := not_user (by rfl) (authorize_ok hp hauth).2
    exact withPki_same env (h.tenant hrole) fun hfault => absurd ⟨rfl, hrole, hfault⟩ hcount

theorem tenantById_same (hp : p.isSuper = false) (ht : p.tenantId = some t) (h : Alike p t w w')
    (id : String) : Same (tenantById w p id) (tenantById w' p id) := by
  unfold tenantById
  cases hauth : authorize p .tenantRead (some id) with
  | error e => exact rfl
  | ok =>
    have hid : id = t := by simpa [ht, eq_comm] using (authorize_ok hp hauth).1 id rfl
    have htenant := h.figures.tenant
    subst hid
    rw [← htenant]
    cases hr : w.admin.tenant id with
    | none => exact rfl
    | some r =>
      show Except.ok (Listing.one (.tenant (tenantRow w r))) = .ok (.one (.tenant (tenantRow w' r)))
      rw [tenantRow_eq h.figures (w.ids id r hr)]

theorem me_same (h : SameSelf p w w') (csrf : Option String) : Same (me w p csrf) (me w' p csrf) := by
  have heq : me w p csrf = me w' p csrf := by
    have huser : (p.userId.bind fun id => w.admin.user id) = p.userId.bind fun id => w'.admin.user id := by
      cases hid : p.userId with
      | none => rfl
      | some id => exact h.user id hid
    unfold me
    rw [← huser]
    cases hu : p.userId.bind fun id => w.admin.user id with
    | none => rfl
    | some u =>
      obtain ⟨id, hid, hlookup⟩ := Option.bind_eq_some_iff.mp hu
      have hhome : (u.tenantId.bind fun t => w.admin.tenant t) = u.tenantId.bind fun t => w'.admin.tenant t := by
        cases ht : u.tenantId with
        | none => rfl
        | some tid => exact h.home id u tid hid hlookup ht
      simp only [userJson, hhome]
  rw [heq]
  exact Same.refl _

/-- **One reading in two states.** -/
theorem respond_same (env : Env) (hp : p.isSuper = false) (ht : p.tenantId = some t) (h : Alike p t w w')
    {q : Query} (hcount : ¬ CountsAll env p q) (howners : NamesOwners p t q → KeysAtHome w ∧ KeysAtHome w') :
    Same (respond env w p q) (respond env w' p q) := by
  cases q with
  | list kind requested =>
    cases kind with
    | keys => exact keysJson_same hp ht h requested howners
    | usage => exact usageJson_same hp ht h requested
    | users =>
      refine same_of_scope hp ht requested fun hall _ => ?_
      exact same_userRows (h.tenant (not_user (by rfl) hall))
    | agents =>
      refine same_of_scope hp ht requested fun hall _ => ?_
      exact same_agentRows env (h.tenant (not_user (by rfl) hall))
    | pairs => exact listPairs_same env hp ht h requested
    | audit => exact listAudit_same hp ht requested
  | tenants => exact listTenants_same hp ht h
  | tenant id => exact tenantById_same hp ht h id
  | pkiStatus => exact pkiStatus_same env hp h hcount
  | me csrf => exact me_same h.1 csrf

end same

/-! ### What differs -/

section differs

variable {p : Principal} {t : String}

theorem foreign_ne (t : String) : t ++ "2" ≠ t := by
  intro h
  have hlen : (t ++ "2").length = t.length := congrArg String.length h
  rw [String.length_append] at hlen
  exact absurd hlen (by simp)

theorem lookup_singleton {α : Type} {k k' : String} {v v' : α} :
    (AList.singleton k v : HashMap String α).lookup k' = some v' ↔ k' = k ∧ v' = v := by
  rw [← mem_entries_iff]
  constructor
  · intro h
    have he : (⟨k', v'⟩ : (_ : String) × α) = ⟨k, v⟩ := List.mem_singleton.mp h
    cases he
    exact ⟨rfl, rfl⟩
  · rintro ⟨rfl, rfl⟩
    exact List.mem_singleton_self _

/-- An empty gateway but for these credentials. -/
def withPairs (V : Type) (pairs : HashMap String PkiRecord) : World V := exampleWorld V ∅ ∅ ∅ ∅ pairs

theorem alike_withPairs (hp : p.role ≠ .user) (now : ℤ) :
    Alike p t (withPairs V ∅) (withPairs V (AList.singleton "p1" (examplePair "p1" (t ++ "2") now))) := by
  refine ⟨⟨fun _ _ => rfl, fun _ _ _ _ _ _ => rfl⟩, ?_⟩
  split
  · next hrole => exact absurd hrole hp
  · refine ⟨rfl, ⟨fun _ _ _ => Iff.rfl, fun _ _ _ _ => rfl⟩, fun _ _ _ => Iff.rfl, fun _ _ _ => Iff.rfl,
      fun _ _ _ => Iff.rfl, fun _ _ _ _ => rfl, fun _ _ _ _ => rfl, rfl, ?_⟩
    rintro s s' hs hs' id r hr
    cases hs
    cases hs'
    constructor
    · intro h
      cases h
    · intro h
      obtain ⟨-, rfl⟩ := lookup_singleton.mp h
      exact absurd hr (foreign_ne t)

theorem keysAtHome_withPairs (pairs : HashMap String PkiRecord) : KeysAtHome (withPairs V pairs) :=
  fun _ _ _ _ h => by cases h

theorem active_foreign (t : String) (now : ℤ) :
    (activeRecords (AList.singleton "p1" (examplePair "p1" t now)) now).length = 1 := by
  rw [activeRecords, list_of_sorted (List.pairwise_singleton _ _)]
  simp [values, Pki.Service.PkiRecord.shown, examplePair, Status.active]

/-- What `status` shows of them. -/
def statusOf (env : Env) (pairs : HashMap String PkiRecord) : PkiStatus :=
  ⟨env.pkiEnabled, (activeRecords pairs env.nowSecs).length, false, (activeRecords pairs env.nowSecs).isEmpty⟩

theorem pkiStatus_withPairs {env : Env} (hok : authorize p .pkiRead none = .ok ()) (hfault : env.listFault = none)
    (pairs : HashMap String PkiRecord) :
    respond env (withPairs V pairs) p .pkiStatus = .ok (.status (statusOf env pairs)) := by
  simp only [respond, pkiStatus, hok, withPki, withPairs, exampleWorld, hfault]
  rfl

theorem allowed_admin (hp : p.isSuper = false) (hrole : p.role ≠ .user) (action : Action)
    (hall : allowed .tenantAdmin action = true) : allowed p.role action = true := by
  cases hr : p.role with
  | superAdmin => simp [Principal.isSuper, hr] at hp
  | tenantAdmin => exact hall
  | user => exact absurd hr hrole

/-- The credential of another tenant is counted. -/
theorem counts_differ {env : Env} {q : Query} (hp : p.isSuper = false) (ht : p.tenantId = some t)
    (h : CountsAll env p q) : ∃ w w' : World V, KeysAtHome w ∧ KeysAtHome w' ∧ Alike p t w w' ∧
      ¬ Same (respond env w p q) (respond env w' p q) := by
  obtain ⟨rfl, hrole, hfault⟩ := h
  refine ⟨_, _, keysAtHome_withPairs _, keysAtHome_withPairs _, alike_withPairs hrole env.nowSecs, fun hsame => ?_⟩
  have hok : authorize p .pkiRead none = .ok () := by
    simp [authorize, hp, ht, allowed_admin hp hrole .pkiRead rfl]
  rw [pkiStatus_withPairs hok hfault, pkiStatus_withPairs hok hfault] at hsame
  have hcount := congrArg PkiStatus.credentials (Listing.status.inj (Except.ok.inj hsame))
  have hnone : (activeRecords ∅ env.nowSecs).length = 0 := by simp [activeRecords, Pki.Service.list, values]
  exact absurd (hnone.symm.trans (hcount.trans (active_foreign (t ++ "2") env.nowSecs))) (by decide)

/-- A key of the tenant `t`, whose owner is now in another tenant. -/
def withOwner (V : Type) (t owner username : String) : World V :=
  exampleWorld V (AList.singleton "k1" (exampleKey "k1" t (some owner) 1))
    (AList.singleton owner (exampleUser owner username (t ++ "2") 1)) ∅ ∅ ∅

/-- A user that is not the principal. -/
def otherUser (p : Principal) : String := p.userId.getD "" ++ "2"

theorem alike_withOwner (hp : p.role ≠ .user) (username username' : String) :
    Alike p t (withOwner V t (otherUser p) username) (withOwner V t (otherUser p) username') := by
  have hself : ∀ id, p.userId = some id → ∀ username,
      (withOwner V t (otherUser p) username).users.lookup id = none := by
    intro id hid username
    refine Option.eq_none_iff_forall_ne_some.mpr fun u hu => ?_
    obtain ⟨heq, -⟩ := lookup_singleton.mp hu
    rw [otherUser, hid] at heq
    exact foreign_ne id heq.symm
  refine ⟨⟨fun id hid => ?_, fun _ _ _ _ _ _ => rfl⟩, ?_⟩
  · rw [hself id hid, hself id hid]
  · split
    · next hrole => exact absurd hrole hp
    · refine ⟨rfl, ⟨fun _ _ _ => Iff.rfl, fun _ _ _ _ => rfl⟩, ?_, fun _ _ _ => Iff.rfl,
        fun _ _ _ => Iff.rfl, fun _ _ _ _ => rfl, fun _ _ _ _ => rfl, rfl, ?_⟩
      · intro id u hu
        have hne : ∀ username, (withOwner V t (otherUser p) username).users.lookup id ≠ some u := by
          intro username h
          obtain ⟨-, rfl⟩ := lookup_singleton.mp h
          exact foreign_ne t (Option.some.inj hu)
        exact iff_of_false (hne _) (hne _)
      · rintro s s' hs hs' id r -
        cases hs
        cases hs'
        exact Iff.rfl

theorem keysJson_withOwner {requested : Option String} (hrole : p.role ≠ .user)
    (hscope : scope p .keyRead requested = .ok (some t)) (owner username : String) :
    ∃ row, keysJson (withOwner V t owner username) p requested = .ok (.rows [.key row]) ∧
      row.ownerUsername = some username := by
  rw [keysJson_of_scope _ hrole hscope]
  have hlist : listForTenant (withOwner V t owner username).runtime t = [exampleKey "k1" t (some owner) 1] := by
    have hvalues : values (withOwner V t owner username).runtime = [exampleKey "k1" t (some owner) 1] := rfl
    simp [listForTenant, hvalues, exampleKey, sortOn]
  have howner : (withOwner V t owner username).users.lookup owner =
      some (exampleUser owner username (t ++ "2") 1) := lookup_singleton.mpr ⟨rfl, rfl⟩
  rw [Option.elim_some, hlist]
  refine ⟨_, rfl, ?_⟩
  show ((withOwner V t owner username).users.lookup owner).map UserRecord.username = some username
  rw [howner]
  rfl

/-- The owner of a key is named who is not in the tenant. -/
theorem owners_differ {env : Env} {q : Query} (hp : p.isSuper = false) (ht : p.tenantId = some t)
    (h : NamesOwners p t q) : ∃ w w' : World V, Alike p t w w' ∧
      ¬ Same (respond env w p q) (respond env w' p q) := by
  obtain ⟨hrole, requested, rfl, hown⟩ := h
  have hscope : scope p .keyRead requested = .ok (some t) :=
    scope_mine hp ht (allowed_admin hp hrole .keyRead rfl) hown
  refine ⟨_, _, alike_withOwner hrole "ann" "bob", fun hsame => ?_⟩
  obtain ⟨row, hrow, hann⟩ := keysJson_withOwner (V := V) hrole hscope (otherUser p) "ann"
  obtain ⟨row', hrow', hbob⟩ := keysJson_withOwner (V := V) hrole hscope (otherUser p) "bob"
  have hperm : [Row.key row].Perm [Row.key row'] := by
    have hsame : Same (keysJson (withOwner V t (otherUser p) "ann") p requested)
      (keysJson (withOwner V t (otherUser p) "bob") p requested) := hsame
    rw [hrow, hrow'] at hsame
    exact hsame.1
  have heq : row = row' := Row.key.inj (List.singleton_perm_singleton.mp hperm)
  rw [heq, hbob] at hann
  exact absurd hann (by decide)

end differs

/-! ### Main results -/

/-- **The listings are confined.** For a principal of the tenant `t` that is not a super admin, a reading is the
same in all states that differ only in what belongs to other tenants (for a user, also in what belongs to other
users of the tenant, the figures of the tenant apart), but for two: `status` counts the active credentials of all
tenants for the admin of any, and `list_keys` names the owners of the keys to the admin, also those that are in
another tenant by now. Where every key is in the tenant of its owner, only the first is left. -/
theorem listings_confined_iff (env : Env) {p : Principal} {t : String} (hp : p.isSuper = false)
    (ht : p.tenantId = some t) (q : Query) :
    ((∀ w w' : World V, Alike p t w w' → Same (respond env w p q) (respond env w' p q)) ↔
      ¬ CountsAll env p q ∧ ¬ NamesOwners p t q) ∧
    ((∀ w w' : World V, KeysAtHome w → KeysAtHome w' → Alike p t w w' →
      Same (respond env w p q) (respond env w' p q)) ↔ ¬ CountsAll env p q) := by
  refine ⟨⟨fun h => ⟨fun hcount => ?_, fun howners => ?_⟩, ?_⟩, fun h hcount => ?_, ?_⟩
  · obtain ⟨w, w', -, -, halike, hne⟩ := counts_differ hp ht hcount
    exact hne (h w w' halike)
  · obtain ⟨w, w', halike, hne⟩ := owners_differ hp ht howners
    exact hne (h w w' halike)
  · rintro ⟨hcount, howners⟩ w w' halike
    exact respond_same env hp ht halike hcount fun h => absurd h howners
  · obtain ⟨w, w', hw, hw', halike, hne⟩ := counts_differ hp ht hcount
    exact hne (h w w' hw hw' halike)
  · intro hcount w w' hw hw' halike
    exact respond_same env hp ht halike hcount fun _ => ⟨hw, hw'⟩

/-- Both exceptions, and two readings that are confined. -/
theorem listings_confined_iff_default :
    (¬ ∀ w w' : World Unit, Alike defaultAdmin "default" w w' →
      Same (respond exampleEnv w defaultAdmin .pkiStatus) (respond exampleEnv w' defaultAdmin .pkiStatus)) ∧
    (¬ ∀ w w' : World Unit, Alike defaultAdmin "default" w w' → Same
      (respond exampleEnv w defaultAdmin (.list .keys none))
      (respond exampleEnv w' defaultAdmin (.list .keys none))) ∧
    (∀ w w' : World Unit, KeysAtHome w → KeysAtHome w' → Alike defaultAdmin "default" w w' → Same
      (respond exampleEnv w defaultAdmin (.list .keys none))
      (respond exampleEnv w' defaultAdmin (.list .keys none))) ∧
    ∀ w w' : World Unit, Alike defaultAdmin "default" w w' → Same
      (respond exampleEnv w defaultAdmin (.me (some "token")))
      (respond exampleEnv w' defaultAdmin (.me (some "token"))) := by
  have hcount : ∀ q, q ≠ .pkiStatus → ¬ CountsAll exampleEnv defaultAdmin q := fun q hq h => hq h.1
  have howners : NamesOwners defaultAdmin "default" (.list .keys none) := ⟨by decide, none, rfl, by simp⟩
  refine ⟨fun h => ?_, fun h => ?_, ?_, ?_⟩
  · exact ((listings_confined_iff exampleEnv rfl rfl .pkiStatus).1.mp h).1 ⟨rfl, by decide, rfl⟩
  · exact ((listings_confined_iff exampleEnv rfl rfl (.list .keys none)).1.mp h).2 howners
  · exact (listings_confined_iff exampleEnv rfl rfl (.list .keys none)).2.mpr (hcount _ (by decide))
  · refine (listings_confined_iff exampleEnv rfl rfl (.me (some "token"))).1.mpr ⟨hcount _ (by decide), ?_⟩
    rintro ⟨-, requested, hq, -⟩
    cases hq

end HomeLlmGateway.Admin.ListingConfinement
