import HomeLlmGateway.Registry.System

/-! # What a takeover closes

A registration closes the connection of the entry it finds under its key, at once or by a deferred close.
The source takes for granted that this is another connection, since the new `stable_id` is fresh. That is
so unless a connection registers a node anew while the table still has its own entry for it, which
`accepts_for_tenant` admits: then the registration closes the connection it came over. -/

namespace HomeLlmGateway.Registry.Takeover

open HomeLlmGateway.Lib.Runs
open HomeLlmGateway.Registry.Node HomeLlmGateway.Registry.Table HomeLlmGateway.Registry.System

variable {allowLegacy : Bool} {s s' : State} {l : Label}

/-- The entry that the registration under way over `c` is about to replace. -/
def toReplace (s : State) (c : ℕ) : Option Entry :=
  (s.conns.lookup c).bind fun cn =>
    match cn.handler with
    | .numbered r _ => s.agents.lookup (r.key cn.peerIp)
    | _ => none

/-- No registration replaces an entry that points to the connection it comes over. -/
def FromElsewhere (s : State) : Label → Prop
  | .insert c _ => (toReplace s c).map (·.conn) ≠ some c
  | _ => True

/-- The superseded entry that a registration still has to deal with. -/
def replaced : Handler → Option Superseded
  | .inserted _ _ old | .closing _ _ old _ => some old
  | .accepting | .numbered _ _ | .noting _ _ | .dropping _ | .ended => none

/-- No registration is about to close, or has closed, the connection it came over. -/
structure NoSelfClose (s : State) : Prop where
  handler : ∀ c t old, s.task c = some t → replaced t.handler = some old → old.conn ≠ c
  deferred : ∀ d ∈ s.deferred, ∀ c sid, d.closer = .takeover c sid → d.conn ≠ c
  closes : ∀ ev ∈ s.closes, ∀ c sid, ev.closer = .takeover c sid → ev.conn ≠ c

theorem noSelfClose_init : NoSelfClose init where
  handler c t old h := by cases h
  deferred d h := by cases h
  closes ev h := by cases h

theorem NoSelfClose.of_added (h : NoSelfClose s)
    (ht : ∀ c t, s'.task c = some t → s.task c = some t ∨
      ∀ old, replaced t.handler = some old → old.conn ≠ c)
    (hd : ∀ d ∈ s'.deferred, d ∈ s.deferred ∨ ∀ c sid, d.closer = .takeover c sid → d.conn ≠ c)
    (hc : ∀ ev ∈ s'.closes, ev ∈ s.closes ∨ ∀ c sid, ev.closer = .takeover c sid → ev.conn ≠ c) :
    NoSelfClose s' where
  handler c t old h1 h2 := (ht c t h1).elim (fun h' => h.handler c t old h' h2) fun h' => h' old h2
  deferred d h1 := (hd d h1).elim (h.deferred d) id
  closes ev h1 := (hc ev h1).elim (h.closes ev) id

/-- A step of the task of `c` only has to say what it is about to close. -/
theorem task_setConn_or {c : ℕ} {cn : Conn}
    (hcn : ∀ old, replaced cn.handler = some old → old.conn ≠ c) {c' : ℕ} {t : Task}
    (ht : (s.setConn c cn).task c' = some t) :
    s.task c' = some t ∨ ∀ old, replaced t.handler = some old → old.conn ≠ c' := by
  rw [task_setConn] at ht
  split_ifs at ht with hc
  · cases ht
    subst hc
    exact Or.inr hcn
  · exact Or.inl ht

theorem closes_or {c : ℕ} {closer : Closer} {g : Bool}
    (hcl : ∀ c' sid, closer = .takeover c' sid → c ≠ c') {ev : CloseEvent}
    (hev : ev ∈ s.closes ++ [⟨c, closer, g⟩]) :
    ev ∈ s.closes ∨ ∀ c' sid, ev.closer = .takeover c' sid → ev.conn ≠ c' := by
  rcases List.mem_append.mp hev with hev | hev
  · exact Or.inl hev
  · rw [List.mem_singleton.mp hev]
    exact Or.inr hcl

theorem deferred_or {P : DeferredClose → Prop} {ds : List DeferredClose} {d0 : DeferredClose}
    (hP : P d0) (d : DeferredClose) (hd : d ∈ ds ++ [d0]) : d ∈ ds ∨ P d := by
  rcases List.mem_append.mp hd with hd | hd
  · exact Or.inl hd
  · rw [List.mem_singleton.mp hd]
    exact Or.inr hP

/-- **One step**: a registration that comes from elsewhere does not close its own connection. -/
theorem noSelfClose_step (h : NoSelfClose s) (hC : FromElsewhere s l)
    (hs : step allowLegacy s l = some s') : NoSelfClose s' := by
  have hsame : ∀ d ∈ s.deferred, d ∈ s.deferred ∨
      ∀ c sid, d.closer = .takeover c sid → d.conn ≠ c := fun d hd => Or.inl hd
  have hsame' : ∀ ev ∈ s.closes, ev ∈ s.closes ∨
      ∀ c sid, ev.closer = .takeover c sid → ev.conn ≠ c := fun ev hev => Or.inl hev
  cases move_of_step hs with
  | nothing => exact h
  | health | acquire | release | fatal | strike | remove =>
    exact h.of_added (fun c t ht => Or.inl ht) hsame hsame'
  | connect | number | note | hangUp | dropNext | dropEnd | insertNew =>
    refine h.of_added (fun c t ht => ?_) hsame hsame'
    exact task_setConn_or (by intro old ho; cases ho) ht
  | refuse c f v now cn hc hh =>
    refine h.of_added (fun c t ht => Or.inl ?_) hsame fun ev hev => closes_or (by simp) hev
    rwa [task_close] at ht
  | refuseAndEnd c f v now cn hc hh =>
    refine h.of_added (fun c t ht => ?_) hsame fun ev hev => closes_or (by simp) hev
    rw [task_close] at ht
    exact task_setConn_or (by intro old ho; cases ho) ht
  | insertOver c now cn r sid old hc hh ho =>
    refine h.of_added (fun c' t ht => ?_) hsame hsame'
    refine task_setConn_or (fun old' ho' hself => ?_) ht
    cases ho'
    refine hC ?_
    simp only [toReplace, hc, Option.bind_some, hh, ho, Option.map_some]
    exact congrArg some hself
  | load c cn r sid old hc hh =>
    refine h.of_added (fun c' t ht => ?_) hsame hsame'
    refine task_setConn_or (fun old' ho' => ?_) ht
    cases ho'
    exact h.handler c _ old (task_of_lookup hc) (by simp [replaced, hh])
  | closeNow c cn r sid old hc hh =>
    have hne : old.conn ≠ c := h.handler c _ old (task_of_lookup hc) (by simp [replaced, hh])
    refine h.of_added (fun c' t ht => ?_) hsame fun ev hev => closes_or ?_ hev
    · rw [task_close] at ht
      exact task_setConn_or (by intro old ho; cases ho) ht
    · intro c' sid' hcl
      cases hcl
      exact hne
  | closeLater c cn r sid old n hc hh =>
    have hne : old.conn ≠ c := h.handler c _ old (task_of_lookup hc) (by simp [replaced, hh])
    refine h.of_added (fun c' t ht => ?_) (deferred_or ?_) hsame'
    · have ht' : (s.setConn c { cn with handler := .noting r sid }).task c' = some t := ht
      exact task_setConn_or (by intro old ho; cases ho) ht'
    · intro c' sid' hcl
      cases hcl
      exact hne
  | evictNow q sl e n hq hr hn =>
    refine h.of_added (fun c t ht => Or.inl ?_) hsame fun ev hev => closes_or (by simp) hev
    rwa [task_close] at ht
  | evictLater q sl e n hq hr =>
    exact h.of_added (fun c t ht => Or.inl ht) (deferred_or (by simp)) hsame'
  | drained i d hd hz =>
    refine h.of_added (fun c t ht => Or.inl ht) (fun d' hd' => ?_) hsame'
    rcases List.mem_or_eq_of_mem_set hd' with hd' | rfl
    · exact Or.inl hd'
    · exact Or.inr (h.deferred d (List.mem_of_getElem? hd))
  | deferredClose i d hd hz =>
    refine h.of_added (fun c t ht => Or.inl ?_) (fun d' hd' => Or.inl (List.mem_of_mem_eraseIdx hd'))
      fun ev hev => closes_or (h.deferred d (List.mem_of_getElem? hd)) hev
    rwa [task_close] at ht
  | deferredGrace i d hd =>
    refine h.of_added (fun c t ht => Or.inl ?_) (fun d' hd' => Or.inl (List.mem_of_mem_eraseIdx hd'))
      fun ev hev => closes_or (h.deferred d (List.mem_of_getElem? hd)) hev
    rwa [task_close] at ht

/-- **A registration does not kill itself**, in every run in which no connection registers a node anew
while the table has its own entry for it: what the registrations have closed, and what they have left to
deferred closes, are other connections. -/
theorem registration_spares_itself (ls : List Label)
    (hC : AllSteps (step allowLegacy) FromElsewhere init ls)
    (h : run (step allowLegacy) init ls = some s) :
    (∀ ev ∈ s.closes, ∀ c sid, ev.closer = .takeover c sid → ev.conn ≠ c) ∧
      ∀ d ∈ s.deferred, ∀ c sid, d.closer = .takeover c sid → d.conn ≠ c := by
  have hn : NoSelfClose s := run_invariant_of (I := NoSelfClose) (C := FromElsewhere)
    (fun _ _ _ hi hc hs => noSelfClose_step hi hc hs) ls init s noSelfClose_init hC h
  exact ⟨hn.closes, hn.deferred⟩

instance (s : State) : ∀ l, Decidable (FromElsewhere s l)
  | .insert _ _ => inferInstanceAs (Decidable (_ ≠ _))
  | .connect _ _ | .frame _ _ _ _ | .loadInflight _ | .closeOld _ | .note _ | .hangUp _ | .dropNext _
  | .acquire _ _ | .release _ | .report _ _ _ | .evict _ | .evictClose _ | .headOk _ _
  | .deferredLoad _ | .deferredClose _ | .deferredGrace _ => isTrue trivial

/-- An agent that reconnects: its new connection closes the old one. -/
theorem registration_spares_itself_reconnect : ∃ s, run (step true) init
    [.connect 0 (.v4 1), .frame 0 (.register "a" ["*"] 0 "") false 0, .insert 0 0, .note 0,
      .connect 1 (.v4 1), .frame 1 (.register "a" ["*"] 0 "") false 0, .insert 1 0, .loadInflight 1,
      .closeOld 1, .note 1] = some s ∧ s.closes = [⟨0, .takeover 1 2, false⟩] ∧
    ∀ ev ∈ s.closes, ∀ c sid, ev.closer = .takeover c sid → ev.conn ≠ c := by
  obtain ⟨s, hs, hcl⟩ := exists_run (step true) init
    [.connect 0 (.v4 1), .frame 0 (.register "a" ["*"] 0 "") false 0, .insert 0 0, .note 0,
      .connect 1 (.v4 1), .frame 1 (.register "a" ["*"] 0 "") false 0, .insert 1 0, .loadInflight 1,
      .closeOld 1, .note 1] (fun s => s.closes = [⟨0, .takeover 1 2, false⟩]) (by decide)
  exact ⟨s, hs, hcl, (registration_spares_itself _ (by decide) hs).1⟩

/-- A connection that registers the same agent twice closes itself. -/
theorem refresh_closes_itself :
    ¬ ∀ s, Reaches (step true) init s → ∀ ev ∈ s.closes, ∀ c sid, ev.closer = .takeover c sid →
      ev.conn ≠ c := by
  intro hall
  obtain ⟨s, hs, hcl⟩ := exists_run (step true) init
    [.connect 0 (.v4 1), .frame 0 (.register "a" ["*"] 0 "") false 0, .insert 0 0, .note 0,
      .frame 0 (.register "a" ["*"] 0 "") false 0, .insert 0 0, .loadInflight 0, .closeOld 0]
    (fun s => s.closes = [⟨0, .takeover 0 2, false⟩]) (by decide)
  exact hall s ⟨_, hs⟩ ⟨0, .takeover 0 2, false⟩ (by rw [hcl]; simp) 0 2 rfl rfl

end HomeLlmGateway.Registry.Takeover
