import HomeLlmGateway.Agent.Stream

/-! # The protocol of a request stream

What the agent writes on a request stream, for every stream that arrives, every behaviour of the upstream
and every moment of a cancellation: one of a few whole answers (`Complete`), or a beginning of one if a
write fails. The invariant follows the task from its first frame; what the response body has done so far is
read off the labels of the run. -/

namespace HomeLlmGateway.Agent.Protocol

open HomeLlmGateway.Lib.Runs HomeLlmGateway.Lib.ByteCodec HomeLlmGateway.Proto.Frames
open HomeLlmGateway.Proto.Io (IoError)
open HomeLlmGateway.Agent.Stream

/-! ### Whole answers -/

/-- A response that has begun: the head and any number of body frames. -/
def Opened (id : UInt64) (w : List Frame) : Prop :=
  ∃ (status : UInt16) (headers : Headers) (chunks : List Bytes),
    w = .proxyResponseHead id status headers :: chunks.map (.proxyResponseBody id)

/-- **A whole answer** to the request `id`. -/
inductive Complete (id : UInt64) : List Frame → Prop
  | invalid (message : String) : Complete id [.error (some id) 400 message]
  | failed (message : String) : Complete id [.error (some id) 502 message]
  | cancelled (message : String) : Complete id [.error (some id) 499 message]
  | ended (w : List Frame) (ok : Bool) (h : Opened id w) : Complete id (w ++ [.proxyResponseEnd id ok])
  | cancelledLate (w : List Frame) (message : String) (h : Opened id w) :
      Complete id (w ++ [.error (some id) 499 message])

/-- A frame after which nothing may come. -/
def terminal : Frame → Bool
  | .proxyResponseEnd _ _ => true
  | .error _ _ _ => true
  | _ => false

/-- The request that the first result of the reader asks for, if path and method are accepted. -/
def accepted (env : Env) : Except IoError (Option Frame) → Option (UInt64 × UpstreamRequest)
  | .ok (some (.proxyRequest id method path headers body)) =>
    (upstreamUrl env.upstream path).bind fun url =>
      if env.validMethod method then some (id, ⟨method, url, requestHeaders headers, body⟩) else none
  | _ => none

/-- The id of the request, if the first result is one. -/
def requestId : Except IoError (Option Frame) → Option UInt64
  | .ok (some (.proxyRequest id _ _ _ _)) => some id
  | _ => none

theorem requestId_of_accepted {env : Env} {r : Except IoError (Option Frame)} {id : UInt64}
    {request : UpstreamRequest} (h : accepted env r = some (id, request)) : requestId r = some id := by
  unfold accepted at h
  split at h
  · obtain ⟨url, -, h⟩ := Option.bind_eq_some_iff.mp h
    split_ifs at h
    cases h
    rfl
  · cases h

theorem start_cases (env : Env) (s : State) (r : Except IoError (Option Frame)) :
    (requestId r = none ∧ start env s r = { s with pc := .returned }) ∨
      (∃ id message, requestId r = some id ∧
        start env s r = { s with pc := .refusing (.error (some id) 400 message) }) ∨
      ∃ id request, accepted env r = some (id, request) ∧
        start env s r = { s with pc := .requesting id request false, listening := true } := by
  unfold start
  split
  · next id method path headers body =>
    cases hu : upstreamUrl env.upstream path with
    | none => exact Or.inr (Or.inl ⟨id, _, rfl, rfl⟩)
    | some url =>
      dsimp only
      split_ifs with hm
      · refine Or.inr (Or.inr ⟨id, _, ?_, rfl⟩)
        simp [accepted, hu, hm]
      · exact Or.inr (Or.inl ⟨id, _, rfl, rfl⟩)
  · next hr =>
    refine Or.inl ⟨?_, rfl⟩
    unfold requestId
    split
    · exact absurd rfl (hr _ _ _ _ _)
    · rfl

theorem Opened.head (id : UInt64) (status : UInt16) (headers : Headers) :
    Opened id [.proxyResponseHead id status headers] := ⟨status, headers, [], rfl⟩

theorem Opened.piece {id : UInt64} {w : List Frame} (h : Opened id w) (piece : Bytes) :
    Opened id (w ++ [.proxyResponseBody id piece]) := by
  obtain ⟨status, headers, chunks, rfl⟩ := h
  exact ⟨status, headers, chunks ++ [piece], by simp⟩

theorem Opened.not_terminal {id : UInt64} {w : List Frame} (h : Opened id w) :
    ∀ f ∈ w, terminal f = false := by
  obtain ⟨status, headers, chunks, rfl⟩ := h
  intro f hf
  rcases List.mem_cons.mp hf with rfl | hf
  · rfl
  · obtain ⟨c, -, rfl⟩ := List.mem_map.mp hf
    rfl

theorem Complete.split {id : UInt64} {w : List Frame} (h : Complete id w) :
    ∃ body last, w = body ++ [last] ∧ terminal last = true ∧ ∀ f ∈ body, terminal f = false := by
  cases h with
  | invalid message => exact ⟨[], _, rfl, rfl, by simp⟩
  | failed message => exact ⟨[], _, rfl, rfl, by simp⟩
  | cancelled message => exact ⟨[], _, rfl, rfl, by simp⟩
  | ended w ok h => exact ⟨w, _, rfl, rfl, h.not_terminal⟩
  | cancelledLate w message h => exact ⟨w, _, rfl, rfl, h.not_terminal⟩

/-- Nothing comes after a terminal frame, in a whole answer and in what is cut off from one. -/
theorem nothing_after_terminal {id : UInt64} {full w pre post : List Frame} {f : Frame}
    (h : Complete id full) (hw : w <+: full) (hs : w = pre ++ f :: post) (hf : terminal f = true) :
    post = [] := by
  obtain ⟨body, last, rfl, -, hb⟩ := h.split
  obtain ⟨rest, hrest⟩ := hw
  rw [hs, List.append_assoc, List.cons_append] at hrest
  by_contra hne
  have hlen := congrArg List.length hrest
  have hpost := List.length_pos_iff.mpr hne
  simp only [List.length_append, List.length_cons, List.length_nil] at hlen
  have hmem : f ∈ body := by
    have hget := congrArg (fun l : List Frame => l[pre.length]?) hrest
    simp only [List.getElem?_append_right (Nat.le_refl _), Nat.sub_self, List.getElem?_cons_zero] at hget
    rw [List.getElem?_append_left (by omega)] at hget
    exact List.mem_of_getElem? hget.symm
  rw [hb f hmem] at hf
  cases hf

/-! ### The invariant -/

/-- What holds at each point of the task of what was written, with `r` the first result of the reader. -/
def PcOk (env : Env) (r : Except IoError (Option Frame)) (s : State) : Prop :=
  match s.pc with
  | .reading => False
  | .refusing f => s.cut = false ∧ ∃ id code message, f = .error (some id) code message ∧
      requestId r = some id ∧ Complete id (s.written ++ [f])
  | .requesting id request sent => s.cut = false ∧ s.written = [] ∧ accepted env r = some (id, request) ∧
      s.contacts = if sent then [request] else []
  | .writingHead id _ => s.cut = false ∧ requestId r = some id ∧ s.written = []
  | .relaying id => s.cut = false ∧ requestId r = some id ∧ Opened id s.written
  | .writingPieces id _ => s.cut = false ∧ requestId r = some id ∧ Opened id s.written
  | .writingEnd id _ => s.cut = false ∧ requestId r = some id ∧ Opened id s.written
  | .returned => (requestId r = none ∧ s.written = []) ∨ ∃ id, requestId r = some id ∧
      ((s.cut = false ∧ Complete id s.written) ∨
        (s.cut = true ∧ ∃ full, Complete id full ∧ s.written <+: full))

/-- The upstream is contacted for the accepted request, once. -/
def ContactsOk (env : Env) (r : Except IoError (Option Frame)) (contacts : List UpstreamRequest) : Prop :=
  contacts = [] ∨ ∃ id request, accepted env r = some (id, request) ∧ contacts = [request]

/-- The response body has failed in the run so far. -/
def BodyFailed (ls : List Label) : Prop := .body .error ∈ ls

/-- The response body has ended well in the run so far. -/
def BodyEnded (ls : List Label) : Prop := .body .eof ∈ ls ∧ ¬ BodyFailed ls

/-- The points that a failed body does not lead to. -/
def unfailed : Pc → Bool
  | .writingEnd _ false => false
  | .returned => false
  | _ => true

/-- **The invariant** of a request stream with the results `up` to come. -/
structure Inv (env : Env) (up : List (Except IoError (Option Frame))) (ls : List Label) (s : State) :
    Prop where
  phase : (s.pc = .reading ∧ s.incoming = up ∧ s.written = [] ∧ s.contacts = [] ∧ s.cut = false ∧
      s.listening = false) ∨
    ∃ r rest, up = r :: rest ∧ s.incoming <:+ rest ∧ PcOk env r s ∧ ContactsOk env r s.contacts
  unfailed : unfailed s.pc = true → ¬ BodyFailed ls
  ended : ∀ id, (.proxyResponseEnd id true ∈ s.written ∨ s.pc = .writingEnd id true) → BodyEnded ls

section steps

variable {env : Env} {up : List (Except IoError (Option Frame))} {ls : List Label} {l : Label}
  {s s' : State} {r : Except IoError (Option Frame)} {rest : List (Except IoError (Option Frame))}

theorem bodyFailed_concat (hl : l ≠ .body .error) (h : ¬ BodyFailed ls) : ¬ BodyFailed (ls ++ [l]) := by
  intro hf
  rcases List.mem_append.mp hf with hf | hf
  · exact h hf
  · exact hl (List.mem_singleton.mp hf).symm

theorem BodyEnded.concat (hl : l ≠ .body .error) (h : BodyEnded ls) : BodyEnded (ls ++ [l]) :=
  ⟨List.mem_append_left _ h.1, bodyFailed_concat hl h.2⟩

/-- Whatever a write was about: what is there is a beginning of a whole answer. -/
theorem prefix_of_pcOk (h : PcOk env r s) {f : Frame} (hf : writing s.pc = some f) :
    ∃ id, requestId r = some id ∧ ∃ full, Complete id full ∧ s.written <+: full := by
  cases hpc : s.pc with
  | refusing f' =>
    simp only [PcOk, hpc] at h
    obtain ⟨-, id, code, message, -, hid, hc⟩ := h
    exact ⟨id, hid, _, hc, List.prefix_append _ _⟩
  | writingHead id hd =>
    simp only [PcOk, hpc] at h
    rw [h.2.2]
    exact ⟨id, h.2.1, _, .failed "", List.nil_prefix⟩
  | writingPieces id rest | writingEnd id ok =>
    simp only [PcOk, hpc] at h
    exact ⟨id, h.2.1, _, .ended _ true h.2.2, List.prefix_append _ _⟩
  | reading | requesting | relaying | returned => rw [hpc] at hf; cases hf

theorem pcOk_goOn {id : UInt64} (hid : requestId r = some id) (ho : Opened id s.written)
    (hcut : s.cut = false) (b : Bytes) : PcOk env r (goOn s id b) := by
  unfold goOn PcOk
  by_cases hb : b.isEmpty = true
  · simp only [hb, if_true]
    exact ⟨hcut, hid, ho⟩
  · simp only [hb]
    exact ⟨hcut, hid, ho⟩

theorem hear_spec (s : State) (r : Except IoError (Option Frame)) :
    (hear s r).pc = s.pc ∧ (hear s r).written = s.written ∧ (hear s r).contacts = s.contacts ∧
      (hear s r).cut = s.cut ∧ (hear s r).incoming = s.incoming := by
  unfold hear
  split <;> exact ⟨rfl, rfl, rfl, rfl, rfl⟩

theorem goOn_spec (s : State) (id : UInt64) (b : Bytes) :
    (goOn s id b).written = s.written ∧ (goOn s id b).contacts = s.contacts ∧
      (goOn s id b).incoming = s.incoming ∧ unfailed (goOn s id b).pc = true ∧
      ∀ id' ok, (goOn s id b).pc ≠ .writingEnd id' ok := by
  unfold goOn
  by_cases hb : b.isEmpty = true
  · simp [hb, unfailed]
  · simp [hb, unfailed]

theorem Inv.begun (h : Inv env up ls s) (hpc : s.pc ≠ .reading) :
    ∃ r rest, up = r :: rest ∧ s.incoming <:+ rest ∧ PcOk env r s ∧ ContactsOk env r s.contacts :=
  h.phase.resolve_left fun hr => hpc hr.1

theorem first_of_reading (hm : Move env s l s') (hpc : s.pc = .reading) (hl : s.listening = false) :
    ∃ r rest, s.incoming = r :: rest ∧ s' = start env { s with incoming := rest } r := by
  cases hm with
  | start r rest _ hi => exact ⟨r, rest, hi, rfl⟩
  | hear r rest hl' => rw [hl] at hl'; cases hl'
  | writeFailed f hf => rw [hpc] at hf; cases hf
  | contact _ _ hpc' | head _ _ _ hpc' | failed _ _ _ hpc' | cancelEarly _ _ _ hpc' | cancelLate _ hpc'
  | chunk _ _ hpc' | bodyError _ hpc' | eof _ hpc' | refused _ hpc' | headWritten _ _ hpc'
  | pieceWritten _ _ _ _ hpc' | endWritten _ _ hpc' => rw [hpc] at hpc'; cases hpc'

theorem incoming_start (env : Env) (s : State) (r : Except IoError (Option Frame)) :
    (start env s r).incoming = s.incoming := by
  rcases start_cases env s r with ⟨-, hs⟩ | ⟨_, _, -, hs⟩ | ⟨_, _, -, hs⟩
  · rw [hs]
  · rw [hs]
  · rw [hs]

theorem pcOk_start (env : Env) (r : Except IoError (Option Frame)) (hw : s.written = []) (hc : s.contacts = [])
    (hcut : s.cut = false) : PcOk env r (start env s r) ∧ ContactsOk env r (start env s r).contacts := by
  rcases start_cases env s r with ⟨hid, hs⟩ | ⟨id, message, hid, hs⟩ | ⟨id, request, hacc, hs⟩
  · rw [hs]
    exact ⟨Or.inl ⟨hid, hw⟩, Or.inl hc⟩
  · rw [hs]
    refine ⟨⟨hcut, id, 400, message, rfl, hid, ?_⟩, Or.inl hc⟩
    show Complete id (s.written ++ _)
    rw [hw]
    exact .invalid message
  · rw [hs]
    exact ⟨⟨hcut, hw, hacc, by simpa using hc⟩, Or.inl hc⟩

/-- **A step of the task past its first frame.** -/
theorem PcOk.move (h : PcOk env r s) (hm : Move env s l s') : PcOk env r s' := by
  cases hm with
  | start _ _ hpc => simp only [PcOk, hpc] at h
  | hear r' rest hl hi =>
    obtain ⟨hpc, hw, hc, hcut, -⟩ := hear_spec { s with incoming := rest } r'
    unfold PcOk at h ⊢
    rw [hpc, hw, hc, hcut]
    exact h
  | contact id request hpc =>
    simp only [PcOk, hpc] at h
    obtain ⟨hcut, hw, hacc, hc⟩ := h
    have hc' : s.contacts = [] := by simpa using hc
    exact ⟨hcut, hw, hacc, by simp [hc']⟩
  | head id request hd hpc =>
    simp only [PcOk, hpc] at h
    exact ⟨h.1, requestId_of_accepted h.2.2.1, h.2.1⟩
  | failed id request sent hpc =>
    simp only [PcOk, hpc] at h
    refine ⟨h.1, id, 502, _, rfl, requestId_of_accepted h.2.2.1, ?_⟩
    show Complete id (s.written ++ _)
    rw [h.2.1]
    exact .failed _
  | cancelEarly id request sent hpc =>
    simp only [PcOk, hpc] at h
    refine ⟨h.1, id, 499, _, rfl, requestId_of_accepted h.2.2.1, ?_⟩
    show Complete id (s.written ++ _)
    rw [h.2.1]
    exact .cancelled _
  | cancelLate id hpc =>
    simp only [PcOk, hpc] at h
    exact ⟨h.1, id, 499, _, rfl, h.2.1, .cancelledLate _ _ h.2.2⟩
  | chunk id b hpc =>
    simp only [PcOk, hpc] at h
    exact pcOk_goOn h.2.1 h.2.2 h.1 b
  | bodyError id hpc | eof id hpc =>
    simp only [PcOk, hpc] at h
    exact h
  | refused f hpc =>
    simp only [PcOk, hpc] at h
    obtain ⟨hcut, id, code, message, rfl, hid, hc⟩ := h
    exact Or.inr ⟨id, hid, Or.inl ⟨hcut, hc⟩⟩
  | headWritten id hd hpc =>
    simp only [PcOk, hpc] at h
    refine ⟨h.1, h.2.1, ?_⟩
    show Opened id (s.written ++ _)
    rw [h.2.2]
    exact Opened.head id _ _
  | pieceWritten id rest piece rest' hpc hp =>
    simp only [PcOk, hpc] at h
    exact pcOk_goOn (s := { s with written := s.written ++ [.proxyResponseBody id piece] }) h.2.1
      (h.2.2.piece piece) h.1 rest'
  | endWritten id ok hpc =>
    simp only [PcOk, hpc] at h
    exact Or.inr ⟨id, h.2.1, Or.inl ⟨h.1, .ended _ ok h.2.2⟩⟩
  | writeFailed f hf =>
    obtain ⟨id, hid, full, hfull, hpre⟩ := prefix_of_pcOk h hf
    exact Or.inr ⟨id, hid, Or.inr ⟨rfl, full, hfull, hpre⟩⟩

theorem ContactsOk.move (h : ContactsOk env r s.contacts) (hok : PcOk env r s) (hm : Move env s l s') :
    ContactsOk env r s'.contacts := by
  cases hm with
  | start _ _ hpc => simp only [PcOk, hpc] at hok
  | hear r' rest =>
    rw [(hear_spec _ r').2.2.1]
    exact h
  | contact id request hpc =>
    simp only [PcOk, hpc] at hok
    obtain ⟨-, -, hacc, hc⟩ := hok
    exact Or.inr ⟨id, request, hacc, by simpa using hc⟩
  | chunk id b =>
    rw [(goOn_spec s id b).2.1]
    exact h
  | pieceWritten id rest piece rest' =>
    rw [(goOn_spec _ id rest').2.1]
    exact h
  | head | failed | cancelEarly | cancelLate | bodyError | eof | refused | headWritten | endWritten
  | writeFailed => exact h

/-- The reader's results come in order. -/
theorem incoming_of_move (hm : Move env s l s') (hpc : s.pc ≠ .reading) : s'.incoming <:+ s.incoming := by
  cases hm with
  | start _ _ hpc' => exact absurd hpc' hpc
  | hear r rest hl hi =>
    rw [(hear_spec _ r).2.2.2.2, hi]
    exact List.suffix_cons r rest
  | chunk id b =>
    rw [(goOn_spec s id b).2.2.1]
  | pieceWritten id rest piece rest' =>
    rw [(goOn_spec _ id rest').2.2.1]
  | contact | head | failed | cancelEarly | cancelLate | bodyError | eof | refused | headWritten | endWritten
  | writeFailed => exact List.suffix_refl _

/-- Only a failed body leads to the points that it leads to, but for the end. -/
theorem unfailed_of_move (hm : Move env s l s') (hl : l ≠ .body .error) (h : unfailed s'.pc = true) :
    unfailed s.pc = true := by
  cases hm with
  | hear r rest =>
    rw [(hear_spec _ r).1] at h
    exact h
  | bodyError => exact absurd rfl hl
  | refused | endWritten | writeFailed => cases h
  | start _ _ hpc | contact _ _ hpc | head _ _ _ hpc | failed _ _ _ hpc | cancelEarly _ _ _ hpc
  | cancelLate _ hpc | chunk _ _ hpc | eof _ hpc | headWritten _ _ hpc | pieceWritten _ _ _ _ hpc =>
    rw [hpc]
    rfl

/-- The answer has its end, or is about to get it. -/
def Ends (id : UInt64) (s : State) : Prop :=
  .proxyResponseEnd id true ∈ s.written ∨ s.pc = .writingEnd id true

theorem ends_of_move {id : UInt64} (hm : Move env s l s') (hok : s.pc ≠ .reading → ∃ r, PcOk env r s)
    (h : Ends id s') : Ends id s ∨ l = .body .eof := by
  cases hm with
  | start r rest hpc hi =>
    left
    rcases start_cases env { s with incoming := rest } r with ⟨-, hs⟩ | ⟨_, _, -, hs⟩ | ⟨_, _, -, hs⟩
    all_goals
      rw [hs] at h
      exact Or.inl (h.resolve_right (by simp))
  | hear r rest =>
    obtain ⟨hpc, hw, -⟩ := hear_spec { s with incoming := rest } r
    unfold Ends at h
    rw [hpc, hw] at h
    exact Or.inl h
  | contact | head | failed | cancelEarly | cancelLate | bodyError | writeFailed =>
    exact Or.inl (Or.inl (h.resolve_right (by simp)))
  | eof => exact Or.inr rfl
  | chunk id' b =>
    obtain ⟨hw, -, -, -, hne⟩ := goOn_spec s id' b
    have hmem := h.resolve_right (hne id true)
    rw [hw] at hmem
    exact Or.inl (Or.inl hmem)
  | pieceWritten id' rest piece rest' =>
    obtain ⟨hw, -, -, -, hne⟩ :=
      goOn_spec { s with written := s.written ++ [.proxyResponseBody id' piece] } id' rest'
    have hmem := h.resolve_right (hne id true)
    rw [hw] at hmem
    exact Or.inl (Or.inl (by simpa using hmem))
  | refused f hpc =>
    obtain ⟨r, hr⟩ := hok (by rw [hpc]; simp)
    simp only [PcOk, hpc] at hr
    obtain ⟨-, _, _, _, rfl, -⟩ := hr
    exact Or.inl (Or.inl (by simpa using h.resolve_right (by simp)))
  | headWritten id' hd =>
    have hmem := h.resolve_right (by simp)
    exact Or.inl (Or.inl (by simpa using hmem))
  | endWritten id' ok hpc =>
    rcases List.mem_append.mp (h.resolve_right (by simp)) with hmem | hmem
    · exact Or.inl (Or.inl hmem)
    · cases List.mem_singleton.mp hmem
      exact Or.inl (Or.inr hpc)

/-- **Every step keeps the invariant.** -/
theorem inv_step (h : Inv env up ls s) (hs : step env s l = some s') : Inv env up (ls ++ [l]) s' := by
  have hm := move_of_step hs
  refine ⟨Or.inr ?_, fun hu => ?_, fun id hid => ?_⟩
  · rcases h.phase with ⟨hpc, hin, hw, hc, hcut, hl⟩ | ⟨r, rest, hup, hsuf, hok, hcont⟩
    · obtain ⟨r, rest, hi, rfl⟩ := first_of_reading hm hpc hl
      have hup : up = r :: rest := by rw [← hin, hi]
      obtain ⟨hok, hcont⟩ := pcOk_start env r (s := { s with incoming := rest }) hw hc hcut
      refine ⟨r, rest, hup, ?_, hok, hcont⟩
      rw [incoming_start]
    · have hne : s.pc ≠ .reading := by
        intro hpc
        simp only [PcOk, hpc] at hok
      exact ⟨r, rest, hup, (incoming_of_move hm hne).trans hsuf, hok.move hm, hcont.move hok hm⟩
  · by_cases hl : l = .body .error
    · subst hl
      cases hm with
      | bodyError => cases hu
    · exact bodyFailed_concat hl (h.unfailed (unfailed_of_move hm hl hu))
  · have hok : s.pc ≠ .reading → ∃ r, PcOk env r s := by
      intro hpc
      obtain ⟨r, -, -, -, hok, -⟩ := h.begun hpc
      exact ⟨r, hok⟩
    rcases ends_of_move hm hok hid with hold | rfl
    · by_cases hl : l = .body .error
      · -- the answer has no end when its body fails
        subst hl
        cases hm with
        | bodyError id' hpc =>
          obtain ⟨r, hr⟩ := hok (by rw [hpc]; simp)
          simp only [PcOk, hpc] at hr
          rcases hold with hmem | hpc'
          · have hterm := hr.2.2.not_terminal _ hmem
            cases hterm
          · rw [hpc] at hpc'
            cases hpc'
      · exact (h.ended id hold).concat hl
    · cases hm with
      | eof id' hpc =>
        have hno : ¬ BodyFailed (ls ++ [.body .eof]) :=
          bodyFailed_concat (by simp) (h.unfailed (by rw [hpc]; rfl))
        exact ⟨List.mem_append_right _ (List.mem_singleton.mpr rfl), hno⟩

theorem inv_init (env : Env) (up : List (Except IoError (Option Frame))) : Inv env up [] (init up) where
  phase := Or.inl ⟨rfl, rfl, rfl, rfl, rfl, rfl⟩
  unfailed _ h := by cases h
  ended id h := by
    rcases h with h | h
    · cases h
    · cases h

theorem inv_run (h : run (step env) (init up) ls = some s) : Inv env up ls s :=
  run_history (H := Inv env up) (C := fun _ _ => True) (inv_init env up)
    (fun _ _ _ _ _ hi _ hs => inv_step hi hs) ls s (allSteps_true ls _) h

/-- At every point, what was written is a beginning of a whole answer. -/
theorem prefix_of_begun (h : PcOk env r s) {id : UInt64} (hid : requestId r = some id) :
    ∃ full, Complete id full ∧ s.written <+: full := by
  by_cases hf : ∃ f, writing s.pc = some f
  · obtain ⟨f, hf⟩ := hf
    obtain ⟨id', hid', hfull⟩ := prefix_of_pcOk h hf
    rw [hid] at hid'
    cases hid'
    exact hfull
  · cases hpc : s.pc with
    | requesting id' request sent =>
      simp only [PcOk, hpc] at h
      rw [h.2.1]
      exact ⟨_, .failed "", List.nil_prefix⟩
    | relaying id' =>
      simp only [PcOk, hpc] at h
      rw [h.2.1] at hid
      cases hid
      exact ⟨_, .ended _ true h.2.2, List.prefix_append _ _⟩
    | returned =>
      simp only [PcOk, hpc] at h
      rcases h with ⟨hno, -⟩ | ⟨id', hid', ⟨-, hc⟩ | ⟨-, full, hfull, hpre⟩⟩
      · rw [hid] at hno
        cases hno
      · rw [hid] at hid'
        cases hid'
        exact ⟨_, hc, List.prefix_refl _⟩
      · rw [hid] at hid'
        cases hid'
        exact ⟨full, hfull, hpre⟩
    | reading =>
      simp only [PcOk, hpc] at h
    | refusing | writingHead | writingEnd => exact absurd ⟨_, by rw [hpc]; rfl⟩ hf
    | writingPieces id' rest' =>
      simp only [PcOk, hpc] at h
      rw [h.2.1] at hid
      cases hid
      exact ⟨_, .ended _ true h.2.2, List.prefix_append _ _⟩

theorem written_eq_nil (h : PcOk env r s) (hid : requestId r = none) : s.written = [] := by
  cases hpc : s.pc with
  | reading => simp only [PcOk, hpc] at h
  | refusing f =>
    simp only [PcOk, hpc] at h
    obtain ⟨-, id, _, _, -, hid', -⟩ := h
    rw [hid] at hid'
    cases hid'
  | requesting id request sent =>
    simp only [PcOk, hpc] at h
    exact h.2.1
  | writingHead id hd | relaying id | writingPieces id rest | writingEnd id ok =>
    simp only [PcOk, hpc] at h
    have hid' := h.2.1
    rw [hid] at hid'
    cases hid'
  | returned =>
    simp only [PcOk, hpc] at h
    rcases h with ⟨-, hw⟩ | ⟨id, hid', -⟩
    · exact hw
    · rw [hid] at hid'
      cases hid'

theorem accepted_eq_some {id : UInt64} {request : UpstreamRequest}
    (h : accepted env r = some (id, request)) : ∃ method path headers body url,
      r = .ok (some (.proxyRequest id method path headers body)) ∧
      upstreamUrl env.upstream path = some url ∧ env.validMethod method = true ∧
      request = ⟨method, url, requestHeaders headers, body⟩ := by
  unfold accepted at h
  split at h
  · obtain ⟨url, hurl, h⟩ := Option.bind_eq_some_iff.mp h
    split_ifs at h with hm
    cases h
    exact ⟨_, _, _, _, url, rfl, hurl, hm, rfl⟩
  · cases h

end steps

/-- **The protocol of a request stream.** Whatever arrives on the stream, whatever the upstream does and
whenever a cancellation comes:

* after a first `ProxyRequest` the frames written are a beginning of a whole answer, and the whole answer
  once the task has returned without a failed write;
* nothing is written after a terminal frame;
* `ProxyResponseEnd` says `ok` only if the body of the upstream ended, without an error;
* without a first `ProxyRequest` nothing is written and the upstream is not contacted;
* the upstream is contacted at most once, for the first frame, which was read and has an accepted path
  and a valid method. -/
theorem stream_protocol (env : Env) (up : List (Except IoError (Option Frame))) (ls : List Label) (s : State)
    (h : run (step env) (init up) ls = some s) :
    (∀ r rest id, up = r :: rest → requestId r = some id →
      (∃ full, Complete id full ∧ s.written <+: full) ∧
      (s.pc = .returned → s.cut = false → Complete id s.written)) ∧
    (∀ pre f post, s.written = pre ++ f :: post → terminal f = true → post = []) ∧
    (∀ id, .proxyResponseEnd id true ∈ s.written → BodyEnded ls) ∧
    ((∀ r rest, up = r :: rest → requestId r = none) → s.written = [] ∧ s.contacts = []) ∧
    (s.contacts ≠ [] → ∃ id method path headers body rest url,
      up = .ok (some (.proxyRequest id method path headers body)) :: rest ∧ s.incoming <:+ rest ∧
      upstreamUrl env.upstream path = some url ∧ env.validMethod method = true ∧
      s.contacts = [⟨method, url, requestHeaders headers, body⟩]) := by
  have hinv := inv_run h
  refine ⟨?_, ?_, fun id hid => hinv.ended id (Or.inl hid), ?_, ?_⟩
  · rintro r rest id rfl hid
    rcases hinv.phase with ⟨hpc, -, hw, -⟩ | ⟨r', rest', heq, -, hok, -⟩
    · refine ⟨⟨_, .failed "", by rw [hw]; exact List.nil_prefix⟩, fun hret => ?_⟩
      rw [hpc] at hret
      cases hret
    · cases heq
      refine ⟨prefix_of_begun hok hid, fun hret hcut => ?_⟩
      simp only [PcOk, hret] at hok
      rcases hok with ⟨hno, -⟩ | ⟨id', hid', ⟨-, hc⟩ | ⟨hcut', -⟩⟩
      · rw [hid] at hno
        cases hno
      · rw [hid] at hid'
        cases hid'
        exact hc
      · rw [hcut] at hcut'
        cases hcut'
  · intro pre f post hw hf
    rcases hinv.phase with ⟨-, -, hnil, -⟩ | ⟨r, rest, -, -, hok, -⟩
    · rw [hnil] at hw
      simp at hw
    · cases hid : requestId r with
      | some id =>
        obtain ⟨full, hfull, hpre⟩ := prefix_of_begun hok hid
        exact nothing_after_terminal hfull hpre hw hf
      | none =>
        have hnil := written_eq_nil hok hid
        rw [hnil] at hw
        simp at hw
  · intro hno
    rcases hinv.phase with ⟨-, -, hnil, hc, -⟩ | ⟨r, rest, hup, -, hok, hcont⟩
    · exact ⟨hnil, hc⟩
    · refine ⟨written_eq_nil hok (hno r rest hup), ?_⟩
      rcases hcont with hc | ⟨id, request, hacc, -⟩
      · exact hc
      · have := requestId_of_accepted hacc
        rw [hno r rest hup] at this
        cases this
  · intro hne
    rcases hinv.phase with ⟨-, -, -, hc, -⟩ | ⟨r, rest, hup, hsuf, -, hcont⟩
    · exact absurd hc hne
    · rcases hcont with hc | ⟨id, request, hacc, hc⟩
      · exact absurd hc hne
      · obtain ⟨method, path, headers, body, url, rfl, hurl, hm, rfl⟩ := accepted_eq_some hacc
        exact ⟨id, method, path, headers, body, rest, url, hup, hsuf, hurl, hm, hc⟩

/-- An agent with an upstream that knows `GET`. -/
def localEnv : Env := ⟨"http://127.0.0.1:11434", fun method => method == "GET"⟩

/-- A request for a list of models, answered with one chunk. -/
theorem stream_protocol_models : ∃ s, run (step localEnv)
      (init [.ok (some (.proxyRequest 7 "GET" "/v1/models" [] []))])
      [.first, .contact, .head (some ⟨200, ∅⟩), .write true, .body (.chunk [1]), .write true, .body .eof,
        .write true] = some s ∧
    s.written = [.proxyResponseHead 7 200 [], .proxyResponseBody 7 [1], .proxyResponseEnd 7 true] ∧
    s.contacts = [⟨"GET", "http://127.0.0.1:11434/v1/models", [], []⟩] ∧
    BodyEnded [.first, .contact, .head (some ⟨200, ∅⟩), .write true, .body (.chunk [1]), .write true,
      .body .eof, .write true] := by
  obtain ⟨s, hs, hw, hc⟩ := exists_run (step localEnv)
    (init [.ok (some (.proxyRequest 7 "GET" "/v1/models" [] []))])
    [.first, .contact, .head (some ⟨200, ∅⟩), .write true, .body (.chunk [1]), .write true, .body .eof,
      .write true]
    (fun s => s.written =
        [.proxyResponseHead 7 200 [], .proxyResponseBody 7 [1], .proxyResponseEnd 7 true] ∧
      s.contacts = [⟨"GET", "http://127.0.0.1:11434/v1/models", [], []⟩]) (by decide)
  refine ⟨s, hs, hw, hc, ?_⟩
  exact (stream_protocol localEnv _ _ s hs).2.2.1 7 (by rw [hw]; simp)

end HomeLlmGateway.Agent.Protocol
