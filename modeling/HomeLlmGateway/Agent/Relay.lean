import HomeLlmGateway.Agent.Stream

/-! # The response that the agent relays

The frames of an upstream response (`responseFrames`): its head, the pieces of its chunks and its end. An
agent whose stream is neither cancelled nor broken writes exactly these, and whatever happens no body frame
is empty or above the limit that the gateway enforces. -/

namespace HomeLlmGateway.Agent.Relay

open HomeLlmGateway.Lib.Runs HomeLlmGateway.Lib.ByteCodec HomeLlmGateway.Proto.Frames
open HomeLlmGateway.Proto.Io HomeLlmGateway.Agent.Stream

/-! ### Pieces of a chunk -/

theorem takeChunkPiece_some {b piece rest : Bytes} (h : takeChunkPiece b = some (piece, rest)) :
    b = piece ++ rest ∧ 1 ≤ piece.length ∧ piece.length ≤ maxResponseChunk := by
  unfold takeChunkPiece at h
  have hm : 1 ≤ maxResponseChunk := by decide
  split_ifs at h with h1 h2
  · cases h
    rw [List.length_take]
    exact ⟨(List.take_append_drop _ _).symm, by omega, by omega⟩
  · cases h
    have hne : b ≠ [] := fun hb => h1 (by rw [hb]; rfl)
    have hpos := List.length_pos_iff.mpr hne
    exact ⟨(List.append_nil _).symm, by omega, by omega⟩

theorem takeChunkPiece_eq_none {b : Bytes} : takeChunkPiece b = none ↔ b = [] := by
  unfold takeChunkPiece
  split_ifs with h1 h2
  · exact ⟨fun _ => List.isEmpty_iff.mp h1, fun _ => rfl⟩
  · exact ⟨fun h => (by cases h), fun h => absurd (List.isEmpty_iff.mpr h) h1⟩
  · exact ⟨fun h => (by cases h), fun h => absurd (List.isEmpty_iff.mpr h) h1⟩

/-- The pieces a chunk is written in. -/
def pieces (b : Bytes) : List Bytes :=
  match _h : takeChunkPiece b with
  | none => []
  | some (piece, rest) => piece :: pieces rest
termination_by b.length
decreasing_by
  obtain ⟨rfl, h1, -⟩ := takeChunkPiece_some _h
  simp only [List.length_append]
  omega

theorem pieces_nil : pieces [] = [] := by
  rw [pieces]
  split
  · rfl
  · next h => cases h

theorem pieces_of_take {b piece rest : Bytes} (h : takeChunkPiece b = some (piece, rest)) :
    pieces b = piece :: pieces rest := by
  rw [pieces]
  split
  · next h' =>
    rw [h] at h'
    cases h'
  · next piece' rest' h' =>
    rw [h] at h'
    cases h'
    rfl

/-- **The pieces of a chunk** are the chunk, cut, and each is of a size that the gateway accepts. -/
theorem pieces_spec (b : Bytes) :
    (pieces b).flatten = b ∧ ∀ p ∈ pieces b, 1 ≤ p.length ∧ p.length ≤ maxResponseChunk := by
  induction hn : b.length using Nat.strong_induction_on generalizing b with
  | _ n ih =>
    cases h : takeChunkPiece b with
    | none =>
      have hb := takeChunkPiece_eq_none.mp h
      subst hb
      rw [pieces_nil]
      exact ⟨rfl, by simp⟩
    | some q =>
      obtain ⟨piece, rest⟩ := q
      obtain ⟨hb, h1, h2⟩ := takeChunkPiece_some h
      have hlt : rest.length < n := by
        rw [← hn, hb, List.length_append]
        omega
      obtain ⟨ihf, ihs⟩ := ih rest.length hlt rest rfl
      rw [pieces_of_take h]
      refine ⟨?_, fun p hp => ?_⟩
      · rw [List.flatten_cons, ihf, ← hb]
      · rcases List.mem_cons.mp hp with rfl | hp
        · exact ⟨h1, h2⟩
        · exact ihs p hp

/-- The pieces of a response body. -/
def bodyPieces (chunks : List Bytes) : List Bytes := chunks.flatMap pieces

theorem bodyPieces_flatten (chunks : List Bytes) : (bodyPieces chunks).flatten = chunks.flatten := by
  induction chunks with
  | nil => rfl
  | cons b chunks ih =>
    unfold bodyPieces at ih ⊢
    rw [List.flatMap_cons, List.flatten_append, (pieces_spec b).1, ih, List.flatten_cons]

theorem bodyPieces_size {chunks : List Bytes} {p : Bytes} (hp : p ∈ bodyPieces chunks) :
    1 ≤ p.length ∧ p.length ≤ maxResponseChunk := by
  obtain ⟨b, -, hp⟩ := List.mem_flatMap.mp hp
  exact (pieces_spec b).2 p hp

theorem bodyPieces_concat (chunks : List Bytes) (b : Bytes) :
    bodyPieces (chunks ++ [b]) = bodyPieces chunks ++ pieces b := by
  simp [bodyPieces]

/-- The head and the body frames of a response. -/
def openFrames (id : UInt64) (h : UpstreamHead) (bodies : List Bytes) : List Frame :=
  .proxyResponseHead id h.status (outHeaders h.headers) :: bodies.map (.proxyResponseBody id)

/-- The frames of a response that ends well. -/
def responseFrames (id : UInt64) (h : UpstreamHead) (chunks : List Bytes) : List Frame :=
  openFrames id h (bodyPieces chunks) ++ [.proxyResponseEnd id true]

/-! ### Sizes -/

/-- No body frame is empty or too large. -/
def Sized (fs : List Frame) : Prop :=
  ∀ id c, .proxyResponseBody id c ∈ fs → 1 ≤ c.length ∧ c.length ≤ maxResponseChunk

theorem Sized.concat {fs : List Frame} {f : Frame} (h : Sized fs)
    (hf : ∀ id c, f = .proxyResponseBody id c → 1 ≤ c.length ∧ c.length ≤ maxResponseChunk) :
    Sized (fs ++ [f]) := by
  intro id c hc
  rcases List.mem_append.mp hc with hc | hc
  · exact h id c hc
  · exact hf id c (List.mem_singleton.mp hc).symm

theorem written_step {env : Env} {s s' : State} {l : Label} (hs : step env s l = some s') :
    s'.written = s.written ∨ ∃ f, writing s.pc = some f ∧ s'.written = s.written ++ [f] := by
  cases move_of_step hs with
  | start r rest =>
    left
    unfold start
    split
    · split
      · rfl
      · split_ifs <;> rfl
    · rfl
  | hear r rest =>
    left
    unfold hear
    split <;> rfl
  | chunk id b => exact Or.inl rfl
  | refused f hpc => exact Or.inr ⟨f, by rw [hpc]; rfl, rfl⟩
  | headWritten id h hpc => exact Or.inr ⟨_, by rw [hpc]; rfl, rfl⟩
  | pieceWritten id rest piece rest' hpc hp =>
    exact Or.inr ⟨.proxyResponseBody id piece, by simp [hpc, writing, hp], rfl⟩
  | endWritten id ok hpc => exact Or.inr ⟨_, by rw [hpc]; rfl, rfl⟩
  | _ => exact Or.inl rfl

/-- What a refusal writes is an error. -/
def Refuses (pc : Pc) : Prop := ∀ f, pc = .refusing f → ∃ id code message, f = .error id code message

theorem refuses_step {env : Env} {s s' : State} {l : Label} (h : Refuses s.pc)
    (hs : step env s l = some s') : Refuses s'.pc := by
  intro f hf
  cases move_of_step hs with
  | start r rest hpc =>
    unfold start at hf
    split at hf
    · split at hf
      · cases hf
        exact ⟨_, _, _, rfl⟩
      · split_ifs at hf
        cases hf
        exact ⟨_, _, _, rfl⟩
    · cases hf
  | hear r rest =>
    refine h f ?_
    unfold hear at hf
    split at hf <;> exact hf
  | failed | cancelEarly | cancelLate =>
    cases hf
    exact ⟨_, _, _, rfl⟩
  | chunk | pieceWritten =>
    unfold goOn at hf
    simp only at hf
    split_ifs at hf
  | _ => cases hf

theorem sized_step {env : Env} {s s' : State} {l : Label} (hr : Refuses s.pc) (h : Sized s.written)
    (hs : step env s l = some s') : Sized s'.written := by
  rcases written_step hs with hw | ⟨f, hf, hw⟩
  · rw [hw]
    exact h
  · rw [hw]
    refine h.concat fun id c hc => ?_
    subst hc
    cases hpc : s.pc with
    | writingPieces id' rest =>
      simp only [hpc, writing] at hf
      obtain ⟨⟨piece, rest'⟩, hp, hf⟩ := Option.map_eq_some_iff.mp hf
      cases hf
      exact (takeChunkPiece_some hp).2
    | refusing f =>
      obtain ⟨id', code, message, rfl⟩ := hr f hpc
      simp [hpc, writing] at hf
    | _ => simp [hpc, writing] at hf

/-- **No body frame that the agent writes is empty or too large**, whatever happens. -/
theorem sized_run {env : Env} {incoming : List (Except IoError (Option Frame))} {ls : List Label}
    {s : State} (h : run (step env) (init incoming) ls = some s) : Sized s.written := by
  have hinit : Refuses (init incoming).pc ∧ Sized (init incoming).written :=
    ⟨fun f hf => (by cases hf), fun id c hc => (by cases hc)⟩
  have hkeep : ∀ (s : State) (l : Label) (s' : State), Refuses s.pc ∧ Sized s.written →
      step env s l = some s' → Refuses s'.pc ∧ Sized s'.written :=
    fun s l s' hI hs => ⟨refuses_step hI.1 hs, sized_step hI.1 hI.2 hs⟩
  exact (run_invariant (I := fun s => Refuses s.pc ∧ Sized s.written) hkeep hinit ⟨ls, h⟩).2

/-! ### Responses that end -/

/-- What the upstream answered the request with, in the run so far. -/
def heads (ls : List Label) : List (Option UpstreamHead) :=
  ls.filterMap fun
    | .head r => some r
    | _ => none

/-- What the response body yielded in the run so far. -/
def bodyEvents (ls : List Label) : List BodyEvent :=
  ls.filterMap fun
    | .body ev => some ev
    | _ => none

theorem heads_concat (ls : List Label) (l : Label) : heads (ls ++ [l]) = heads ls ++ heads [l] :=
  List.filterMap_append

theorem bodyEvents_concat (ls : List Label) (l : Label) :
    bodyEvents (ls ++ [l]) = bodyEvents ls ++ bodyEvents [l] := List.filterMap_append

/-- The upstream answered with this head, and its body yielded this. -/
def Heard (ls : List Label) (h : UpstreamHead) (evs : List BodyEvent) : Prop :=
  heads ls = [some h] ∧ bodyEvents ls = evs

/-- How a response body ends. -/
def lastEvent (ok : Bool) : BodyEvent := if ok then .eof else .error

/-- The stream is neither cancelled nor broken by this. -/
def Undisturbed (l : Label) : Prop := l ≠ .cancelSeen ∧ l ≠ .write false

/-- What the task has written of what it heard, at each of its points. -/
def Said (ls : List Label) (s : State) : Prop :=
  match s.pc with
  | .reading => heads ls = [] ∧ bodyEvents ls = [] ∧ s.written = []
  | .requesting _ _ _ => heads ls = [] ∧ bodyEvents ls = [] ∧ s.written = []
  | .refusing _ => bodyEvents ls = []
  | .writingHead _ h => Heard ls h [] ∧ s.written = []
  | .relaying id => ∃ h chunks, Heard ls h (chunks.map .chunk) ∧
      s.written = openFrames id h (bodyPieces chunks)
  | .writingPieces id rest => ∃ h chunks, Heard ls h (chunks.map .chunk) ∧
      s.written ++ (pieces rest).map (.proxyResponseBody id) = openFrames id h (bodyPieces chunks)
  | .writingEnd id ok => ∃ h chunks, Heard ls h (chunks.map .chunk ++ [lastEvent ok]) ∧
      s.written = openFrames id h (bodyPieces chunks)
  | .returned => bodyEvents ls = [] ∨ ∃ id h chunks ok,
      Heard ls h (chunks.map .chunk ++ [lastEvent ok]) ∧
        s.written = openFrames id h (bodyPieces chunks) ++ [.proxyResponseEnd id ok]

section steps

variable {env : Env} {ls : List Label} {l : Label} {s s' : State}

theorem Heard.concat {h : UpstreamHead} {evs : List BodyEvent} (hh : Heard ls h evs)
    (hl : heads [l] = []) : Heard (ls ++ [l]) h (evs ++ bodyEvents [l]) := by
  refine ⟨?_, ?_⟩
  · rw [heads_concat, hh.1, hl]
    rfl
  · rw [bodyEvents_concat, hh.2]

theorem Said.keep (h : Said ls s) (hh : heads [l] = []) (hb : bodyEvents [l] = [])
    (hpc : s'.pc = s.pc) (hw : s'.written = s.written) : Said (ls ++ [l]) s' := by
  unfold Said Heard at h ⊢
  rw [heads_concat, bodyEvents_concat, hh, hb, hpc, hw, List.append_nil, List.append_nil]
  exact h

theorem said_goOn {id : UInt64} {h : UpstreamHead} {chunks : List Bytes} {rest : Bytes}
    (hh : Heard ls h (chunks.map .chunk))
    (hw : s.written ++ (pieces rest).map (.proxyResponseBody id) = openFrames id h (bodyPieces chunks)) :
    Said ls (goOn s id rest) := by
  unfold goOn
  by_cases hr : rest.isEmpty = true
  · have hnil := List.isEmpty_iff.mp hr
    rw [hnil, pieces_nil, List.map_nil, List.append_nil] at hw
    simp only [hr, if_true]
    exact ⟨h, chunks, hh, hw⟩
  · simp only [hr]
    exact ⟨h, chunks, hh, hw⟩

theorem said_start {r : Except IoError (Option Frame)} (h : Said ls s) (hpc : s.pc = .reading) :
    Said (ls ++ [.first]) (start env s r) := by
  simp only [Said, hpc] at h
  have hb : bodyEvents (ls ++ [.first]) = [] := by
    rw [bodyEvents_concat, h.2.1]
    rfl
  have hh : heads (ls ++ [.first]) = [] := by
    rw [heads_concat, h.1]
    rfl
  unfold start
  split
  · split
    · exact hb
    · split_ifs
      · exact ⟨hh, hb, h.2.2⟩
      · exact hb
  · exact Or.inl hb

/-- **Every undisturbed step keeps it.** -/
theorem said_step (h : Said ls s) (hl : Undisturbed l) (hs : step env s l = some s') :
    Said (ls ++ [l]) s' := by
  cases move_of_step hs with
  | start r rest hpc hi => exact said_start (s := { s with incoming := rest }) h hpc
  | hear r rest hi =>
    refine h.keep rfl rfl ?_ ?_ <;> unfold hear <;> split <;> rfl
  | contact id request hpc =>
    simp only [Said, hpc] at h
    refine ⟨?_, ?_, h.2.2⟩
    · rw [heads_concat, h.1]
      rfl
    · rw [bodyEvents_concat, h.2.1]
      rfl
  | head id request hd hpc =>
    simp only [Said, hpc] at h
    refine ⟨⟨?_, ?_⟩, h.2.2⟩
    · rw [heads_concat, h.1]
      rfl
    · rw [bodyEvents_concat, h.2.1]
      rfl
  | failed id request sent hpc =>
    simp only [Said, hpc] at h
    show bodyEvents _ = []
    rw [bodyEvents_concat, h.2.1]
    rfl
  | cancelEarly id request sent hpc => exact absurd rfl hl.1
  | cancelLate id hpc => exact absurd rfl hl.1
  | chunk id b hpc =>
    simp only [Said, hpc] at h
    obtain ⟨hd, chunks, hh, hw⟩ := h
    have hh' : Heard (ls ++ [.body (.chunk b)]) hd ((chunks ++ [b]).map .chunk) := by
      rw [List.map_append]
      exact hh.concat rfl
    refine said_goOn hh' ?_
    rw [hw, bodyPieces_concat]
    unfold openFrames
    rw [List.map_append, List.cons_append]
  | bodyError id hpc =>
    simp only [Said, hpc] at h
    obtain ⟨hd, chunks, hh, hw⟩ := h
    exact ⟨hd, chunks, hh.concat rfl, hw⟩
  | eof id hpc =>
    simp only [Said, hpc] at h
    obtain ⟨hd, chunks, hh, hw⟩ := h
    exact ⟨hd, chunks, hh.concat rfl, hw⟩
  | refused f hpc =>
    simp only [Said, hpc] at h
    refine Or.inl ?_
    rw [bodyEvents_concat, h]
    rfl
  | headWritten id hd hpc =>
    simp only [Said, hpc] at h
    refine ⟨hd, [], h.1.concat rfl, ?_⟩
    show s.written ++ _ = _
    rw [h.2]
    rfl
  | pieceWritten id rest piece rest' hpc hp =>
    simp only [Said, hpc] at h
    obtain ⟨hd, chunks, hh, hw⟩ := h
    have hh' := hh.concat (l := .write true) rfl
    rw [show bodyEvents [.write true] = [] from rfl, List.append_nil] at hh'
    refine said_goOn hh' ?_
    rw [pieces_of_take hp] at hw
    rw [← hw, List.append_assoc]
    rfl
  | endWritten id ok hpc =>
    simp only [Said, hpc] at h
    obtain ⟨hd, chunks, hh, hw⟩ := h
    have hh' := hh.concat (l := .write true) rfl
    rw [show bodyEvents [.write true] = [] from rfl, List.append_nil] at hh'
    refine Or.inr ⟨id, hd, chunks, ok, hh', ?_⟩
    show s.written ++ _ = _
    rw [hw]
  | writeFailed f hf => exact absurd rfl hl.2

end steps

/-- **An undisturbed response is relayed whole.** -/
theorem written_of_undisturbed {env : Env} {incoming : List (Except IoError (Option Frame))}
    {ls : List Label} {s : State} (hrun : run (step env) (init incoming) ls = some s)
    (hl : ∀ l ∈ ls, Undisturbed l) (hret : s.pc = .returned) {h : UpstreamHead} {chunks : List Bytes}
    (hh : Heard ls h (chunks.map .chunk ++ [.eof])) : ∃ id, s.written = responseFrames id h chunks := by
  have hinit : Said [] (init incoming) := ⟨rfl, rfl, rfl⟩
  have hsaid : Said ls s := run_history (C := fun _ l => Undisturbed l) hinit
    (fun _ _ _ _ _ hI hC hs => said_step hI hC hs) ls s (allSteps_of_forall hl) hrun
  simp only [Said, hret] at hsaid
  rcases hsaid with hnone | ⟨id, h', chunks', ok, hh', hw⟩
  · rw [hh.2] at hnone
    simp at hnone
  · have hhead : some h' = some h := by
      have := hh'.1.symm.trans hh.1
      simpa using this
    have hev : chunks'.map BodyEvent.chunk ++ [lastEvent ok] = chunks.map .chunk ++ [.eof] :=
      hh'.2.symm.trans hh.2
    obtain ⟨hc, hlast⟩ := List.append_inj' hev rfl
    have hok : ok = true := by
      cases ok with
      | true => rfl
      | false => cases hlast
    have hinj : Function.Injective BodyEvent.chunk := fun a b hab => BodyEvent.chunk.inj hab
    cases hhead
    cases List.map_injective_iff.mpr hinj hc
    cases hok
    exact ⟨id, hw⟩

/-! ### On the wire -/

/-- Postcard adds little enough to a piece, and to an end, that they fit in a frame. -/
structure Roomy (P : Postcard) : Prop where
  body : ∀ (id : UInt64) (c : Bytes), c.length ≤ maxResponseChunk →
    ∃ w, writeFrame P (.proxyResponseBody id c) = .ok w
  last : ∀ (id : UInt64) (ok : Bool), ∃ w, writeFrame P (.proxyResponseEnd id ok) = .ok w

theorem writeFrame_postcard {f : Frame} {b : Bytes} (h : encFrame f = some b)
    (hb : b.length ≤ maxFrame) : ∃ w, writeFrame postcard f = .ok w := by
  have hto : postcard.toAllocvec f = .ok b := by
    simp only [postcard, frame, h]
  unfold writeFrame
  rw [hto]
  simp only [Nat.not_lt.mpr hb, if_false]
  exact ⟨_, rfl⟩

theorem enc_u64 (id : UInt64) : Codec.u64.enc id = some (varint id.toNat) := if_pos id.toNat_lt

theorem enc_bytes {c : Bytes} (h : c.length < 2 ^ 64) :
    Codec.bytes.enc c = some (varint c.length ++ c) := by
  show ((if c.length < 2 ^ 64 then some (varint c.length) else none).map fun x => x ++ c) = _
  rw [if_pos h]
  rfl

/-- **Postcard is roomy**: a number takes at most ten bytes. -/
theorem roomy_postcard : Roomy postcard := by
  refine ⟨fun id c hc => ?_, fun id ok => ?_⟩
  · have hmax : maxResponseChunk = 65536 := rfl
    have henc : encFrame (.proxyResponseBody id c) =
        some (varint 4 ++ (varint id.toNat ++ (varint c.length ++ c))) := by
      have hfields : proxyResponseBodyFields.enc (id, c) =
          some (varint id.toNat ++ (varint c.length ++ c)) := by
        unfold proxyResponseBodyFields Codec.prod
        simp only [enc_u64, enc_bytes (show c.length < 2 ^ 64 by omega), Option.bind_some,
          Option.map_some]
      simp only [encFrame, hfields]
      rfl
    refine writeFrame_postcard henc ?_
    have h1 := length_varint_le 4
    have h2 := length_varint_le id.toNat
    have h3 := length_varint_le c.length
    have hframe : maxFrame = 67108864 := rfl
    simp only [List.length_append]
    omega
  · have henc : encFrame (.proxyResponseEnd id ok) =
        some (varint 5 ++ (varint id.toNat ++ [if ok then 1 else 0])) := by
      have hfields : proxyResponseEndFields.enc (id, ok) =
          some (varint id.toNat ++ [if ok then 1 else 0]) := by
        unfold proxyResponseEndFields Codec.prod
        simp only [enc_u64, Codec.bool, Option.bind_some, Option.map_some]
      simp only [encFrame, hfields]
      rfl
    refine writeFrame_postcard henc ?_
    have h1 := length_varint_le 5
    have h2 := length_varint_le id.toNat
    have hframe : maxFrame = 67108864 := rfl
    simp only [List.length_append, List.length_singleton]
    omega

theorem exists_wire {P : Postcard} : ∀ fs : List Frame, (∀ f ∈ fs, ∃ w, writeFrame P f = .ok w) →
    ∃ ws, Wire P fs ws
  | [], _ => ⟨[], .nil⟩
  | f :: fs, h => by
    obtain ⟨w, hw⟩ := h f List.mem_cons_self
    obtain ⟨ws, hws⟩ := exists_wire fs fun f' hf' => h f' (List.mem_cons_of_mem _ hf')
    exact ⟨w ++ ws, .cons hw hws⟩

/-- A response whose head fits in a frame can be written whole. -/
theorem wire_responseFrames {P : Postcard} (hP : Roomy P) {id : UInt64} {h : UpstreamHead}
    (hfit : ∃ w, writeFrame P (.proxyResponseHead id h.status (outHeaders h.headers)) = .ok w)
    (chunks : List Bytes) : ∃ ws, Wire P (responseFrames id h chunks) ws := by
  refine exists_wire _ fun f hf => ?_
  rcases List.mem_append.mp hf with hf | hf
  · rcases List.mem_cons.mp hf with rfl | hf
    · exact hfit
    · obtain ⟨c, hc, rfl⟩ := List.mem_map.mp hf
      exact hP.body id c (bodyPieces_size hc).2
  · rw [List.mem_singleton.mp hf]
    exact hP.last id true

end HomeLlmGateway.Agent.Relay
