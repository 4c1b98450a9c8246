import HomeLlmGateway.Lib.ByteCodec
import Mathlib.Data.List.DropRight

/-! # Clients that stall

The two places where the gateway gives up a client that neither reads nor writes: `WriteStall` around the
socket of a connection (`gateway/src/io_stall.rs`) and `read_body_with_stall` (`gateway/src/body.rs`). Both
limit the time without progress, and no total time.

`WriteStall` is polled at times of the runtime's choosing. It starts its timer at the first write or flush that
is pending, keeps it through those that follow, and drops it at the first one that is ready. -/

namespace HomeLlmGateway.Http.Stall

open HomeLlmGateway.Lib.ByteCodec

/-! ### Writing to the client -/

/-- The methods of the socket that are polled. -/
inductive Method where
  | write
  | flush
  | shutdown
  | read
  deriving DecidableEq

/-- The methods under the timer. -/
def Method.timed : Method → Bool
  | .write => true
  | .flush => true
  | _ => false

/-- A poll: when, of which method, and what the socket below answers; `none` is `Poll::Pending`. -/
structure Poll (ρ : Type) where
  time : ℕ
  method : Method
  inner : Option ρ

/-- What the wrapper answers. -/
inductive Answer (ρ : Type) where
  | ready (r : ρ)
  | timedOut
  | pending
  deriving DecidableEq

variable {ρ : Type}

/-- What the socket answers, passed on. -/
def passedOn : Option ρ → Answer ρ
  | some r => .ready r
  | none => .pending

/-- `poll_with_stall`; an armed timer is its deadline. -/
def pollWithStall (armed : Option ℕ) (stall now : ℕ) : Option ρ → Option ℕ × Answer ρ
  | some r => (none, .ready r)
  | none =>
    let deadline := armed.getD (now + stall)
    if deadline ≤ now then (none, .timedOut) else (some deadline, .pending)

/-- A poll of `WriteStall`: `armed` after it, and its answer. -/
def poll (stall : ℕ) (armed : Option ℕ) (p : Poll ρ) : Option ℕ × Answer ρ :=
  if p.method.timed then pollWithStall armed stall p.time p.inner else (armed, passedOn p.inner)

/-- The polls of a connection, each with its answer. -/
def polled (stall : ℕ) (ps : List (Poll ρ)) : Option ℕ × List (Poll ρ × Answer ρ) :=
  ps.foldl (fun s p => ((poll stall s.1 p).1, s.2 ++ [(p, (poll stall s.1 p).2)])) (none, [])

example : (polled 10 [⟨0, .write, none⟩, ⟨5, .read, some ()⟩, ⟨9, .flush, none⟩, ⟨10, .write, none⟩]).2.map
    Prod.snd = [.pending, .ready (), .pending, .timedOut] := by decide

/-! ### When the wrapper gives up -/

/-- A write or flush, with its answer. -/
def ofTimed (e : Poll ρ × Answer ρ) : Bool := e.1.method.timed

/-- The poll leaves the timer running: it is of another method, or pending. -/
def waits (e : Poll ρ × Answer ρ) : Bool :=
  !e.1.method.timed || match e.2 with
    | .pending => true
    | _ => false

variable {stall : ℕ} {ps : List (Poll ρ)}

theorem polled_concat (stall : ℕ) (ps : List (Poll ρ)) (p : Poll ρ) :
    polled stall (ps ++ [p]) = ((poll stall (polled stall ps).1 p).1,
      (polled stall ps).2 ++ [(p, (poll stall (polled stall ps).1 p).2)]) := by
  simp [polled]

/-- The writes and flushes since the timer was last dropped. -/
def silence (log : List (Poll ρ × Answer ρ)) : List (Poll ρ × Answer ρ) :=
  (log.rtakeWhile waits).filter ofTimed

theorem silence_concat (log : List (Poll ρ × Answer ρ)) (e : Poll ρ × Answer ρ) :
    silence (log ++ [e]) = if waits e then silence log ++ (if ofTimed e then [e] else []) else [] := by
  unfold silence
  rw [List.rtakeWhile_concat]
  split_ifs with hw ht
  · rw [List.filter_append]
    simp [ht]
  · rw [List.filter_append]
    simp [ht]
  · rfl

theorem armed_eq (stall : ℕ) (ps : List (Poll ρ)) :
    (polled stall ps).1 = (silence (polled stall ps).2).head?.map fun e => e.1.time + stall := by
  induction ps using List.reverseRecOn with
  | nil => rfl
  | append_singleton ps p ih =>
    rw [polled_concat, silence_concat]
    generalize polled stall ps = s at ih
    unfold poll
    cases ht : p.method.timed with
    | false => simp [waits, ofTimed, ht, ih]
    | true =>
      cases hi : p.inner with
      | some r => simp [waits, ht, pollWithStall]
      | none =>
        by_cases hd : s.1.getD (p.time + stall) ≤ p.time
        · simp [waits, ht, pollWithStall, hd]
        · simp only [pollWithStall, if_neg hd, waits, ofTimed, ht, ↓reduceIte, Bool.not_true, Bool.false_or]
          rw [ih]
          cases silence s.2 <;> simp

theorem map_fst_polled (stall : ℕ) (ps : List (Poll ρ)) : (polled stall ps).2.map Prod.fst = ps := by
  induction ps using List.reverseRecOn with
  | nil => rfl
  | append_singleton ps p ih =>
    rw [polled_concat, List.map_append, ih]
    rfl

theorem pending_of_waits {e : Poll ρ × Answer ρ} (h : waits e = true) (ht : e.1.method.timed = true) :
    e.2 = .pending := by
  unfold waits at h
  rw [ht] at h
  cases he : e.2 with
  | ready r => simp [he] at h
  | timedOut => simp [he] at h
  | pending => rfl

theorem waits_of_pending {e : Poll ρ × Answer ρ} (h : e.1.method.timed = true → e.2 = .pending) :
    waits e = true := by
  unfold waits
  cases ht : e.1.method.timed with
  | false => rfl
  | true => rw [h ht]; rfl

/-- Where the silence begins. -/
theorem exists_of_head_silence {log : List (Poll ρ × Answer ρ)} {e : Poll ρ × Answer ρ}
    (h : (silence log).head? = some e) :
    ∃ pre post, log = pre ++ (e.1, .pending) :: post ∧ e.1.method.timed = true ∧
      ∀ e' ∈ post, e'.1.method.timed = true → e'.2 = .pending := by
  have hmem : e ∈ silence log := List.mem_of_mem_head? h
  obtain ⟨hrun, htimed⟩ := List.mem_filter.mp hmem
  obtain ⟨front, hfront⟩ := List.rtakeWhile_suffix waits log
  obtain ⟨a, b, hab⟩ := List.append_of_mem hrun
  have hpending := pending_of_waits (List.mem_rtakeWhile_imp hrun) htimed
  refine ⟨front ++ a, b, ?_, htimed, fun e' he' ht' => ?_⟩
  · rw [← hpending, List.append_assoc, ← hab, hfront]
  · have hb : e' ∈ log.rtakeWhile waits := by
      rw [hab]
      simp [he']
    exact pending_of_waits (List.mem_rtakeWhile_imp hb) ht'

theorem head_silence_le {log : List (Poll ρ × Answer ρ)} {pre post : List (Poll ρ × Answer ρ)} {q : Poll ρ}
    (hsorted : (log.map Prod.fst).Pairwise fun q r => q.time ≤ r.time)
    (hlog : log = pre ++ (q, .pending) :: post) (hq : q.method.timed = true)
    (hpost : ∀ e ∈ post, e.1.method.timed = true → e.2 = .pending) :
    ∃ e, (silence log).head? = some e ∧ e.1.time ≤ q.time := by
  have hall : ∀ e ∈ (q, .pending) :: post, waits e = true := by
    intro e he
    rcases List.mem_cons.mp he with rfl | he
    · exact waits_of_pending fun _ => rfl
    · exact waits_of_pending (hpost e he)
  have hrun : log.rtakeWhile waits = pre.rtakeWhile waits ++ (q, .pending) :: post := by
    rw [hlog]
    clear hlog hsorted
    induction post using List.reverseRecOn with
    | nil =>
      rw [List.rtakeWhile_concat, if_pos (hall _ (by simp))]
    | append_singleton post e ih =>
      have hsplit : pre ++ (q, .pending) :: (post ++ [e]) = (pre ++ (q, .pending) :: post) ++ [e] := by simp
      rw [hsplit, List.rtakeWhile_concat, if_pos (hall e (by simp)),
        ih (fun e' he' => hpost e' (by simp [he'])) fun e' he' => hall e' (by
          rcases List.mem_cons.mp he' with rfl | he'
          · simp
          · simp [he'])]
      simp
  have hmem : (q, .pending) ∈ silence log := by
    unfold silence
    rw [hrun, List.mem_filter]
    exact ⟨by simp, hq⟩
  cases hs : silence log with
  | nil =>
    rw [hs] at hmem
    cases hmem
  | cons e es =>
    refine ⟨e, rfl, ?_⟩
    rw [hs] at hmem
    rcases List.mem_cons.mp hmem with rfl | htail
    · exact le_refl _
    · have hsub : (silence log).Sublist log :=
        List.filter_sublist.trans (List.rtakeWhile_suffix waits log).sublist
      have hpairs := (hsorted.sublist (hsub.map Prod.fst))
      rw [hs, List.map_cons] at hpairs
      exact (List.pairwise_cons.mp hpairs).1 q (List.mem_map_of_mem (f := Prod.fst) htail)

/-- **When a connection is given up.** Whatever is polled and when, a poll ends with the time-out exactly if
it is a write or flush that is pending, and since some write or flush at least `stall` before, which was
pending too, none has been ready (nor given up). Every other poll is answered by the socket itself. -/
theorem write_times_out_iff (stall : ℕ) (hstall : 0 < stall) (ps : List (Poll ρ)) (p : Poll ρ)
    (htimes : ps.Pairwise fun q r => q.time ≤ r.time) :
    ((poll stall (polled stall ps).1 p).2 = .timedOut ↔ p.method.timed = true ∧ p.inner = none ∧
      ∃ pre q post, (polled stall ps).2 = pre ++ (q, .pending) :: post ∧ q.method.timed = true ∧
        q.time + stall ≤ p.time ∧ ∀ e ∈ post, e.1.method.timed = true → e.2 = .pending) ∧
    ((poll stall (polled stall ps).1 p).2 ≠ .timedOut →
      (poll stall (polled stall ps).1 p).2 = passedOn p.inner) := by
  have hsorted : ((polled stall ps).2.map Prod.fst).Pairwise fun q r => q.time ≤ r.time := by
    rw [map_fst_polled]
    exact htimes
  have harmed := armed_eq stall ps
  generalize polled stall ps = s at hsorted harmed
  unfold poll
  cases ht : p.method.timed with
  | false => cases hi : p.inner <;> simp [passedOn]
  | true =>
    cases hi : p.inner with
    | some r => simp [pollWithStall, passedOn]
    | none =>
      have hanswer : (pollWithStall (ρ := ρ) s.1 stall p.time none).2 = .timedOut ↔
          s.1.getD (p.time + stall) ≤ p.time := by
        unfold pollWithStall
        simp only
        split_ifs with hd <;> simp [hd]
      constructor
      · rw [if_pos rfl, hanswer, harmed]
        constructor
        · intro hd
          cases he : (silence s.2).head? with
          | none =>
            rw [he] at hd
            have hlate : p.time + stall ≤ p.time := hd
            omega
          | some e =>
            rw [he] at hd
            obtain ⟨pre, post, hlog, hq, hpost⟩ := exists_of_head_silence he
            exact ⟨rfl, rfl, pre, e.1, post, hlog, hq, hd, hpost⟩
        · rintro ⟨-, -, pre, q, post, hlog, hq, hlate, hpost⟩
          obtain ⟨e, he, hle⟩ := head_silence_le hsorted hlog hq hpost
          rw [he]
          show e.1.time + stall ≤ p.time
          omega
      · intro hne
        rw [if_pos rfl] at hne ⊢
        unfold pollWithStall at hne ⊢
        simp only at hne ⊢
        split_ifs at hne ⊢ with hd
        · exact absurd rfl hne
        · rfl

/-- Two pending writes and a read in between: the second write is given up. -/
theorem write_times_out_iff_twice :
    (poll 10 (polled 10 [⟨0, .write, none⟩, ⟨4, .read, some 7⟩]).1 ⟨10, .write, none⟩).2 =
      (.timedOut : Answer ℕ) := by
  refine (write_times_out_iff 10 (by decide) [⟨0, .write, none⟩, ⟨4, .read, some 7⟩] ⟨10, .write, none⟩
    (by decide)).1.mpr ⟨rfl, rfl, [], ⟨0, .write, none⟩, [(⟨4, .read, some 7⟩, .ready 7)], rfl, rfl,
      by decide, fun e he ht => ?_⟩
  rw [List.mem_singleton.mp he] at ht
  cases ht

/-! ### Reading the body of a request -/

/-- What the body of a request may yield. -/
inductive Item where
  | data (bytes : Bytes)
  /-- a frame without data -/
  | trailers
  | failed (message : String)
  | eof
  deriving DecidableEq

/-- Something from the client, so long after the gateway has begun to wait for it. -/
structure Arrival where
  delay : ℕ
  item : Item
  deriving DecidableEq

/-- `BodyRead`. -/
inductive BodyRead where
  | body (bytes : Bytes)
  | stalled
  | tooLarge
  | failed (message : String)
  deriving DecidableEq

/-- The loop of `read_body_with_stall` with what it has in `buf`: its result, and what it has not taken from
the client. After the list nothing comes. -/
def readBodyLoop (stall limit : ℕ) : (buf : Bytes) → List Arrival → BodyRead × List Arrival
  | _, [] => (.stalled, [])
  | buf, a :: rest =>
    if stall < a.delay then (.stalled, a :: rest)
    else
      match a.item with
      | .data bytes =>
        if limit < buf.length + bytes.length then (.tooLarge, rest)
        else readBodyLoop stall limit (buf ++ bytes) rest
      | .trailers => readBodyLoop stall limit buf rest
      | .failed message => (.failed message, rest)
      | .eof => (.body buf, rest)

/-- `read_body_with_stall`. -/
def readBodyWithStall (arrivals : List Arrival) (stall limit : ℕ) : BodyRead × List Arrival :=
  readBodyLoop stall limit [] arrivals

/-- The bytes of a frame. -/
def Item.payload : Item → Bytes
  | .data bytes => bytes
  | _ => []

def Item.isFrame : Item → Bool
  | .data _ => true
  | .trailers => true
  | _ => false

/-- The bytes of some frames, one after the other. -/
def payload (frames : List Arrival) : Bytes := frames.flatMap fun a => a.item.payload

/-- The client sends frames, none of them late. -/
def Steady (stall : ℕ) (frames : List Arrival) : Prop := ∀ a ∈ frames, a.delay ≤ stall ∧ a.item.isFrame = true

variable {limit : ℕ} {arrivals : List Arrival}

theorem payload_cons (a : Arrival) (as : List Arrival) : payload (a :: as) = a.item.payload ++ payload as := rfl

theorem Steady.tail {a : Arrival} {as : List Arrival} (h : Steady stall (a :: as)) : Steady stall as :=
  fun b hb => h b (List.mem_cons_of_mem a hb)

theorem readBodyLoop_frame {buf : Bytes} {a : Arrival} {rest : List Arrival} (ht : a.delay ≤ stall)
    (hf : a.item.isFrame = true) (hlen : (buf ++ a.item.payload).length ≤ limit) :
    readBodyLoop stall limit buf (a :: rest) = readBodyLoop stall limit (buf ++ a.item.payload) rest := by
  rw [readBodyLoop, if_neg (Nat.not_lt.mpr ht)]
  cases hi : a.item with
  | data bytes =>
    rw [hi] at hlen
    rw [List.length_append] at hlen
    exact if_neg (Nat.not_lt.mpr hlen)
  | trailers => simp [Item.payload]
  | failed message => rw [hi] at hf; cases hf
  | eof => rw [hi] at hf; cases hf

theorem readBodyLoop_frames : ∀ {frames rest : List Arrival} {buf : Bytes}, Steady stall frames →
    (buf ++ payload frames).length ≤ limit →
    readBodyLoop stall limit buf (frames ++ rest) = readBodyLoop stall limit (buf ++ payload frames) rest
  | [], rest, buf, _, _ => by simp [payload]
  | a :: as, rest, buf, h, hlen => by
    obtain ⟨ht, hf⟩ := h a (by simp)
    have hsplit : buf ++ payload (a :: as) = (buf ++ a.item.payload) ++ payload as := by
      rw [payload_cons, List.append_assoc]
    have hone : (buf ++ a.item.payload).length ≤ limit := by
      rw [hsplit, List.length_append] at hlen
      omega
    rw [List.cons_append, readBodyLoop_frame ht hf hone, hsplit]
    exact readBodyLoop_frames h.tail (by rwa [← hsplit])

/-- How the reading of a body goes, with what is in the buffer already: some frames in time that fit, and then
what ends it. -/
inductive Reads (stall limit : ℕ) (buf : Bytes) : List Arrival → BodyRead → List Arrival → Prop
  | body {frames rest : List Arrival} {a : Arrival} (h : Steady stall frames)
      (hlen : (buf ++ payload frames).length ≤ limit) (ht : a.delay ≤ stall) (ha : a.item = .eof) :
      Reads stall limit buf (frames ++ a :: rest) (.body (buf ++ payload frames)) rest
  | failed {frames rest : List Arrival} {a : Arrival} {message : String} (h : Steady stall frames)
      (hlen : (buf ++ payload frames).length ≤ limit) (ht : a.delay ≤ stall) (ha : a.item = .failed message) :
      Reads stall limit buf (frames ++ a :: rest) (.failed message) rest
  | tooLarge {frames rest : List Arrival} {a : Arrival} (h : Steady stall (frames ++ [a]))
      (hlen : (buf ++ payload frames).length ≤ limit)
      (hover : limit < (buf ++ payload (frames ++ [a])).length) :
      Reads stall limit buf (frames ++ a :: rest) .tooLarge rest
  | late {frames rest : List Arrival} {a : Arrival} (h : Steady stall frames)
      (hlen : (buf ++ payload frames).length ≤ limit) (ht : stall < a.delay) :
      Reads stall limit buf (frames ++ a :: rest) .stalled (a :: rest)
  | silent {frames : List Arrival} (h : Steady stall frames) (hlen : (buf ++ payload frames).length ≤ limit) :
      Reads stall limit buf frames .stalled []

theorem payload_snoc (frames : List Arrival) (a : Arrival) :
    payload (frames ++ [a]) = payload frames ++ a.item.payload := by
  simp [payload]

theorem readBodyLoop_of_reads {buf : Bytes} {r : BodyRead} {rest : List Arrival}
    (h : Reads stall limit buf arrivals r rest) : readBodyLoop stall limit buf arrivals = (r, rest) := by
  cases h with
  | body h hlen ht ha =>
    rw [readBodyLoop_frames h hlen, readBodyLoop, if_neg (Nat.not_lt.mpr ht), ha]
  | failed h hlen ht ha =>
    rw [readBodyLoop_frames h hlen, readBodyLoop, if_neg (Nat.not_lt.mpr ht), ha]
  | @tooLarge frames rest a h hlen hover =>
    obtain ⟨ht, hf⟩ := h a (by simp)
    rw [readBodyLoop_frames (fun b hb => h b (by simp [hb])) hlen, readBodyLoop,
      if_neg (Nat.not_lt.mpr ht)]
    rw [payload_snoc, ← List.append_assoc, List.length_append] at hover
    cases hi : a.item with
    | data bytes =>
      rw [hi] at hover
      exact if_pos hover
    | trailers =>
      rw [hi] at hover
      simp only [Item.payload, List.length_nil] at hover
      omega
    | failed message => rw [hi] at hf; cases hf
    | eof => rw [hi] at hf; cases hf
  | late h hlen ht => rw [readBodyLoop_frames h hlen, readBodyLoop, if_pos ht]
  | silent h hlen =>
    have hframes : readBodyLoop stall limit buf (arrivals ++ []) =
        readBodyLoop stall limit (buf ++ payload arrivals) [] := readBodyLoop_frames h hlen
    rw [List.append_nil] at hframes
    rw [hframes, readBodyLoop]

theorem Reads.cons {buf : Bytes} {r : BodyRead} {rest : List Arrival} {a : Arrival}
    (ht : a.delay ≤ stall) (hf : a.item.isFrame = true)
    (h : Reads stall limit (buf ++ a.item.payload) arrivals r rest) :
    Reads stall limit buf (a :: arrivals) r rest := by
  have hsteady : ∀ {frames : List Arrival}, Steady stall frames → Steady stall (a :: frames) := by
    intro frames hframes b hb
    rcases List.mem_cons.mp hb with rfl | hb
    · exact ⟨ht, hf⟩
    · exact hframes b hb
  have hpayload : ∀ frames : List Arrival,
      (buf ++ a.item.payload) ++ payload frames = buf ++ payload (a :: frames) := by
    intro frames
    rw [payload_cons, List.append_assoc]
  cases h with
  | body h hlen ht' ha =>
    rw [hpayload] at hlen ⊢
    exact .body (hsteady h) hlen ht' ha
  | @failed frames _ b message h hlen ht' ha =>
    rw [hpayload] at hlen
    have hreads : Reads stall limit buf ((a :: frames) ++ b :: rest) (.failed message) rest :=
      .failed (hsteady h) hlen ht' ha
    exact hreads
  | @tooLarge frames _ b h hlen hover =>
    rw [hpayload] at hlen hover
    have hreads : Reads stall limit buf ((a :: frames) ++ b :: rest) .tooLarge rest :=
      .tooLarge (hsteady h) hlen hover
    exact hreads
  | @late frames after b h hlen ht' =>
    rw [hpayload] at hlen
    have hreads : Reads stall limit buf ((a :: frames) ++ b :: after) .stalled (b :: after) :=
      .late (hsteady h) hlen ht'
    exact hreads
  | silent h hlen =>
    rw [hpayload] at hlen
    exact .silent (hsteady h) hlen

theorem exists_reads (stall limit : ℕ) : ∀ (arrivals : List Arrival) (buf : Bytes), buf.length ≤ limit →
    ∃ r rest, Reads stall limit buf arrivals r rest
  | [], buf, hbuf => ⟨_, _, .silent (fun a ha => by cases ha) (by simpa [payload] using hbuf)⟩
  | a :: as, buf, hbuf => by
    have hnone : Steady stall [] := fun b hb => by cases hb
    have hlen : (buf ++ payload []).length ≤ limit := by simpa [payload] using hbuf
    by_cases ht : stall < a.delay
    · have hlate : Reads stall limit buf ([] ++ a :: as) .stalled (a :: as) := .late hnone hlen ht
      exact ⟨_, _, hlate⟩
    · rw [Nat.not_lt] at ht
      cases hf : a.item.isFrame with
      | false =>
        cases hi : a.item with
        | data bytes => rw [hi] at hf; cases hf
        | trailers => rw [hi] at hf; cases hf
        | failed message =>
          have hfailed : Reads stall limit buf ([] ++ a :: as) (.failed message) as := .failed hnone hlen ht hi
          exact ⟨_, _, hfailed⟩
        | eof =>
          have hbody : Reads stall limit buf ([] ++ a :: as) (.body (buf ++ payload [])) as :=
            .body hnone hlen ht hi
          exact ⟨_, _, hbody⟩
      | true =>
        by_cases hfit : (buf ++ a.item.payload).length ≤ limit
        · obtain ⟨r, rest, h⟩ := exists_reads stall limit as _ hfit
          exact ⟨r, rest, h.cons ht hf⟩
        · have hone : Steady stall ([] ++ [a]) := by
            intro b hb
            rw [List.mem_singleton.mp hb]
            exact ⟨ht, hf⟩
          have hover : limit < (buf ++ payload ([] ++ [a])).length := by
            rw [payload_snoc]
            simpa [payload] using Nat.not_le.mp hfit
          have hlarge : Reads stall limit buf ([] ++ a :: as) .tooLarge as := .tooLarge hone hlen hover
          exact ⟨_, _, hlarge⟩

theorem reads_of_readBodyWithStall {stall limit : ℕ} {arrivals : List Arrival} {r : BodyRead}
    {rest : List Arrival} (h : readBodyWithStall arrivals stall limit = (r, rest)) :
    Reads stall limit [] arrivals r rest := by
  obtain ⟨r', rest', hreads⟩ := exists_reads stall limit arrivals [] (Nat.zero_le limit)
  have hvalue := readBodyLoop_of_reads hreads
  rw [readBodyWithStall, hvalue] at h
  cases h
  exact hreads

/-- **The body of a request.** Reading it ends in one of four ways, each where it should: with all bytes the
client has sent if the end comes, and nothing was late and they fit; with the client's error; at the first
frame with which they do not fit; at the first wait of more than `stall`. How long it takes altogether makes
no difference, and what comes after the end is not read. -/
theorem read_body_iff (stall limit : ℕ) (arrivals : List Arrival) (r : BodyRead) (rest : List Arrival) :
    readBodyWithStall arrivals stall limit = (r, rest) ↔ Reads stall limit [] arrivals r rest := by
  constructor
  · exact reads_of_readBodyWithStall
  · exact readBodyLoop_of_reads

end HomeLlmGateway.Http.Stall
