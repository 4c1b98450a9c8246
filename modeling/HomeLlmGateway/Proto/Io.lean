import HomeLlmGateway.Proto.Frames

/-! # Reading and writing frames

`write_frame` and `FrameReader` (`proto/src/io/mod.rs`). A frame on the wire is its length, four bytes
big-endian, and its postcard bytes. The reader keeps what it has received but not yet used in `buf`,
and in `want` the total length of the frame it is waiting for once the four length bytes are there.

The byte stream below the reader is a script of what its reads meet: some bytes (`data`), the `next`
future dropped while its read is pending (`cancel`), a transport error (`fail`); a script that has run
out is the end of the stream.

The reader is compared with `parseOne`, which looks at all the bytes to come at once: whatever the
script, a call of `next` that completes has the result of `parseOne` on the bytes ahead, and a call
that is dropped leaves these bytes as they were (`next_spec`). So neither where the reads split the
stream nor how often a call is dropped can be seen in the results. -/

namespace HomeLlmGateway.Proto.Io

open HomeLlmGateway.Lib.ByteCodec HomeLlmGateway.Proto.Frames

/-! ### The code -/

/-- `io::ErrorKind`, as far as the frame code tells kinds apart. -/
inductive ErrorKind where
  | invalidData
  | unexpectedEof
  | other
  deriving DecidableEq

/-- `io::Error`. -/
structure IoError where
  kind : ErrorKind
  message : String
  deriving DecidableEq

/-- `MAX_FRAME`, 64 MiB. -/
def maxFrame : ℕ := 64 * 1024 * 1024

/-- The error of an oversized frame, of the writer and of the reader. -/
def frameTooLarge : IoError := ⟨.invalidData, "frame too large"⟩

/-- The error of a stream that ends inside a frame. -/
def earlyEof : IoError := ⟨.unexpectedEof, "early eof"⟩

/-- `write_frame`: the bytes of its one `write_all`. -/
def writeFrame (P : Postcard) (f : Frame) : Except IoError Bytes :=
  match P.toAllocvec f with
  | .error e => .error ⟨.invalidData, e⟩
  | .ok bytes =>
    if maxFrame < bytes.length then .error frameTooLarge
    else .ok (toBeBytes bytes.length ++ bytes)

/-- `FrameReader`, without the stream it owns. -/
structure FrameReader where
  /-- received, not yet part of a frame handed out -/
  buf : Bytes
  /-- total length of the current frame, once its four length bytes are in `buf` -/
  want : Option ℕ
  deriving DecidableEq

/-- `FrameReader::new`. -/
def FrameReader.new : FrameReader := ⟨[], none⟩

/-- The length that the first four bytes declare. -/
def declaredLen (buf : Bytes) : ℕ := fromBeBytes (buf.take 4)

/-- `take_frame` once `want` is known. -/
def takeTotal (P : Postcard) (r : FrameReader) (total : ℕ) :
    Except IoError (Option Frame) × FrameReader :=
  if r.buf.length < total then (.ok none, r)
  else match P.fromBytes ((r.buf.take total).drop 4) with
    | .error e => (.error ⟨.invalidData, e⟩, r)
    | .ok f => (.ok (some f), ⟨r.buf.drop total, none⟩)

/-- `take_frame`: hand out the frame at the front of `buf` if it is complete. -/
def takeFrame (P : Postcard) (r : FrameReader) : Except IoError (Option Frame) × FrameReader :=
  match r.want with
  | none =>
    if r.buf.length < 4 then (.ok none, r)
    else if maxFrame < declaredLen r.buf then (.error frameTooLarge, r)
    else takeTotal P { r with want := some (4 + declaredLen r.buf) } (4 + declaredLen r.buf)
  | some total => takeTotal P r total

/-- The size of the array that one read fills. -/
def readCap : ℕ := 8 * 1024

/-- What one read returns when it returns bytes. -/
structure ReadChunk where
  bytes : Bytes
  ne_nil : bytes ≠ []
  le_cap : bytes.length ≤ readCap

/-- What one read meets. -/
inductive ReadEvent where
  | data (c : ReadChunk)
  | cancel
  | fail (e : IoError)

/-- How a call of `next` ends. -/
inductive NextOutcome where
  | cancelled
  | ready (r : Except IoError (Option Frame))

/-- `next`: with the reads of the script, the outcome, the reader after it and the reads left. -/
def next (P : Postcard) : FrameReader → List ReadEvent → NextOutcome × FrameReader × List ReadEvent
  | r, [] =>
    match takeFrame P r with
    | (.error e, r1) => (.ready (.error e), r1, [])
    | (.ok (some f), r1) => (.ready (.ok (some f)), r1, [])
    | (.ok none, r1) =>
      -- a read of no bytes: clean between frames, an error inside one
      if r1.buf.isEmpty && r1.want.isNone then (.ready (.ok none), r1, [])
      else (.ready (.error earlyEof), r1, [])
  | r, ev :: evs =>
    match takeFrame P r with
    | (.error e, r1) => (.ready (.error e), r1, ev :: evs)
    | (.ok (some f), r1) => (.ready (.ok (some f)), r1, ev :: evs)
    | (.ok none, r1) =>
      match ev with
      | .data c => next P { r1 with buf := r1.buf ++ c.bytes } evs
      | .cancel => (.cancelled, r1, evs)
      | .fail e => (.ready (.error e), r1, evs)

/-- Call `next` again and again (at most `n` times) until it reports the end of the stream or an
error; the results of the calls that were not dropped. -/
def drain (P : Postcard) : ℕ → FrameReader → List ReadEvent → List (Except IoError (Option Frame))
  | 0, _, _ => []
  | n + 1, r, evs =>
    match next P r evs with
    | (.cancelled, r1, evs1) => drain P n r1 evs1
    | (.ready (.ok (some f)), r1, evs1) => .ok (some f) :: drain P n r1 evs1
    | (.ready res, _, _) => [res]

/-! ### The stream seen at once -/

/-- The bytes of the reads to come. -/
def incoming : List ReadEvent → Bytes
  | [] => []
  | .data c :: evs => c.bytes ++ incoming evs
  | .cancel :: evs => incoming evs
  | .fail _ :: evs => incoming evs

/-- No read of the script fails. -/
def NoFail (evs : List ReadEvent) : Prop := ∀ e, ReadEvent.fail e ∉ evs

/-- The first result of a stream of which all the bytes are known, and the bytes after it. -/
def parseOne (P : Postcard) (bs : Bytes) : Except IoError (Option Frame) × Bytes :=
  if bs = [] then (.ok none, bs)
  else if bs.length < 4 then (.error earlyEof, bs)
  else if maxFrame < declaredLen bs then (.error frameTooLarge, bs)
  else if bs.length < 4 + declaredLen bs then (.error earlyEof, bs)
  else match P.fromBytes ((bs.take (4 + declaredLen bs)).drop 4) with
    | .error e => (.error ⟨.invalidData, e⟩, bs)
    | .ok f => (.ok (some f), bs.drop (4 + declaredLen bs))

/-- `want` is what the length bytes say. -/
def WF (r : FrameReader) : Prop :=
  r.want = none ∨
    (4 ≤ r.buf.length ∧ declaredLen r.buf ≤ maxFrame ∧ r.want = some (4 + declaredLen r.buf))

/-- The front of `bs` is not yet a frame, and not yet an error. -/
def Incomplete (bs : Bytes) : Prop :=
  bs.length < 4 ∨ (4 ≤ bs.length ∧ declaredLen bs ≤ maxFrame ∧ bs.length < 4 + declaredLen bs)

theorem wf_new : WF FrameReader.new := Or.inl rfl

theorem declaredLen_append {a : Bytes} (b : Bytes) (h : 4 ≤ a.length) :
    declaredLen (a ++ b) = declaredLen a := by
  unfold declaredLen
  rw [List.take_append_of_le_length h]

theorem parseOne_of_decoded (P : Postcard) {bs : Bytes} {f : Frame} (h4 : 4 ≤ bs.length)
    (hmax : declaredLen bs ≤ maxFrame) (hlen : 4 + declaredLen bs ≤ bs.length)
    (hf : P.fromBytes ((bs.take (4 + declaredLen bs)).drop 4) = .ok f) :
    parseOne P bs = (.ok (some f), bs.drop (4 + declaredLen bs)) := by
  have hne : bs ≠ [] := by rintro rfl; simp at h4
  unfold parseOne
  rw [if_neg hne, if_neg (by omega), if_neg (by omega), if_neg (by omega), hf]

theorem parseOne_of_refused (P : Postcard) {bs : Bytes} {e : String} (h4 : 4 ≤ bs.length)
    (hmax : declaredLen bs ≤ maxFrame) (hlen : 4 + declaredLen bs ≤ bs.length)
    (hf : P.fromBytes ((bs.take (4 + declaredLen bs)).drop 4) = .error e) :
    parseOne P bs = (.error ⟨.invalidData, e⟩, bs) := by
  have hne : bs ≠ [] := by rintro rfl; simp at h4
  unfold parseOne
  rw [if_neg hne, if_neg (by omega), if_neg (by omega), if_neg (by omega), hf]

theorem parseOne_tooLarge (P : Postcard) {bs : Bytes} (h4 : 4 ≤ bs.length)
    (hmax : maxFrame < declaredLen bs) : parseOne P bs = (.error frameTooLarge, bs) := by
  have hne : bs ≠ [] := by rintro rfl; simp at h4
  unfold parseOne
  rw [if_neg hne, if_neg (by omega), if_pos hmax]

theorem parseOne_incomplete (P : Postcard) {bs : Bytes} (hne : bs ≠ []) (h : Incomplete bs) :
    parseOne P bs = (.error earlyEof, bs) := by
  unfold parseOne
  rw [if_neg hne]
  rcases h with h | ⟨h1, h2, h3⟩
  · rw [if_pos h]
  · rw [if_neg (by omega), if_neg (by omega), if_pos h3]

/-! ### One call of the reader -/

theorem takeTotal_spec (P : Postcard) {r : FrameReader} (h4 : 4 ≤ r.buf.length)
    (hmax : declaredLen r.buf ≤ maxFrame) (d : Bytes) :
    (takeTotal P r (4 + declaredLen r.buf) = (.ok none, r) ∧ Incomplete r.buf) ∨
      (∃ e, takeTotal P r (4 + declaredLen r.buf) = (.error e, r) ∧
        parseOne P (r.buf ++ d) = (.error e, r.buf ++ d)) ∨
      ∃ f r1, takeTotal P r (4 + declaredLen r.buf) = (.ok (some f), r1) ∧ WF r1 ∧
        parseOne P (r.buf ++ d) = (.ok (some f), r1.buf ++ d) := by
  by_cases hlen : r.buf.length < 4 + declaredLen r.buf
  · left
    refine ⟨?_, Or.inr ⟨h4, hmax, hlen⟩⟩
    unfold takeTotal
    rw [if_pos hlen]
  · have hlen' : 4 + declaredLen r.buf ≤ r.buf.length := by omega
    have hdecl := declaredLen_append d h4
    have h4' : 4 ≤ (r.buf ++ d).length := by rw [List.length_append]; omega
    have hlen'' : 4 + declaredLen (r.buf ++ d) ≤ (r.buf ++ d).length := by
      rw [hdecl, List.length_append]; omega
    have hslice : ((r.buf ++ d).take (4 + declaredLen (r.buf ++ d))).drop 4 =
        (r.buf.take (4 + declaredLen r.buf)).drop 4 := by
      rw [hdecl, List.take_append_of_le_length hlen']
    cases hd : P.fromBytes ((r.buf.take (4 + declaredLen r.buf)).drop 4) with
    | error e =>
      right; left
      refine ⟨⟨.invalidData, e⟩, ?_, ?_⟩
      · unfold takeTotal
        rw [if_neg hlen, hd]
      · exact parseOne_of_refused P h4' (by omega) hlen'' (by rw [hslice]; exact hd)
    | ok f =>
      right; right
      refine ⟨f, ⟨r.buf.drop (4 + declaredLen r.buf), none⟩, ?_, Or.inl rfl, ?_⟩
      · unfold takeTotal
        rw [if_neg hlen, hd]
      · rw [parseOne_of_decoded P h4' (by omega) hlen'' (by rw [hslice]; exact hd), hdecl,
          List.drop_append_of_le_length hlen']

/-- **`take_frame`**: nothing yet (the bytes kept), or the result of `parseOne` on the whole stream. -/
theorem takeFrame_spec (P : Postcard) {r : FrameReader} (hr : WF r) (d : Bytes) :
    (∃ r1, takeFrame P r = (.ok none, r1) ∧ WF r1 ∧ r1.buf = r.buf ∧ Incomplete r.buf) ∨
      (∃ e r1, takeFrame P r = (.error e, r1) ∧ WF r1 ∧ r1.buf = r.buf ∧
        parseOne P (r.buf ++ d) = (.error e, r.buf ++ d)) ∨
      ∃ f r1, takeFrame P r = (.ok (some f), r1) ∧ WF r1 ∧
        parseOne P (r.buf ++ d) = (.ok (some f), r1.buf ++ d) := by
  rcases hr with hw | ⟨h4, hmax, hw⟩
  · by_cases h4 : r.buf.length < 4
    · left
      refine ⟨r, ?_, Or.inl hw, rfl, Or.inl h4⟩
      unfold takeFrame
      rw [hw]
      simp only [if_pos h4]
    · by_cases hmax : maxFrame < declaredLen r.buf
      · right; left
        refine ⟨frameTooLarge, r, ?_, Or.inl hw, rfl, ?_⟩
        · unfold takeFrame
          rw [hw]
          simp only [if_neg h4, if_pos hmax]
        · refine parseOne_tooLarge P (by rw [List.length_append]; omega) ?_
          rw [declaredLen_append d (by omega)]
          exact hmax
      · have heq : takeFrame P r =
            takeTotal P { r with want := some (4 + declaredLen r.buf) } (4 + declaredLen r.buf) := by
          unfold takeFrame
          rw [hw]
          simp only [if_neg h4, if_neg hmax]
        have hwf : WF { r with want := some (4 + declaredLen r.buf) } :=
          Or.inr ⟨by show 4 ≤ r.buf.length; omega, by show declaredLen r.buf ≤ maxFrame; omega, rfl⟩
        rw [heq]
        rcases takeTotal_spec P (r := { r with want := some (4 + declaredLen r.buf) })
          (by show 4 ≤ r.buf.length; omega) (by show declaredLen r.buf ≤ maxFrame; omega) d with
          ⟨h1, h2⟩ | ⟨e, h1, h2⟩ | ⟨f, r1, h1, h2, h3⟩
        · exact Or.inl ⟨_, h1, hwf, rfl, h2⟩
        · exact Or.inr (Or.inl ⟨e, _, h1, hwf, rfl, h2⟩)
        · exact Or.inr (Or.inr ⟨f, r1, h1, h2, h3⟩)
  · have heq : takeFrame P r = takeTotal P r (4 + declaredLen r.buf) := by
      unfold takeFrame
      rw [hw]
    rw [heq]
    rcases takeTotal_spec P h4 hmax d with ⟨h1, h2⟩ | ⟨e, h1, h2⟩ | ⟨f, r1, h1, h2, h3⟩
    · exact Or.inl ⟨r, h1, Or.inr ⟨h4, hmax, hw⟩, rfl, h2⟩
    · exact Or.inr (Or.inl ⟨e, r, h1, Or.inr ⟨h4, hmax, hw⟩, rfl, h2⟩)
    · exact Or.inr (Or.inr ⟨f, r1, h1, h2, h3⟩)

theorem isEmpty_of_wf {r : FrameReader} (hr : WF r) (h : r.buf = []) : r.want = none := by
  rcases hr with hw | ⟨h4, -, -⟩
  · exact hw
  · rw [h] at h4
    simp at h4

theorem next_of_error (P : Postcard) {r r1 : FrameReader} {e : IoError}
    (h : takeFrame P r = (.error e, r1)) (evs : List ReadEvent) :
    next P r evs = (.ready (.error e), r1, evs) := by
  cases evs <;> simp [next, h]

theorem next_of_frame (P : Postcard) {r r1 : FrameReader} {f : Frame}
    (h : takeFrame P r = (.ok (some f), r1)) (evs : List ReadEvent) :
    next P r evs = (.ready (.ok (some f)), r1, evs) := by
  cases evs <;> simp [next, h]

/-- What a call of `next` on the reads `evs` may leave behind: it was dropped and the bytes ahead are
unchanged, or it completed with the result of `parseOne` on the bytes ahead, or a read failed. -/
def NextSpec (P : Postcard) (r : FrameReader) (evs : List ReadEvent)
    (out : NextOutcome × FrameReader × List ReadEvent) : Prop :=
  WF out.2.1 ∧
    ((out.1 = .cancelled ∧ out.2.1.buf ++ incoming out.2.2 = r.buf ++ incoming evs ∧
        out.2.2.length < evs.length ∧ out.2.2 ⊆ evs) ∨
      (∃ res, out.1 = .ready res ∧
        parseOne P (r.buf ++ incoming evs) = (res, out.2.1.buf ++ incoming out.2.2) ∧
        out.2.2.length ≤ evs.length ∧ out.2.2 ⊆ evs) ∨
      ∃ e, out.1 = .ready (.error e) ∧ ReadEvent.fail e ∈ evs)

theorem nextSpec_of_parseOne {P : Postcard} {r r1 : FrameReader} {evs : List ReadEvent}
    {res : Except IoError (Option Frame)} (hwf : WF r1)
    (hp : parseOne P (r.buf ++ incoming evs) = (res, r1.buf ++ incoming evs)) :
    NextSpec P r evs (.ready res, r1, evs) :=
  ⟨hwf, Or.inr (Or.inl ⟨res, rfl, hp, le_rfl, fun _ h => h⟩)⟩

/-- The bytes of a read are kept behind those already there. -/
theorem wf_append {r : FrameReader} (hr : WF r) (bs : Bytes) : WF { r with buf := r.buf ++ bs } := by
  rcases hr with hw | ⟨h4, hmax, hw⟩
  · exact Or.inl hw
  · have hd := declaredLen_append bs h4
    refine Or.inr ⟨?_, ?_, ?_⟩
    · show 4 ≤ (r.buf ++ bs).length
      rw [List.length_append]; omega
    · show declaredLen (r.buf ++ bs) ≤ maxFrame
      omega
    · show r.want = some (4 + declaredLen (r.buf ++ bs))
      rw [hd]; exact hw

/-- **One call of `next`**, whatever its reads meet. -/
theorem next_spec (P : Postcard) : ∀ (evs : List ReadEvent) (r : FrameReader), WF r →
    NextSpec P r evs (next P r evs)
  | evs, r, hr => by
    rcases takeFrame_spec P hr (incoming evs) with ⟨r1, h1, hwf, hbuf, hinc⟩ |
      ⟨e, r1, h1, hwf, hbuf, hp⟩ | ⟨f, r1, h1, hwf, hp⟩
    · match evs with
      | [] =>
        by_cases hnil : r.buf = []
        · have hw := isEmpty_of_wf hwf (by rw [hbuf]; exact hnil)
          have hn : next P r [] = (.ready (.ok none), r1, []) := by simp [next, h1, hbuf, hnil, hw]
          rw [hn]
          refine nextSpec_of_parseOne hwf ?_
          simp [incoming, hbuf, hnil, parseOne]
        · have hn : next P r [] = (.ready (.error earlyEof), r1, []) := by
            simp [next, h1, hbuf, hnil]
          rw [hn]
          refine nextSpec_of_parseOne hwf ?_
          simp only [incoming, List.append_nil, hbuf]
          exact parseOne_incomplete P hnil hinc
      | .data c :: evs =>
        have hn : next P r (.data c :: evs) = next P { r1 with buf := r1.buf ++ c.bytes } evs := by
          simp [next, h1]
        have ih := next_spec P evs { r1 with buf := r1.buf ++ c.bytes } (wf_append hwf c.bytes)
        have hahead : r1.buf ++ c.bytes ++ incoming evs = r.buf ++ incoming (.data c :: evs) := by
          rw [hbuf, List.append_assoc]; rfl
        rw [hn]
        refine ⟨ih.1, ?_⟩
        have ih2 := ih.2
        simp only [hahead] at ih2
        rcases ih2 with ⟨ho, hb, hl, hsub⟩ | ⟨res, ho, hb, hl, hsub⟩ | ⟨e, ho, hmem⟩
        · exact Or.inl ⟨ho, hb, by simp; omega, fun _ h => List.mem_cons_of_mem _ (hsub h)⟩
        · exact Or.inr (Or.inl ⟨res, ho, hb, by simp; omega,
            fun _ h => List.mem_cons_of_mem _ (hsub h)⟩)
        · exact Or.inr (Or.inr ⟨e, ho, List.mem_cons_of_mem _ hmem⟩)
      | .cancel :: evs =>
        have hn : next P r (.cancel :: evs) = (.cancelled, r1, evs) := by simp [next, h1]
        rw [hn]
        refine ⟨hwf, Or.inl ⟨rfl, ?_, by simp, fun _ h => List.mem_cons_of_mem _ h⟩⟩
        rw [hbuf]; rfl
      | .fail e :: evs =>
        have hn : next P r (.fail e :: evs) = (.ready (.error e), r1, evs) := by simp [next, h1]
        rw [hn]
        exact ⟨hwf, Or.inr (Or.inr ⟨e, rfl, by simp⟩)⟩
    · rw [next_of_error P h1]
      exact nextSpec_of_parseOne hwf (by rw [hbuf]; exact hp)
    · rw [next_of_frame P h1]
      exact nextSpec_of_parseOne hwf hp

/-! ### All the results of a stream -/

theorem NoFail.mono {evs evs1 : List ReadEvent} (h : NoFail evs) (hs : evs1 ⊆ evs) : NoFail evs1 :=
  fun e he => h e (hs he)

theorem drain_last (P : Postcard) {res : Except IoError (Option Frame)} {rest : Bytes}
    (hres : ∀ f, res ≠ .ok (some f)) :
    ∀ (n : ℕ) (r : FrameReader) (evs : List ReadEvent), WF r → NoFail evs → evs.length < n →
      parseOne P (r.buf ++ incoming evs) = (res, rest) → drain P n r evs = [res]
  | 0, _, _, _, _, hn, _ => by omega
  | n + 1, r, evs, hr, hno, hn, hp => by
    obtain ⟨hwf, h⟩ := next_spec P evs r hr
    generalize h1 : next P r evs = out at hwf h
    obtain ⟨o, r1, evs1⟩ := out
    simp only at hwf h
    rcases h with ⟨rfl, hb, hl, hsub⟩ | ⟨res', rfl, hb, hl, hsub⟩ | ⟨e, -, hmem⟩
    · rw [drain, h1]
      exact drain_last P hres n r1 evs1 hwf (hno.mono hsub) (by omega) (by rw [hb]; exact hp)
    · rw [hp] at hb
      cases hb
      rw [drain, h1]
      cases res with
      | error e => rfl
      | ok o =>
        cases o with
        | none => rfl
        | some f => exact absurd rfl (hres f)
    · exact absurd hmem (hno e)

theorem drain_frame (P : Postcard) {f : Frame} {rest : Bytes} :
    ∀ (n : ℕ) (r : FrameReader) (evs : List ReadEvent), WF r → NoFail evs → evs.length < n →
      parseOne P (r.buf ++ incoming evs) = (.ok (some f), rest) →
      ∃ n1 r1 evs1, WF r1 ∧ NoFail evs1 ∧ r1.buf ++ incoming evs1 = rest ∧
        n + evs1.length ≤ n1 + evs.length + 1 ∧
        drain P n r evs = .ok (some f) :: drain P n1 r1 evs1
  | 0, _, _, _, _, hn, _ => by omega
  | n + 1, r, evs, hr, hno, hn, hp => by
    obtain ⟨hwf, h⟩ := next_spec P evs r hr
    generalize h1 : next P r evs = out at hwf h
    obtain ⟨o, r1, evs1⟩ := out
    simp only at hwf h
    rcases h with ⟨rfl, hb, hl, hsub⟩ | ⟨res, rfl, hb, hl, hsub⟩ | ⟨e, -, hmem⟩
    · obtain ⟨n2, r2, evs2, hwf2, hno2, hb2, hl2, hd⟩ :=
        drain_frame P n r1 evs1 hwf (hno.mono hsub) (by omega) (by rw [hb]; exact hp)
      refine ⟨n2, r2, evs2, hwf2, hno2, hb2, by omega, ?_⟩
      rw [drain, h1]
      exact hd
    · rw [hp] at hb
      cases hb
      refine ⟨n, r1, evs1, hwf, hno.mono hsub, rfl, by omega, ?_⟩
      rw [drain, h1]
    · exact absurd hmem (hno e)

/-- The frames `fs` and the bytes `write_frame` gives for them, one after the other. -/
inductive Wire (P : Postcard) : List Frame → Bytes → Prop
  | nil : Wire P [] []
  | cons {f : Frame} {fs : List Frame} {w ws : Bytes} (hw : writeFrame P f = .ok w)
      (hws : Wire P fs ws) : Wire P (f :: fs) (w ++ ws)

theorem writeFrame_ok {P : Postcard} {f : Frame} {w : Bytes} (h : writeFrame P f = .ok w) :
    ∃ b, P.toAllocvec f = .ok b ∧ b.length ≤ maxFrame ∧ w = toBeBytes b.length ++ b := by
  unfold writeFrame at h
  split at h
  · cases h
  · next b hb =>
    split_ifs at h with hlen
    cases h
    exact ⟨b, hb, by omega, rfl⟩

theorem declaredLen_wire {b : Bytes} (rest : Bytes) (h : b.length ≤ maxFrame) :
    declaredLen (toBeBytes b.length ++ b ++ rest) = b.length := by
  unfold declaredLen
  rw [List.append_assoc, List.take_append_of_le_length (by simp), List.take_of_length_le (by simp)]
  have : maxFrame < 2 ^ 32 := by decide
  exact fromBeBytes_toBeBytes _ (by omega)

theorem declaredLen_len {len : Bytes} (rest : Bytes) (h : len.length = 4) :
    declaredLen (len ++ rest) = fromBeBytes len := by
  rw [declaredLen_append rest (by omega)]
  simp [declaredLen, List.take_of_length_le (le_of_eq h)]

theorem parseOne_wire {P : Postcard} {f : Frame} {w : Bytes} (h : writeFrame P f = .ok w)
    (rest : Bytes) : parseOne P (w ++ rest) = (.ok (some f), rest) := by
  obtain ⟨b, hb, hlen, rfl⟩ := writeFrame_ok h
  have hd := declaredLen_wire rest hlen
  have htotal : (toBeBytes b.length ++ b).length = 4 + b.length := by simp
  have hslice : ((toBeBytes b.length ++ b ++ rest).take (4 + b.length)).drop 4 = b := by
    rw [List.take_append_of_le_length (by omega), List.take_of_length_le (by omega),
      List.drop_append_of_le_length (by simp), List.drop_of_length_le (by simp), List.nil_append]
  have h4 : 4 ≤ (toBeBytes b.length ++ b ++ rest).length := by simp
  have hp := parseOne_of_decoded P h4 (by omega) (by rw [hd]; simp)
    (by rw [hd, hslice]; exact P.fromBytes_toAllocvec hb)
  rw [hp, hd, List.drop_append_of_le_length (by omega), List.drop_of_length_le (by omega),
    List.nil_append]

/-- A frame cut anywhere inside is not yet a frame. -/
theorem incomplete_of_cut {P : Postcard} {f : Frame} {w p q : Bytes} (h : writeFrame P f = .ok w)
    (hw : w = p ++ q) (hq : q ≠ []) : Incomplete p := by
  obtain ⟨b, hb, hlen, rfl⟩ := writeFrame_ok h
  by_cases h4 : p.length < 4
  · exact Or.inl h4
  · have hd : declaredLen p = b.length := by
      rw [← declaredLen_append q (by omega), ← hw]
      simpa using declaredLen_wire [] hlen
    have hl := congrArg List.length hw
    have hq' := List.length_pos_iff.mpr hq
    simp only [List.length_append, length_toBeBytes] at hl
    exact Or.inr ⟨by omega, by omega, by omega⟩

/-- No frame comes out of bytes that are never more than a part of one, whatever the reads meet. -/
theorem drain_incomplete (P : Postcard) {p : Bytes} (hinc : ∀ b, b <+: p → Incomplete b) (f : Frame) :
    ∀ (n : ℕ) (r : FrameReader) (evs : List ReadEvent), WF r → r.buf ++ incoming evs <+: p →
      .ok (some f) ∉ drain P n r evs
  | 0, _, _, _, _ => by simp [drain]
  | n + 1, r, evs, hr, hp => by
    obtain ⟨hwf, h⟩ := next_spec P evs r hr
    generalize h1 : next P r evs = out at hwf h
    obtain ⟨o, r1, evs1⟩ := out
    simp only at hwf h
    rcases h with ⟨rfl, hb, -, -⟩ | ⟨res, rfl, hb, -, -⟩ | ⟨e, rfl, -⟩
    · rw [drain, h1]
      exact drain_incomplete P hinc f n r1 evs1 hwf (hb ▸ hp)
    · have hres : res = .ok none ∨ res = .error earlyEof := by
        by_cases hnil : r.buf ++ incoming evs = []
        · rw [hnil] at hb
          exact Or.inl (congrArg Prod.fst hb).symm
        · rw [parseOne_incomplete P hnil (hinc _ hp)] at hb
          exact Or.inr (congrArg Prod.fst hb).symm
      rcases hres with rfl | rfl
      · rw [drain, h1]; simp
      · rw [drain, h1]; simp
    · rw [drain, h1]; simp

/-- A call of `next` that ends before the script is over does not depend on what comes after. -/
theorem next_append (P : Postcard) {evs2 : List ReadEvent} : ∀ {evs : List ReadEvent} {r r1 : FrameReader}
    {o : NextOutcome} {rest : List ReadEvent}, next P r evs = (o, r1, rest) →
      (o = .cancelled ∨ ∃ f, o = .ready (.ok (some f))) → next P r (evs ++ evs2) = (o, r1, rest ++ evs2)
  | [], r, r1, o, rest, h, ho => by
    simp only [next] at h
    split at h
    · rcases ho with rfl | ⟨f, rfl⟩ <;> cases h
    · next f r2 ht =>
      cases h
      exact next_of_frame P ht evs2
    · split_ifs at h <;> rcases ho with rfl | ⟨f, rfl⟩ <;> cases h
  | ev :: evs, r, r1, o, rest, h, ho => by
    simp only [List.cons_append, next] at h ⊢
    split at h
    · next ht => cases h; rfl
    · next ht => cases h; rfl
    · cases ev with
      | data c => exact next_append P h ho
      | cancel => cases h; rfl
      | fail e => cases h; rfl

theorem mem_drain_of_delivered {P : Postcard} {w : Bytes} {f : Frame} (hw : writeFrame P f = .ok w)
    {evs2 : List ReadEvent} : ∀ (n : ℕ) (r : FrameReader) (evs : List ReadEvent), WF r → NoFail evs →
      evs.length < n → w <+: r.buf ++ incoming evs → .ok (some f) ∈ drain P n r (evs ++ evs2)
  | 0, _, _, _, _, hn, _ => by omega
  | n + 1, r, evs, hr, hno, hn, ⟨rest, hrest⟩ => by
    obtain ⟨hwf, h⟩ := next_spec P evs r hr
    generalize h1 : next P r evs = out at hwf h
    obtain ⟨o, r1, evs1⟩ := out
    simp only at hwf h
    rcases h with ⟨rfl, hb, hl, hsub⟩ | ⟨res, rfl, hb, hl, hsub⟩ | ⟨e, -, hmem⟩
    · rw [drain, next_append P h1 (Or.inl rfl)]
      exact mem_drain_of_delivered hw n r1 evs1 hwf (hno.mono hsub) (by omega) ⟨rest, by rw [hrest, hb]⟩
    · rw [← hrest, parseOne_wire hw] at hb
      obtain rfl : .ok (some f) = res := congrArg Prod.fst hb
      rw [drain, next_append P h1 (Or.inr ⟨_, rfl⟩)]
      exact List.mem_cons_self
    · exact absurd hmem (hno e)

/-- The complete frames at the front of a stream come first, in order. -/
theorem drain_wire (P : Postcard) {fs : List Frame} {ws tail : Bytes} (hws : Wire P fs ws) :
    ∀ (n : ℕ) (r : FrameReader) (evs : List ReadEvent), WF r → NoFail evs →
      evs.length + fs.length < n → r.buf ++ incoming evs = ws ++ tail →
      ∃ n1 r1 evs1, WF r1 ∧ NoFail evs1 ∧ r1.buf ++ incoming evs1 = tail ∧ evs1.length < n1 ∧
        drain P n r evs = fs.map (fun f => .ok (some f)) ++ drain P n1 r1 evs1 := by
  induction hws with
  | nil =>
    intro n r evs hr hno hn hb
    exact ⟨n, r, evs, hr, hno, hb, by simpa using hn, rfl⟩
  | @cons f fs w ws hw hws ih =>
    intro n r evs hr hno hn hb
    simp only [List.length_cons] at hn
    obtain ⟨n1, r1, evs1, hr1, hno1, hb1, hl1, hd⟩ := drain_frame P n r evs hr hno (by omega)
      (by rw [hb, List.append_assoc]; exact parseOne_wire hw (ws ++ tail))
    obtain ⟨n2, r2, evs2, hr2, hno2, hb2, hl2, hd2⟩ := ih n1 r1 evs1 hr1 hno1 (by omega) hb1
    refine ⟨n2, r2, evs2, hr2, hno2, hb2, hl2, ?_⟩
    rw [hd, hd2]
    rfl

theorem drain_wire_last (P : Postcard) {fs : List Frame} {ws tail rest : Bytes}
    {res : Except IoError (Option Frame)} (hws : Wire P fs ws) (hres : ∀ f, res ≠ .ok (some f))
    (hp : parseOne P tail = (res, rest)) {n : ℕ} {evs : List ReadEvent} (hno : NoFail evs)
    (hn : evs.length + fs.length < n) (hb : incoming evs = ws ++ tail) :
    drain P n .new evs = fs.map (fun f => .ok (some f)) ++ [res] := by
  obtain ⟨n1, r1, evs1, hr1, hno1, hb1, hl1, hd⟩ :=
    drain_wire P hws n .new evs wf_new hno hn (by simpa [FrameReader.new] using hb)
  rw [hd, drain_last P hres n1 r1 evs1 hr1 hno1 hl1 (by rw [hb1]; exact hp)]

/-- **Frame stream round trip.** Whatever the reads the bytes arrive in and however often a pending
`next` is dropped: the frames written come out in order and then the end of the stream; a stream cut
inside a frame gives the frames before the cut and then `UnexpectedEof`; a declared length above
`MAX_FRAME` is an error as soon as the four length bytes are there: no further read, nothing decoded,
whatever bytes follow. -/
theorem frame_stream_round_trip (P : Postcard) (fs : List Frame) (ws : Bytes) (hws : Wire P fs ws)
    (evs : List ReadEvent) (hno : NoFail evs) (n : ℕ) (hn : evs.length + fs.length < n) :
    (incoming evs = ws →
      drain P n .new evs = fs.map (fun f => .ok (some f)) ++ [.ok none]) ∧
    (∀ (f : Frame) (w p q : Bytes), writeFrame P f = .ok w → w = p ++ q → p ≠ [] → q ≠ [] →
      incoming evs = ws ++ p →
      drain P n .new evs = fs.map (fun f => .ok (some f)) ++ [.error earlyEof]) ∧
    (∀ len rest : Bytes, len.length = 4 → maxFrame < fromBeBytes len →
      (incoming evs = ws ++ (len ++ rest) →
        drain P n .new evs = fs.map (fun f => .ok (some f)) ++ [.error frameTooLarge]) ∧
      ∀ later : List ReadEvent, next P ⟨len ++ rest, none⟩ later =
        (.ready (.error frameTooLarge), ⟨len ++ rest, none⟩, later)) := by
  refine ⟨fun hb => ?_, fun f w p q hw hpq hp hq hb => ?_, fun len rest hlen hmax => ⟨fun hb => ?_, ?_⟩⟩
  · have hp : parseOne P [] = (.ok none, []) := rfl
    exact drain_wire_last P hws (by simp) hp hno hn (by simpa using hb)
  · exact drain_wire_last P hws (by simp)
      (parseOne_incomplete P hp (incomplete_of_cut hw hpq hq)) hno hn hb
  · have hd := declaredLen_len rest hlen
    exact drain_wire_last P hws (by simp)
      (parseOne_tooLarge P (by simp; omega) (by omega)) hno hn hb
  · intro later
    have hd := declaredLen_len rest hlen
    refine next_of_error P ?_ later
    simp only [takeFrame]
    rw [if_neg (by simp; omega), if_pos (by omega)]

/-- A `Cancel` frame that arrives in two reads, with a `next` dropped in between. -/
theorem frame_stream_round_trip_split :
    Wire postcard [.cancel 7] [0, 0, 0, 2, 6, 7] ∧
      drain postcard 5 .new [.data ⟨[0, 0, 0], by decide, by decide⟩, .cancel,
        .data ⟨[2, 6, 7], by decide, by decide⟩] = [.ok (some (.cancel 7)), .ok none] := by
  have hw : writeFrame postcard (.cancel 7) = .ok [0, 0, 0, 2, 6, 7] := by decide
  have hwire : Wire postcard [.cancel 7] [0, 0, 0, 2, 6, 7] := Wire.cons hw Wire.nil
  refine ⟨hwire, ?_⟩
  exact (frame_stream_round_trip postcard [.cancel 7] _ hwire
    [.data ⟨[0, 0, 0], by decide, by decide⟩, .cancel, .data ⟨[2, 6, 7], by decide, by decide⟩]
    (by intro e he; simp at he) 5 (by decide)).1 rfl

end HomeLlmGateway.Proto.Io
