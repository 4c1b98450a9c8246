import HomeLlmGateway.Lib.Decimal
import HomeLlmGateway.Lib.Runs
import HomeLlmGateway.Proto.HeaderText

/-! # Request ids

The number of a request (`gateway/src/request_id.rs`), and how it gets from `request_id_middleware`
(`gateway/src/http/observability.rs`) into the frame for the agent (`prepare` in
`gateway/src/proxy/prepare.rs`). The middleware takes the number that the client has chosen, or draws one of
the counter, and writes it into the headers of the request; `prepare` reads it there. Between the two there
may be any number of steps of other requests (`ids_agree`). -/

namespace HomeLlmGateway.Http.RequestId

open HomeLlmGateway.Lib.Runs HomeLlmGateway.Lib.Assoc HomeLlmGateway.Lib.Decimal
open HomeLlmGateway.Proto.Http

/-! ### The code -/

/-- What comes before the number. -/
def idStart : List Char := "req-".toList

/-- `parse`: the shape `req-<u64>`. -/
def parse (inbound : String) : Option UInt64 :=
  if idStart.isPrefixOf inbound.toList then
    (readUnsigned (2 ^ 64) (inbound.toList.drop idStart.length)).map UInt64.ofNat
  else none

/-- `tunnel_id` with the counter: the counter after it, and the id. -/
def tunnelId (next : UInt64) (inbound : Option String) : UInt64 × UInt64 :=
  match inbound.bind parse with
  | some id => (next, id)
  | none => (next + 1, next)

/-- `format`. -/
def format (id : UInt64) : String := String.ofList (idStart ++ printNat id.toNat)

/-- The header `x-request-id`. -/
def xRequestId : HeaderName := ⟨"x-request-id", by decide⟩

/-- The text of the header, if it has one: of the first value, and visible. -/
def inboundId (headers : HeaderMap) : Option String := (getAll headers xRequestId).head?.bind HeaderValue.toStr

/-- `tunnel_id_from_headers`. -/
def tunnelIdFromHeaders (next : UInt64) (headers : HeaderMap) : UInt64 × UInt64 :=
  tunnelId next (inboundId headers)

/-- What `request_id_middleware` makes of a request: the id of its log lines, the headers that the inner service
gets, and the id that the response shows. -/
structure Labelled where
  requestId : String
  headers : HeaderMap
  echo : Option HeaderValue

/-- `request_id_middleware`, where it does not leave the request alone: what it makes of the request with its
id. -/
def labelledWith (headers : HeaderMap) (id : UInt64) : Labelled :=
  let requestId := format id
  { requestId := requestId
    headers := match HeaderValue.fromStr requestId with
      | some v => headers.insert xRequestId [v]
      | none => headers
    echo := HeaderValue.fromStr ((inboundId headers).getD requestId) }

/-- `request_id_middleware`. -/
def requestIdMiddleware (next : UInt64) (headers : HeaderMap) : UInt64 × Labelled :=
  let (next, id) := tunnelId next (inboundId headers)
  (next, labelledWith headers id)

example : (["req-42", "req-007", "req-+7", "REQ-42", "req-", "req--1", "42", "req-18446744073709551616"].map
    parse) = [some 42, some 7, some 7, none, none, none, none, none] := by decide +kernel

/-! ### The number in the headers -/

theorem isPrefixOf_format (id : UInt64) : idStart.isPrefixOf (format id).toList = true := by
  rw [List.isPrefixOf_iff_prefix, format, String.toList_ofList]
  exact List.prefix_append _ _

theorem parse_format (id : UInt64) : parse (format id) = some id := by
  unfold parse
  rw [if_pos (isPrefixOf_format id), format, String.toList_ofList, List.drop_left,
    readUnsigned_printNat id.toNat_lt]
  simp

theorem visible_format (id : UInt64) : Visible (format id) := by
  intro c hc
  rw [format, String.toList_ofList] at hc
  rcases List.mem_append.mp hc with hstart | hdigit
  · exact List.all_eq_true.mp (by decide : idStart.all visibleChar = true) c hstart
  · have hd := isDigit_of_mem_printNat hdigit
    simp only [Char.isDigit, Bool.and_eq_true, decide_eq_true_eq] at hd
    have hlo : (48 : UInt32).toNat ≤ c.val.toNat := UInt32.le_iff_toNat_le.mp hd.1
    have hhi : c.val.toNat ≤ (57 : UInt32).toNat := UInt32.le_iff_toNat_le.mp hd.2
    have h48 : (48 : UInt32).toNat = 48 := rfl
    have h57 : (57 : UInt32).toNat = 57 := rfl
    refine visibleChar_iff.mpr ⟨?_, ?_⟩
    · show 32 ≤ c.val.toNat
      omega
    · show c.val.toNat < 127
      omega

/-- The header that the middleware writes is the one that is read behind it. -/
theorem inboundId_labelledWith (headers : HeaderMap) (id : UInt64) :
    inboundId (labelledWith headers id).headers = some (format id) := by
  obtain ⟨v, hv, hshow⟩ := fromStr_of_visible (visible_format id)
  unfold labelledWith inboundId
  simp only [hv]
  unfold getAll
  rw [lookup_insert, if_pos rfl]
  exact hshow

theorem tunnelIdFromHeaders_labelledWith (headers : HeaderMap) (id next : UInt64) :
    tunnelIdFromHeaders next (labelledWith headers id).headers = (next, id) := by
  unfold tunnelIdFromHeaders tunnelId
  rw [inboundId_labelledWith, Option.bind_some, parse_format]

theorem echo_labelledWith (headers : HeaderMap) (id : UInt64) :
    (labelledWith headers id).echo.bind HeaderValue.toStr = some ((inboundId headers).getD (format id)) := by
  unfold labelledWith
  simp only
  cases hin : inboundId headers with
  | none =>
    obtain ⟨v, hv, hshow⟩ := fromStr_of_visible (visible_format id)
    rw [Option.getD_none, hv]
    exact hshow
  | some text =>
    obtain ⟨v, -, hshow⟩ := Option.bind_eq_some_iff.mp hin
    rw [Option.getD_some, fromStr_of_toStr hshow]
    exact hshow

/-! ### Requests side by side -/

/-- A request: as it came, as the middleware has passed it on, and the id in its frame. -/
structure Call where
  inbound : HeaderMap
  labelled : Option Labelled
  frame : Option UInt64

structure State where
  /-- `NEXT_REQUEST_ID` -/
  next : UInt64
  calls : HashMap ℕ Call
  /-- the requests that have drawn a number, in this order -/
  drawn : List ℕ

def init : State := ⟨1, ∅, []⟩

inductive Label where
  | arrive (i : ℕ) (headers : HeaderMap)
  /-- the middleware -/
  | label (i : ℕ)
  /-- `prepare` -/
  | frame (i : ℕ)

def step (s : State) : Label → Option State
  | .arrive i headers =>
    match s.calls.lookup i with
    | none => some { s with calls := s.calls.insert i ⟨headers, none, none⟩ }
    | some _ => none
  | .label i =>
    match s.calls.lookup i with
    | some ⟨headers, none, _⟩ =>
      let (next, labelled) := requestIdMiddleware s.next headers
      some { s with
        next := next
        calls := s.calls.insert i ⟨headers, some labelled, none⟩
        drawn := if ((inboundId headers).bind parse).isNone then s.drawn ++ [i] else s.drawn }
    | _ => none
  | .frame i =>
    match s.calls.lookup i with
    | some ⟨headers, some labelled, none⟩ =>
      let (next, id) := tunnelIdFromHeaders s.next labelled.headers
      some { s with next := next, calls := s.calls.insert i ⟨headers, some labelled, some id⟩ }
    | _ => none

/-- The id is the client's own, or the number that was drawn for the request. -/
def Sourced (drawn : List ℕ) (i : ℕ) (headers : HeaderMap) (id : UInt64) : Prop :=
  (inboundId headers).bind parse = some id ∨
    ((inboundId headers).bind parse = none ∧ ∃ k, drawn[k]? = some i ∧ id = UInt64.ofNat (k + 1))

/-- What is known of a request. -/
def Known (drawn : List ℕ) (i : ℕ) (c : Call) : Prop :=
  match c.labelled with
  | none => c.frame = none ∧ i ∉ drawn
  | some l => ∃ id, l = labelledWith c.inbound id ∧ (∀ f, c.frame = some f → f = id) ∧
    Sourced drawn i c.inbound id

structure Agreed (s : State) : Prop where
  next : s.next = UInt64.ofNat (s.drawn.length + 1)
  calls : ∀ i c, s.calls.lookup i = some c → Known s.drawn i c
  drawn : ∀ i ∈ s.drawn, (s.calls.lookup i).isSome = true

theorem agreed_init : Agreed init where
  next := rfl
  calls i c hi := by cases hi
  drawn i hi := by cases hi

theorem Agreed.insert {s : State} {i : ℕ} {c : Call} (h : Agreed s) (hc : Known s.drawn i c) :
    Agreed { s with calls := s.calls.insert i c } where
  next := h.next
  calls j d hj := by
    rw [lookup_insert] at hj
    split_ifs at hj with hji
    · cases hj
      rw [hji]
      exact hc
    · exact h.calls j d hj
  drawn j hj := by
    rw [lookup_insert]
    split_ifs
    · rfl
    · exact h.drawn j hj

theorem Known.concat {drawn : List ℕ} {i j : ℕ} {c : Call} (h : Known drawn j c) (hji : j ≠ i) :
    Known (drawn ++ [i]) j c := by
  unfold Known at h ⊢
  cases hl : c.labelled with
  | none =>
    rw [hl] at h
    exact ⟨h.1, by simp [h.2, hji]⟩
  | some l =>
    rw [hl] at h
    obtain ⟨id, hlabel, hframe, hsource⟩ := h
    refine ⟨id, hlabel, hframe, ?_⟩
    rcases hsource with hown | ⟨hnone, k, hk, hid⟩
    · exact Or.inl hown
    · refine Or.inr ⟨hnone, k, ?_, hid⟩
      rw [List.getElem?_append_left (List.getElem?_eq_some_iff.mp hk).1]
      exact hk

theorem agreed_label {s : State} (h : Agreed s) (i : ℕ) (headers : HeaderMap) :
    Agreed { s with
      next := (requestIdMiddleware s.next headers).1
      calls := s.calls.insert i ⟨headers, some (requestIdMiddleware s.next headers).2, none⟩
      drawn := if ((inboundId headers).bind parse).isNone then s.drawn ++ [i] else s.drawn } := by
  unfold requestIdMiddleware tunnelId
  cases hown : (inboundId headers).bind parse with
  | some id =>
    have hknown : Known s.drawn i ⟨headers, some (labelledWith headers id), none⟩ :=
      ⟨id, rfl, fun f hf => (by cases hf), Or.inl hown⟩
    exact h.insert hknown
  | none =>
    refine ⟨?_, fun j d hj => ?_, fun j hj => ?_⟩
    · show s.next + 1 = UInt64.ofNat ((s.drawn ++ [i]).length + 1)
      rw [h.next, List.length_append, List.length_singleton, UInt64.ofNat_add (s.drawn.length + 1) 1]
      rfl
    · show Known (s.drawn ++ [i]) j d
      rw [lookup_insert] at hj
      split_ifs at hj with hji
      · cases hj
        rw [hji]
        refine ⟨s.next, rfl, fun f hf => (by cases hf), Or.inr ⟨hown, s.drawn.length, by simp, h.next⟩⟩
      · exact (h.calls j d hj).concat hji
    · show ((s.calls.insert i _).lookup j).isSome = true
      rw [lookup_insert]
      split_ifs with hji
      · rfl
      · have hj' : j ∈ s.drawn ++ [i] := hj
        simp only [List.mem_append, List.mem_singleton, hji, or_false] at hj'
        exact h.drawn j hj'

theorem agreed_step {s s' : State} {l : Label} (h : Agreed s) (hstep : step s l = some s') : Agreed s' := by
  cases l with
  | arrive i headers =>
    simp only [step] at hstep
    split at hstep
    · next hi =>
      cases hstep
      refine h.insert ⟨rfl, fun hd => ?_⟩
      have hsome := h.drawn i hd
      rw [hi] at hsome
      cases hsome
    · cases hstep
  | label i =>
    simp only [step] at hstep
    split at hstep
    · cases hstep
      exact agreed_label h i _
    · cases hstep
  | frame i =>
    simp only [step] at hstep
    split at hstep
    · next headers labelled hi =>
      cases hstep
      obtain ⟨id, hlabel, -, hsource⟩ := h.calls i _ hi
      have hl : labelled = labelledWith headers id := hlabel
      rw [hl, tunnelIdFromHeaders_labelledWith]
      exact h.insert ⟨id, rfl, fun f hf => (Option.some.inj hf).symm, hsource⟩
    · cases hstep

/-- Of fewer than `2 ^ 64` numbers no two are the same. -/
theorem eq_of_drawn {s : State} (hlen : s.drawn.length < 2 ^ 64) {i i' : ℕ} {c c' : Call} {id : UInt64}
    (h : Sourced s.drawn i c.inbound id) (h' : Sourced s.drawn i' c'.inbound id)
    (hnone : (inboundId c.inbound).bind parse = none) (hnone' : (inboundId c'.inbound).bind parse = none) :
    i = i' := by
  rcases h with hown | ⟨-, j, hj, hid⟩
  · rw [hnone] at hown
    cases hown
  rcases h' with hown' | ⟨-, k, hk, hid'⟩
  · rw [hnone'] at hown'
    cases hown'
  have hjlt := (List.getElem?_eq_some_iff.mp hj).1
  have hklt := (List.getElem?_eq_some_iff.mp hk).1
  have hnat := congrArg UInt64.toNat (hid.symm.trans hid')
  rw [UInt64.toNat_ofNat_of_lt' (by show _ < 2 ^ 64; omega),
    UInt64.toNat_ofNat_of_lt' (by show _ < 2 ^ 64; omega)] at hnat
  have hjk : j = k := by omega
  rw [hjk, hk] at hj
  exact (Option.some.inj hj).symm

theorem format_injective : Function.Injective format := fun id id' h => by
  have hparse := congrArg parse h
  rw [parse_format, parse_format] at hparse
  exact Option.some.inj hparse

/-- **One id for a request.** In every run of requests side by side, the id in the frame of a request is the
one in its log lines, and the response shows the client its own text, or this id. It is the number that the
client has asked for, if it has, and otherwise one drawn for this request; no two requests are given the same
of these. -/
theorem ids_agree (s : State) (h : Reaches step init s) :
    (∀ i c l, s.calls.lookup i = some c → c.labelled = some l → ∃ id,
      l.requestId = format id ∧ (∀ f, c.frame = some f → f = id) ∧
      l.echo.bind HeaderValue.toStr = some ((inboundId c.inbound).getD (format id)) ∧
      ∀ own, (inboundId c.inbound).bind parse = some own → id = own) ∧
    (s.drawn.length < 2 ^ 64 → ∀ i i' c c' l l', s.calls.lookup i = some c → s.calls.lookup i' = some c' →
      c.labelled = some l → c'.labelled = some l' → (inboundId c.inbound).bind parse = none →
      (inboundId c'.inbound).bind parse = none → l.requestId = l'.requestId → i = i') := by
  have hagreed : Agreed s := run_invariant (fun _ _ _ => agreed_step) agreed_init h
  have hknown : ∀ i c l, s.calls.lookup i = some c → c.labelled = some l → ∃ id,
      l = labelledWith c.inbound id ∧ (∀ f, c.frame = some f → f = id) ∧ Sourced s.drawn i c.inbound id := by
    intro i c l hi hl
    have hk := hagreed.calls i c hi
    unfold Known at hk
    rw [hl] at hk
    exact hk
  constructor
  · intro i c l hi hl
    obtain ⟨id, rfl, hframe, hsource⟩ := hknown i c l hi hl
    refine ⟨id, rfl, hframe, echo_labelledWith c.inbound id, fun own hown => ?_⟩
    rcases hsource with h' | ⟨hnone, -⟩
    · rw [hown] at h'
      exact (Option.some.inj h').symm
    · rw [hown] at hnone
      cases hnone
  · intro hlen i i' c c' l l' hi hi' hl hl' hnone hnone' heq
    obtain ⟨id, rfl, -, hsource⟩ := hknown i c l hi hl
    obtain ⟨id', rfl, -, hsource'⟩ := hknown i' c' l' hi' hl'
    have hid : id = id' := format_injective heq
    rw [← hid] at hsource'
    exact eq_of_drawn hlen hsource hsource' hnone hnone'

/-- A client with the number 42, and one with a text that is none. -/
def twoClients : List Label :=
  [.arrive 0 (ofList [(xRequestId, ⟨"req-42".toUTF8.data.toList, List.all_eq_true.mp (by decide +kernel)⟩)]),
    .arrive 1 (ofList [(xRequestId,
      ⟨"0197f1c2".toUTF8.data.toList, List.all_eq_true.mp (by decide +kernel)⟩)]),
    .label 0, .label 1, .frame 1, .frame 0]

theorem ids_agree_two : ∃ s, run step init twoClients = some s ∧ s.drawn = [1] ∧
    ∀ i c l, s.calls.lookup i = some c → c.labelled = some l → ∃ id,
      l.requestId = format id ∧ ∀ f, c.frame = some f → f = id := by
  obtain ⟨s, hs, hd⟩ := exists_run step init twoClients (fun s => s.drawn = [1]) (by decide +kernel)
  refine ⟨s, hs, hd, fun i c l hi hl => ?_⟩
  obtain ⟨id, hid, hframe, -⟩ := (ids_agree s ⟨_, hs⟩).1 i c l hi hl
  exact ⟨id, hid, hframe⟩

end HomeLlmGateway.Http.RequestId
