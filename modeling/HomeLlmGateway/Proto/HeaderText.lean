import HomeLlmGateway.Proto.Http

/-! # Texts as header values

A text of visible ASCII is a header value, and is read from it again. -/

namespace HomeLlmGateway.Proto.Http

open HomeLlmGateway.Lib.ByteCodec.Codec

/-- A character that may stand in a header and that `to_str` shows. -/
def visibleChar (c : Char) : Bool := 32 ≤ c.toNat && c.toNat < 127

/-- A text of such characters. -/
def Visible (s : String) : Prop := ∀ c ∈ s.toList, visibleChar c = true

theorem visibleChar_iff {c : Char} : visibleChar c = true ↔ 32 ≤ c.toNat ∧ c.toNat < 127 := by
  simp [visibleChar]

theorem utf8EncodeChar_of_visible {c : Char} (h : visibleChar c = true) :
    String.utf8EncodeChar c = [UInt8.ofNat c.toNat] := by
  obtain ⟨-, hlt⟩ := visibleChar_iff.mp h
  have hval : c.val.toNat < 127 := hlt
  have hsize : c.utf8Size = 1 := by
    rw [Char.utf8Size_eq_one_iff, UInt32.le_iff_toNat_le]
    have hmax : (127 : UInt32).toNat = 127 := rfl
    omega
  rw [String.utf8EncodeChar_eq_singleton hsize]
  congr 1

theorem utf8_visible {s : String} (h : Visible s) : utf8 s = s.toList.map fun c => UInt8.ofNat c.toNat := by
  have hlist : ∀ l : List Char, (∀ c ∈ l, visibleChar c = true) →
      l.flatMap String.utf8EncodeChar = l.map fun c => UInt8.ofNat c.toNat := by
    intro l
    induction l with
    | nil => intro _; rfl
    | cons c l ih =>
      intro hl
      rw [List.flatMap_cons, utf8EncodeChar_of_visible (hl c (by simp)), ih fun d hd => hl d (by simp [hd])]
      rfl
  have hutf8 := utf8_ofList s.toList
  rw [String.ofList_toList, hlist s.toList h] at hutf8
  exact hutf8

theorem visibleByte_of_visible {c : Char} (h : visibleChar c = true) :
    visibleByte (UInt8.ofNat c.toNat) = true ∧ valueByte (UInt8.ofNat c.toNat) = true := by
  obtain ⟨hle, hlt⟩ := visibleChar_iff.mp h
  have hnat : (UInt8.ofNat c.toNat).toNat = c.toNat := UInt8.toNat_ofNat_of_lt' (by show _ < 256; omega)
  have h32 : 32 ≤ UInt8.ofNat c.toNat := by
    rw [UInt8.le_iff_toNat_le, hnat]
    exact hle
  have h127 : UInt8.ofNat c.toNat < 127 := by
    rw [UInt8.lt_iff_toNat_lt, hnat]
    exact hlt
  have hne : UInt8.ofNat c.toNat ≠ 127 := fun he => by
    rw [he] at h127
    exact absurd h127 (by decide)
  constructor
  · simp [visibleByte, h32, h127]
  · simp [valueByte, h32, hne]

theorem fromStr_of_visible {s : String} (h : Visible s) :
    ∃ v, HeaderValue.fromStr s = some v ∧ v.toStr = some s := by
  have hbytes := utf8_visible h
  have hvalue : (utf8 s).all valueByte = true := by
    rw [hbytes, List.all_map, List.all_eq_true]
    exact fun c hc => (visibleByte_of_visible (h c hc)).2
  have hvisible : (utf8 s).all visibleByte = true := by
    rw [hbytes, List.all_map, List.all_eq_true]
    exact fun c hc => (visibleByte_of_visible (h c hc)).1
  refine ⟨⟨utf8 s, List.all_eq_true.mp hvalue⟩, ?_, ?_⟩
  · unfold HeaderValue.fromStr
    rw [dif_pos hvalue]
  · unfold HeaderValue.toStr
    rw [if_pos hvisible]
    exact ofUtf8_utf8 s

theorem fromStr_of_toStr {v : HeaderValue} {s : String} (h : v.toStr = some s) :
    HeaderValue.fromStr s = some v := by
  unfold HeaderValue.toStr at h
  split_ifs at h with hall
  exact HeaderValue.fromStr_of_asUtf8 h

end HomeLlmGateway.Proto.Http
