import Mathlib.Data.List.Basic
import Mathlib.Tactic

/-! # Bytes, numbers and self-delimiting codecs

A byte string is a list of bytes. Two number formats: the four big-endian bytes of a `u32`, and the
little-endian base-128 format (seven bits a byte, the top bit set on all bytes but the last).

A `Codec` writes a value and reads it back from the front of any longer input; that the reader undoes
the writer is a field, so the combinators (pairs, length-prefixed lists and strings, options) cannot
lose it. Writing may fail: a length that does not fit the length field has no encoding. -/

namespace HomeLlmGateway.Lib.ByteCodec

/-- A byte string. -/
abbrev Bytes := List UInt8

/-- The four big-endian bytes of `n` (of `n` modulo `2 ^ 32`). -/
def toBeBytes (n : ℕ) : Bytes :=
  [UInt8.ofNat (n / 2 ^ 24), UInt8.ofNat (n / 2 ^ 16), UInt8.ofNat (n / 2 ^ 8), UInt8.ofNat n]

/-- The number whose big-endian bytes are `bs`. -/
def fromBeBytes (bs : Bytes) : ℕ := bs.foldl (fun n b => n * 256 + b.toNat) 0

@[simp] theorem length_toBeBytes (n : ℕ) : (toBeBytes n).length = 4 := rfl

theorem fromBeBytes_toBeBytes (n : ℕ) (h : n < 2 ^ 32) : fromBeBytes (toBeBytes n) = n := by
  simp only [fromBeBytes, toBeBytes, List.foldl_cons, List.foldl_nil, UInt8.toNat_ofNat']
  omega

/-! ### Base-128 numbers -/

/-- The base-128 bytes of `n`, at most `fuel` of them. -/
def varintAux : ℕ → ℕ → Bytes
  | 0, _ => []
  | fuel + 1, n =>
    if n < 128 then [UInt8.ofNat n] else UInt8.ofNat (n % 128 + 128) :: varintAux fuel (n / 128)

/-- The base-128 bytes of a number below `2 ^ 64`. -/
def varint (n : ℕ) : Bytes := varintAux 10 n

/-- Read at most `fuel` base-128 bytes; `none` if the input or the bytes allowed run out. -/
def readVarintAux : ℕ → Bytes → Option (ℕ × Bytes)
  | 0, _ => none
  | _ + 1, [] => none
  | fuel + 1, b :: bs =>
    if b.toNat < 128 then some (b.toNat, bs)
    else (readVarintAux fuel bs).map fun p => (b.toNat - 128 + 128 * p.1, p.2)

/-- Read a number of at most `fuel` bytes that is below `bound`. -/
def readVarint (fuel bound : ℕ) (bs : Bytes) : Option (ℕ × Bytes) :=
  (readVarintAux fuel bs).filter fun p => p.1 < bound

theorem readVarintAux_varintAux : ∀ (fuel k n : ℕ) (rest : Bytes), n < 128 ^ k → k ≤ fuel → 0 < k →
    readVarintAux k (varintAux fuel n ++ rest) = some (n, rest)
  | 0, k, n, rest, _, hk, hpos => by omega
  | fuel + 1, 0, n, rest, _, _, hpos => by omega
  | fuel + 1, k + 1, n, rest, hn, hk, _ => by
    unfold varintAux
    split_ifs with h
    · have hb : (UInt8.ofNat n).toNat = n := by rw [UInt8.toNat_ofNat']; omega
      simp [readVarintAux, hb, h]
    · have hb : (UInt8.ofNat (n % 128 + 128)).toNat = n % 128 + 128 := by
        rw [UInt8.toNat_ofNat']; omega
      have hk0 : 0 < k := by
        rcases Nat.eq_zero_or_pos k with rfl | hk0
        · simp at hn; omega
        · exact hk0
      have hdiv : n / 128 < 128 ^ k := by
        rw [Nat.div_lt_iff_lt_mul (by omega)]
        calc n < 128 ^ (k + 1) := hn
          _ = 128 ^ k * 128 := Nat.pow_succ _ _
      have ih := readVarintAux_varintAux fuel k (n / 128) rest hdiv (by omega) hk0
      have hval : n % 128 + 128 - 128 + 128 * (n / 128) = n := by omega
      rw [List.cons_append, readVarintAux, if_neg (by omega), ih, hb]
      simp only [Option.map_some, hval]

/-- **The reader undoes the writer** and leaves what follows. -/
theorem readVarint_varint {fuel bound n : ℕ} (rest : Bytes) (hn : n < bound) (hb : bound ≤ 128 ^ fuel)
    (hf : fuel ≤ 10) (hpos : 0 < fuel) : readVarint fuel bound (varint n ++ rest) = some (n, rest) := by
  unfold readVarint varint
  rw [readVarintAux_varintAux 10 fuel n rest (lt_of_lt_of_le hn hb) hf hpos]
  simp [hn]

theorem length_varintAux_le : ∀ fuel n : ℕ, (varintAux fuel n).length ≤ fuel
  | 0, _ => Nat.le_refl 0
  | fuel + 1, n => by
    unfold varintAux
    split_ifs
    · simp
    · simpa using length_varintAux_le fuel (n / 128)

theorem length_varint_le (n : ℕ) : (varint n).length ≤ 10 := length_varintAux_le 10 n

/-! ### Codecs -/

/-- A self-delimiting encoding of `α`. -/
structure Codec (α : Type*) where
  enc : α → Option Bytes
  dec : Bytes → Option (α × Bytes)
  dec_enc : ∀ {a : α} {b : Bytes} (rest : Bytes), enc a = some b → dec (b ++ rest) = some (a, rest)

namespace Codec

variable {α β : Type*}

/-- A number below `bound`, in at most `fuel` base-128 bytes. -/
def nat (fuel bound : ℕ) (hb : bound ≤ 128 ^ fuel) (hf : fuel ≤ 10) (hpos : 0 < fuel) : Codec ℕ where
  enc n := if n < bound then some (varint n) else none
  dec := readVarint fuel bound
  dec_enc := by
    intro n b rest h
    split_ifs at h with hn
    cases h
    exact readVarint_varint rest hn hb hf hpos

/-- A codec for `β` from one for `α`, if `β` embeds in `α`. -/
def ofEmbedding (f : α → β) (g : β → α) (h : ∀ b, f (g b) = b) (c : Codec α) : Codec β where
  enc b := c.enc (g b)
  dec bs := (c.dec bs).map fun p => (f p.1, p.2)
  dec_enc := by
    intro b bs rest hb
    rw [c.dec_enc rest hb]
    simp [h]

/-- A number of 32 bits. -/
def nat32 : Codec ℕ := nat 5 (2 ^ 32) (by norm_num) (by norm_num) (by norm_num)

/-- `u16`, `u32`, `u64` and a length. -/
def u16 : Codec UInt16 :=
  ofEmbedding UInt16.ofNat UInt16.toNat (fun _ => UInt16.ofNat_toNat)
    (nat 3 (2 ^ 16) (by norm_num) (by norm_num) (by norm_num))

@[inherit_doc u16]
def u32 : Codec UInt32 :=
  ofEmbedding UInt32.ofNat UInt32.toNat (fun _ => UInt32.ofNat_toNat) nat32

@[inherit_doc u16]
def u64 : Codec UInt64 :=
  ofEmbedding UInt64.ofNat UInt64.toNat (fun _ => UInt64.ofNat_toNat)
    (nat 10 (2 ^ 64) (by norm_num) (by norm_num) (by norm_num))

@[inherit_doc u16]
def len : Codec ℕ := nat 10 (2 ^ 64) (by norm_num) (by norm_num) (by norm_num)

/-- One byte, `0` or `1`. -/
def bool : Codec Bool where
  enc b := some [if b then 1 else 0]
  dec
    | 0 :: bs => some (false, bs)
    | 1 :: bs => some (true, bs)
    | _ => none
  dec_enc := by
    rintro (_ | _) b rest h <;> cases h <;> rfl

/-- One value after the other. -/
def prod (c : Codec α) (d : Codec β) : Codec (α × β) where
  enc p := (c.enc p.1).bind fun x => (d.enc p.2).map fun y => x ++ y
  dec bs := (c.dec bs).bind fun p => (d.dec p.2).map fun q => ((p.1, q.1), q.2)
  dec_enc := by
    rintro ⟨a, b⟩ bs rest h
    simp only [Option.bind_eq_some_iff, Option.map_eq_some_iff] at h
    obtain ⟨x, hx, y, hy, rfl⟩ := h
    rw [List.append_assoc, c.dec_enc _ hx]
    simp [d.dec_enc rest hy]

/-- A value or nothing. -/
def option (c : Codec α) : Codec (Option α) where
  enc
    | none => some [0]
    | some a => (c.enc a).map fun x => 1 :: x
  dec
    | 0 :: bs => some (none, bs)
    | 1 :: bs => (c.dec bs).map fun p => (some p.1, p.2)
    | _ => none
  dec_enc := by
    rintro (_ | a) bs rest h
    · cases h; rfl
    · simp only [Option.map_eq_some_iff] at h
      obtain ⟨x, hx, rfl⟩ := h
      simp [c.dec_enc rest hx]

/-- The length, then the bytes. -/
def bytes : Codec Bytes where
  enc bs := (len.enc bs.length).map fun x => x ++ bs
  dec bs := (len.dec bs).bind fun p =>
    if p.2.length < p.1 then none else some (p.2.take p.1, p.2.drop p.1)
  dec_enc := by
    intro bs b rest h
    simp only [Option.map_eq_some_iff] at h
    obtain ⟨x, hx, rfl⟩ := h
    rw [List.append_assoc, len.dec_enc _ hx]
    simp

/-- The bytes of a string. -/
def utf8 (s : String) : Bytes := s.toUTF8.data.toList

theorem utf8_ofList (l : List Char) : utf8 (String.ofList l) = l.flatMap String.utf8EncodeChar := by
  unfold utf8
  simp [String.toUTF8, List.utf8Encode]

/-- The string with these bytes, if they are valid UTF-8. -/
def ofUtf8 (bs : Bytes) : Option String := String.fromUTF8? ⟨bs.toArray⟩

theorem ofUtf8_utf8 (s : String) : ofUtf8 (utf8 s) = some s := by
  have h : (⟨(utf8 s).toArray⟩ : ByteArray) = s.toByteArray := rfl
  unfold ofUtf8
  rw [h, String.fromUTF8?, dif_pos s.isValidUTF8]
  rfl

/-- The length in bytes, then the UTF-8 bytes. -/
def string : Codec String where
  enc s := bytes.enc (utf8 s)
  dec bs := (bytes.dec bs).bind fun p => (ofUtf8 p.1).map fun s => (s, p.2)
  dec_enc := by
    intro s b rest h
    rw [bytes.dec_enc rest h]
    simp [ofUtf8_utf8]

/-- The elements, without a length. -/
def encAll (c : Codec α) : List α → Option Bytes
  | [] => some []
  | a :: as => (c.enc a).bind fun x => (encAll c as).map fun y => x ++ y

/-- Read `n` elements. -/
def decAll (c : Codec α) : ℕ → Bytes → Option (List α × Bytes)
  | 0, bs => some ([], bs)
  | n + 1, bs => (c.dec bs).bind fun p => (decAll c n p.2).map fun q => (p.1 :: q.1, q.2)

theorem decAll_encAll (c : Codec α) : ∀ (as : List α) (b rest : Bytes), encAll c as = some b →
    decAll c as.length (b ++ rest) = some (as, rest)
  | [], b, rest, h => by
    cases h; rfl
  | a :: as, b, rest, h => by
    simp only [encAll, Option.bind_eq_some_iff, Option.map_eq_some_iff] at h
    obtain ⟨x, hx, y, hy, rfl⟩ := h
    rw [List.length_cons, decAll, List.append_assoc, c.dec_enc _ hx]
    simp [decAll_encAll c as y rest hy]

/-- The number of elements, then the elements. -/
def list (c : Codec α) : Codec (List α) where
  enc as := (len.enc as.length).bind fun x => (encAll c as).map fun y => x ++ y
  dec bs := (len.dec bs).bind fun p => decAll c p.1 p.2
  dec_enc := by
    intro as b rest h
    simp only [Option.bind_eq_some_iff, Option.map_eq_some_iff] at h
    obtain ⟨x, hx, y, hy, rfl⟩ := h
    rw [List.append_assoc, len.dec_enc _ hx]
    exact decAll_encAll c as y rest hy

end Codec

end HomeLlmGateway.Lib.ByteCodec
