import HomeLlmGateway.Lib.ByteCodec

/-! # Tunnel frames

The frames that gateway and agent exchange over QUIC streams (`proto/src/frame.rs`), and the postcard
encoding of them. The gateway relies on postcard only through `Postcard`: what `to_allocvec` writes,
`from_bytes` reads back. `postcard` is the documented format (variant number and integers in base 128,
length-prefixed strings, sequences and byte strings), and it has that property. -/

namespace HomeLlmGateway.Proto.Frames

open HomeLlmGateway.Lib.ByteCodec

/-- The most bytes one `ProxyResponseBody` may carry. -/
def maxResponseChunk : ℕ := 64 * 1024

/-- A header list, as frames carry it. -/
abbrev Headers := List (String × String)

/-- A tunnel frame. -/
inductive Frame where
  | register (agentId : String) (models : List String) (maxConcurrency : UInt32) (version : String)
  | heartbeat (agentId : String) (inflight : UInt32)
  | proxyRequest (requestId : UInt64) (method path : String) (headers : Headers) (body : Bytes)
  | proxyResponseHead (requestId : UInt64) (status : UInt16) (headers : Headers)
  | proxyResponseBody (requestId : UInt64) (chunk : Bytes)
  | proxyResponseEnd (requestId : UInt64) (ok : Bool)
  | cancel (requestId : UInt64)
  | error (requestId : Option UInt64) (code : UInt16) (message : String)
  | registerWithTenant (agentId tenantId agentToken : String) (models : List String)
      (maxConcurrency : UInt32) (version : String)
  deriving DecidableEq

/-- What the gateway uses of the `postcard` crate. -/
structure Postcard where
  toAllocvec : Frame → Except String Bytes
  fromBytes : Bytes → Except String Frame
  fromBytes_toAllocvec : ∀ {f : Frame} {b : Bytes}, toAllocvec f = .ok b → fromBytes b = .ok f

/-! ### The format -/

open Codec

/-- A header: name and value. -/
def header : Codec (String × String) := string.prod string

/-- The variant number. -/
def tag : Codec ℕ := nat32

/-- The fields of the variants, in the order of their declaration. -/
def registerFields : Codec (String × List String × UInt32 × String) :=
  string.prod ((list string).prod (u32.prod string))

@[inherit_doc registerFields]
def heartbeatFields : Codec (String × UInt32) := string.prod u32

@[inherit_doc registerFields]
def proxyRequestFields : Codec (UInt64 × String × String × Headers × Bytes) :=
  u64.prod (string.prod (string.prod ((list header).prod bytes)))

@[inherit_doc registerFields]
def proxyResponseHeadFields : Codec (UInt64 × UInt16 × Headers) := u64.prod (u16.prod (list header))

@[inherit_doc registerFields]
def proxyResponseBodyFields : Codec (UInt64 × Bytes) := u64.prod bytes

@[inherit_doc registerFields]
def proxyResponseEndFields : Codec (UInt64 × Bool) := u64.prod bool

@[inherit_doc registerFields]
def errorFields : Codec (Option UInt64 × UInt16 × String) := (option u64).prod (u16.prod string)

@[inherit_doc registerFields]
def registerWithTenantFields : Codec (String × String × String × List String × UInt32 × String) :=
  string.prod (string.prod (string.prod ((list string).prod (u32.prod string))))

/-- A variant number and the fields after it. -/
def tagged (t : ℕ) (fields : Option Bytes) : Option Bytes :=
  (tag.enc t).bind fun x => fields.map fun y => x ++ y

/-- The encoding of a frame. -/
def encFrame : Frame → Option Bytes
  | .register a m c v => tagged 0 (registerFields.enc (a, m, c, v))
  | .heartbeat a i => tagged 1 (heartbeatFields.enc (a, i))
  | .proxyRequest r m p h b => tagged 2 (proxyRequestFields.enc (r, m, p, h, b))
  | .proxyResponseHead r s h => tagged 3 (proxyResponseHeadFields.enc (r, s, h))
  | .proxyResponseBody r c => tagged 4 (proxyResponseBodyFields.enc (r, c))
  | .proxyResponseEnd r ok => tagged 5 (proxyResponseEndFields.enc (r, ok))
  | .cancel r => tagged 6 (u64.enc r)
  | .error r c m => tagged 7 (errorFields.enc (r, c, m))
  | .registerWithTenant a t k m c v => tagged 8 (registerWithTenantFields.enc (a, t, k, m, c, v))

/-- Read the fields of the variant `t`. -/
def decFields (t : ℕ) (bs : Bytes) : Option (Frame × Bytes) :=
  match t with
  | 0 => (registerFields.dec bs).map fun ((a, m, c, v), r) => (.register a m c v, r)
  | 1 => (heartbeatFields.dec bs).map fun ((a, i), r) => (.heartbeat a i, r)
  | 2 => (proxyRequestFields.dec bs).map fun ((q, m, p, h, b), r) => (.proxyRequest q m p h b, r)
  | 3 => (proxyResponseHeadFields.dec bs).map fun ((q, s, h), r) => (.proxyResponseHead q s h, r)
  | 4 => (proxyResponseBodyFields.dec bs).map fun ((q, c), r) => (.proxyResponseBody q c, r)
  | 5 => (proxyResponseEndFields.dec bs).map fun ((q, ok), r) => (.proxyResponseEnd q ok, r)
  | 6 => (u64.dec bs).map fun (q, r) => (.cancel q, r)
  | 7 => (errorFields.dec bs).map fun ((q, c, m), r) => (.error q c m, r)
  | 8 => (registerWithTenantFields.dec bs).map fun ((a, t, k, m, c, v), r) =>
      (.registerWithTenant a t k m c v, r)
  | _ => none

theorem tagged_eq_some {t : ℕ} {fields : Option Bytes} {b : Bytes} (h : tagged t fields = some b) :
    ∃ x y, tag.enc t = some x ∧ fields = some y ∧ b = x ++ y := by
  simp only [tagged, Option.bind_eq_some_iff, Option.map_eq_some_iff] at h
  obtain ⟨x, hx, y, hy, rfl⟩ := h
  exact ⟨x, y, hx, hy, rfl⟩

/-- Frames, self-delimiting. -/
def frame : Codec Frame where
  enc := encFrame
  dec bs := (tag.dec bs).bind fun p => decFields p.1 p.2
  dec_enc := by
    intro f b rest h
    cases f <;>
    · obtain ⟨x, y, hx, hy, rfl⟩ := tagged_eq_some h
      rw [List.append_assoc, tag.dec_enc _ hx]
      simp only [Option.bind_some, decFields]
      rw [Codec.dec_enc _ rest hy]
      rfl

/-- The `postcard` crate on frames. `from_bytes` does not look at bytes after the value. -/
def postcard : Postcard where
  toAllocvec f := match frame.enc f with
    | some b => .ok b
    | none => .error "SerializeBufferFull"
  fromBytes bs := match frame.dec bs with
    | some p => .ok p.1
    | none => .error "DeserializeUnexpectedEnd"
  fromBytes_toAllocvec := by
    intro f b h
    split at h
    · next x hx =>
      cases h
      have hd := frame.dec_enc [] hx
      rw [List.append_nil] at hd
      simp only [hd]
    · cases h

end HomeLlmGateway.Proto.Frames
