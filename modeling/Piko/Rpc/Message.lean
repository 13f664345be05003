import Mathlib

/-! # RPC messages

The frames an RPC stream exchanges. header.go and types.go are not among the sources: the header
and its flag word are modelled from the spec's wire format (RPC type, 64-bit message ID, 16-bit
flags with bit 0 `Response` and bit 1 `ErrNotSupported`).

* `Message`: a decoded header and its payload; a frame on the connection carries exactly these.
* `Error`: the errors the stream returns; `CtxError` what `ctx.Err()` returns once `ctx` is done.
-/

namespace Piko.Rpc
set_option autoImplicit false

/-- Modelled from the spec: `rpc.Type`, a 16-bit RPC type. -/
abbrev RPCType := UInt16

/-- Modelled from the spec: the 16-bit flag word of a header. -/
structure Flags where
  bits : UInt16
  deriving DecidableEq, Repr

namespace Flags

/-- Modelled from the spec: bit 0. -/
def response (f : Flags) : Bool := f.bits &&& 1 != 0

/-- Modelled from the spec: bit 1. -/
def errNotSupported (f : Flags) : Bool := f.bits &&& 2 != 0

def setResponse (f : Flags) : Flags := ⟨f.bits ||| 1⟩

def setErrNotSupported (f : Flags) : Flags := ⟨f.bits ||| 2⟩

end Flags

/-- Modelled from the spec: the frame header. -/
structure Header where
  rpcType : RPCType
  id : UInt64
  flags : Flags
  deriving DecidableEq, Repr

abbrev Payload := List UInt8

structure Message where
  header : Header
  payload : Payload
  deriving DecidableEq, Repr

/-- What `ctx.Err()` returns once `ctx` is done. -/
inductive CtxError
  | canceled
  | deadlineExceeded
  deriving DecidableEq, Repr

/-- The errors the stream returns. -/
inductive Error
  /-- `ErrStreamClosed`. -/
  | streamClosed
  /-- `fmt.Errorf("not supported")`. -/
  | notSupported
  /-- `ctx.Err()`. -/
  | ctx (e : CtxError)
  /-- `fmt.Errorf("close conn: %w", err)`. -/
  | closeConn
  deriving DecidableEq, Repr

/-- The request message `RPC` sends: header `{RPCType, ID}` with no flag set. -/
def request (rpcType : RPCType) (id : UInt64) (req : Payload) : Message :=
  ⟨⟨rpcType, id, ⟨0⟩⟩, req⟩

/-- The response `handleRequest` sends to `m` when a handler returns `resp`. -/
def response (m : Message) (resp : Payload) : Message :=
  ⟨⟨m.header.rpcType, m.header.id, Flags.setResponse ⟨0⟩⟩, resp⟩

/-- The response `handleRequest` sends to `m` when no handler is registered for its type. -/
def notSupported (m : Message) : Message :=
  ⟨⟨m.header.rpcType, m.header.id, (Flags.setResponse ⟨0⟩).setErrNotSupported⟩, []⟩

@[simp] theorem request_response (t : RPCType) (id : UInt64) (req : Payload) :
    (request t id req).header.flags.response = false := by simp only [request]; decide

@[simp] theorem response_response (m : Message) (resp : Payload) :
    (response m resp).header.flags.response = true := by simp only [response]; decide

@[simp] theorem response_errNotSupported (m : Message) (resp : Payload) :
    (response m resp).header.flags.errNotSupported = false := by simp only [response]; decide

@[simp] theorem notSupported_response (m : Message) :
    (notSupported m).header.flags.response = true := by simp only [notSupported]; decide

@[simp] theorem notSupported_errNotSupported (m : Message) :
    (notSupported m).header.flags.errNotSupported = true := by
  simp only [notSupported]; decide

end Piko.Rpc
