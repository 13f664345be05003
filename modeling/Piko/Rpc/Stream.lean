import Piko.Rpc.Message

/-! # The RPC stream

`stream` (stream.go) as a transition system: the state shared by the stream's goroutines, one
program counter per goroutine, and a step function taking one goroutine's next atomic action.
A step is one shared-state access of the code: one channel operation, one section under
`responseHandlersMu`, one atomic operation, one read or write of the connection.

* Goroutines: the callers of `RPC` (`calls`), the reader, the writer, one `handleRequest` goroutine
  per request frame (`tasks`) and the callers of `Close` (`closers`).
* `select` takes any ready case, and blocks (no step) when none is; a conn operation may fail.
* A panic is recovered by `recoverPanic` in the reader and the writer, which shut the stream down;
  one anywhere else escapes its goroutine and aborts the process (`crashed`), after which nothing
  runs.
* Ghost state, written by the steps but read by none: the frames the reader decoded (`received`),
  the origin of each message on `writeCh`, the handler runs, and how many times `shutdownCh` and
  the connection were closed.
-/

namespace Piko.Rpc
set_option autoImplicit false

/-- What a handler function does with a payload: returns the response payload, or panics. -/
inductive Outcome
  | returns (resp : Payload)
  | panics

/-- Modelled from the spec: `Handler` (handler.go), the function registered for each RPC type;
`Find` is lookup. -/
abbrev Handler := RPCType → Option (Payload → Outcome)

/-- The capacity of `writeCh`. -/
def writeChCap : Nat := 64

/-- The way a step goes where the code has a choice. -/
inductive Case
  /-- The channel case of a `select`, or a connection operation that succeeds. -/
  | proceed
  /-- The `<-s.shutdownCh` case of a `select`. -/
  | shutdown
  /-- The `<-ctx.Done()` case of a `select`. -/
  | done
  /-- A connection operation that returns an error. -/
  | fail
  deriving DecidableEq, Repr

/-- What `RPC` returns: the response payload and the error, `nil` being `none`. -/
structure Return where
  payload : Option Payload
  err : Option Error
  deriving DecidableEq, Repr

/-- Where an `RPC` call is. -/
inductive CallPc
  /-- At `s.nextMessageID.Inc()`. -/
  | inc
  /-- At `s.registerResponseHandler(header.ID, ch)`. -/
  | register
  /-- At the first `select`, sending the request to `writeCh`. -/
  | send
  /-- At the second `select`, waiting on `ch`. -/
  | await
  /-- Returning `r`, its deferred `unregisterResponseHandler` still to run. -/
  | unregister (r : Return)
  /-- Returned `r`. -/
  | returned (r : Return)
  deriving DecidableEq, Repr

/-- A goroutine in `RPC(ctx, rpcType, req)`. -/
structure Call where
  rpcType : RPCType
  req : Payload
  /-- `ctx.Err()`: `none` until `ctx` is done. -/
  ctx : Option CtxError
  /-- `header.ID`, set by `Inc`. -/
  id : UInt64
  /-- The buffer of `ch`, of capacity one. -/
  slot : Option Message
  pc : CallPc
  deriving DecidableEq, Repr

/-- Ghost: who put a message on `writeCh`, call `i` or the `handleRequest` goroutine of the
`k`-th received frame. -/
inductive Origin
  | call (i : Nat)
  | task (k : Nat)
  deriving DecidableEq, Repr

/-- A message on `writeCh`, with its origin. -/
structure Out where
  msg : Message
  origin : Origin
  deriving DecidableEq, Repr

/-- Where a goroutine is inside `closeStream`. -/
inductive ClosePc
  /-- At `s.shutdown.CompareAndSwap(false, true)`. -/
  | cas
  /-- At `s.shutdownErr = ErrStreamClosed`. -/
  | setErr
  /-- At `close(s.shutdownCh)`. -/
  | closeCh
  /-- At `s.conn.Close()`. -/
  | closeConn
  /-- Returned `err`. -/
  | ret (err : Option Error)
  deriving DecidableEq, Repr

inductive ReaderPc
  /-- At `s.conn.ReadMessage()`. -/
  | read
  /-- In `handleResponse(m)`, at `s.findResponseHandler`. -/
  | find (m : Message)
  /-- In `handleResponse(m)`, at `ch <- m`, `ch` being call `i`'s. -/
  | send (i : Nat) (m : Message)
  /-- At the `select` on `shutdownCh` that ends the loop body. -/
  | check
  /-- In `closeStream`. -/
  | closing (c : ClosePc)
  | exited
  deriving DecidableEq, Repr

/-- Where the reader is once its `closeStream` is at `c`. -/
def ClosePc.readerPc : ClosePc → ReaderPc
  | .ret _ => .exited
  | c => .closing c

inductive WriterPc
  /-- At the `select` on `writeCh` and `shutdownCh`. -/
  | select
  /-- In `s.write(o.msg)`. -/
  | write (o : Out)
  /-- In `closeStream`. -/
  | closing (c : ClosePc)
  | exited
  deriving DecidableEq, Repr

/-- Where the writer is once its `closeStream` is at `c`. -/
def ClosePc.writerPc : ClosePc → WriterPc
  | .ret _ => .exited
  | c => .closing c

/-- Whether the reader is running code where a panic can start (not blocked, not finished). -/
def ReaderPc.running : ReaderPc → Bool
  | .read | .find _ | .check => true
  | _ => false

/-- Whether the writer is running code where a panic can start. -/
def WriterPc.running : WriterPc → Bool
  | .select | .write _ => true
  | _ => false

inductive TaskPc
  /-- At `s.handler.Find` and the handler call. -/
  | find
  /-- At the `select` sending `m` to `writeCh`. -/
  | respond (m : Message)
  | exited
  deriving DecidableEq, Repr

/-- A `handleRequest(m)` goroutine; `src` is the index of `m` in `received` (ghost). -/
structure Task where
  msg : Message
  src : Nat
  pc : TaskPc
  deriving DecidableEq, Repr

inductive Goroutine
  | call (i : Nat)
  | reader
  | writer
  | task (i : Nat)
  | closer (i : Nat)
  deriving DecidableEq, Repr

/-- The stream and its goroutines. -/
structure Stream where
  handler : Handler
  nextMessageID : UInt64
  writeCh : List Out
  /-- `responseHandlers`: a message ID to the call whose `ch` it holds. -/
  responseHandlers : UInt64 → Option Nat
  /-- Whether `shutdownCh` is closed. -/
  shutdownCh : Bool
  shutdownErr : Option Error
  shutdown : Bool
  /-- The process aborted on a panic that no goroutine recovered. -/
  crashed : Bool
  calls : List Call
  reader : ReaderPc
  writer : WriterPc
  tasks : List Task
  /-- The goroutines that called `Close`, each at its `closeStream` step. -/
  closers : List ClosePc
  /-- Ghost: every frame the reader decoded, in order. -/
  received : List Message
  /-- The messages the writer wrote to the connection, in order, with their origins. -/
  written : List Out
  /-- Ghost: the index in `received` of each request a handler was run on. -/
  runs : List Nat
  /-- Ghost: how many times `close(s.shutdownCh)` ran. -/
  shutdownCloses : Nat
  /-- Ghost: how many times `s.conn.Close()` ran. -/
  connCloses : Nat

/-- `NewStream`: the reader and the writer start, nothing else runs yet. -/
def newStream (handler : Handler) : Stream where
  handler := handler
  nextMessageID := 0
  writeCh := []
  responseHandlers := fun _ => none
  shutdownCh := false
  shutdownErr := none
  shutdown := false
  crashed := false
  calls := []
  reader := .read
  writer := .select
  tasks := []
  closers := []
  received := []
  written := []
  runs := []
  shutdownCloses := 0
  connCloses := 0

namespace Stream

/-! ## Setters -/

@[simps] def setCall (s : Stream) (i : Nat) (c : Call) : Stream :=
  { s with calls := s.calls.set i c }

@[simps] def setTask (s : Stream) (i : Nat) (t : Task) : Stream :=
  { s with tasks := s.tasks.set i t }

/-- Goroutine `g` moves to `closeStream` step `c`; the reader and the writer return once
`closeStream` has. -/
@[simps] def setClosePc (s : Stream) (g : Goroutine) (c : ClosePc) : Stream :=
  { s with
    reader := if g = .reader then c.readerPc else s.reader
    writer := if g = .writer then c.writerPc else s.writer
    closers := match g with
      | .closer i => s.closers.set i c
      | _ => s.closers }

/-- Goroutine `g` panics: `recoverPanic` in the reader and the writer calls `closeStream`, a panic
anywhere else aborts the process. -/
def panicked (s : Stream) : Goroutine → Stream
  | .reader => { s with reader := .closing .cas }
  | .writer => { s with writer := .closing .cas }
  | _ => { s with crashed := true }

/-! ## `closeStream` -/

/-- One step of `closeStream` by goroutine `g` at `c`. -/
def closeStep (s : Stream) (g : Goroutine) : ClosePc → Case → Option Stream
  | .cas, _ =>
    if s.shutdown then some (s.setClosePc g (.ret (some .streamClosed)))
    else some ({ s with shutdown := true }.setClosePc g .setErr)
  | .setErr, _ => some ({ s with shutdownErr := some .streamClosed }.setClosePc g .closeCh)
  | .closeCh, _ =>
    if s.shutdownCh then some (s.panicked g)
    else some ({ s with shutdownCh := true, shutdownCloses := s.shutdownCloses + 1 }.setClosePc g
      .closeConn)
  | .closeConn, k =>
    some ({ s with connCloses := s.connCloses + 1 }.setClosePc g
      (.ret (if k = Case.fail then some .closeConn else none)))
  | .ret _, _ => none

/-! ## `RPC` -/

/-- What `RPC` returns for the message `resp` it received on `ch`. -/
def responseReturn (resp : Message) : Return :=
  if resp.header.flags.errNotSupported then ⟨none, some .notSupported⟩
  else ⟨some resp.payload, none⟩

/-- The next step of call `i`, taking case `k` at a `select`. -/
def stepCall (s : Stream) (i : Nat) (k : Case) : Option Stream := do
  let c ← s.calls[i]?
  match c.pc, k with
  | .inc, _ =>
    some ({ s with nextMessageID := s.nextMessageID + 1 }.setCall i
      { c with id := s.nextMessageID + 1, pc := .register })
  | .register, _ =>
    some ({ s with responseHandlers := Function.update s.responseHandlers c.id (some i) }.setCall i
      { c with pc := .send })
  | .send, .proceed =>
    if s.writeCh.length < writeChCap then
      some ({ s with writeCh := s.writeCh ++ [(⟨request c.rpcType c.id c.req, .call i⟩ : Out)] }.setCall i
        { c with pc := .await })
    else none
  | .await, .proceed =>
    c.slot.map fun resp => s.setCall i { c with slot := none, pc := .unregister (responseReturn resp) }
  | .send, .shutdown | .await, .shutdown =>
    if s.shutdownCh then some (s.setCall i { c with pc := .unregister ⟨none, s.shutdownErr⟩ })
    else none
  | .send, .done | .await, .done =>
    c.ctx.map fun e => s.setCall i { c with pc := .unregister ⟨none, some (.ctx e)⟩ }
  | .unregister r, _ =>
    some ({ s with responseHandlers := Function.update s.responseHandlers c.id none }.setCall i
      { c with pc := .returned r })
  | _, _ => none

/-! ## The reader -/

/-- What `s.conn.ReadMessage()` and `header.Decode` give the reader. -/
inductive Incoming
  /-- A frame whose header decodes: the message it carries. -/
  | frame (m : Message)
  /-- A frame whose header does not decode. -/
  | undecodable
  /-- `ReadMessage` returns an error. -/
  | error

/-- The reader reads `f`: a response goes to `handleResponse`, a request to a new `handleRequest`
goroutine, and an error to `closeStream`. -/
def stepRead (s : Stream) (f : Incoming) : Option Stream :=
  match s.reader, f with
  | .read, .frame m =>
    if m.header.flags.response then
      some { s with received := s.received ++ [m], reader := .find m }
    else
      some { s with received := s.received ++ [m], reader := .check,
                    tasks := s.tasks ++ [⟨m, s.received.length, .find⟩] }
  | .read, _ => some { s with reader := .closing .cas }
  | _, _ => none

def stepReader (s : Stream) (k : Case) : Option Stream :=
  match s.reader with
  | .find m =>
    match s.responseHandlers m.header.id with
    | some i => some { s with reader := .send i m }
    | none => some { s with reader := .check }
  | .send i m => do
    let c ← s.calls[i]?
    if c.slot.isSome then none
    else some ({ s with reader := .check }.setCall i { c with slot := some m })
  | .check => some { s with reader := if s.shutdownCh then .exited else .read }
  | .closing c => closeStep s .reader c k
  | _ => none

/-! ## The writer -/

def stepWriter (s : Stream) (k : Case) : Option Stream :=
  match s.writer, k with
  | .select, .proceed =>
    match s.writeCh with
    | o :: rest => some { s with writeCh := rest, writer := .write o }
    | [] => none
  | .select, .shutdown => if s.shutdownCh then some { s with writer := .exited } else none
  | .write o, .proceed => some { s with written := s.written ++ [o], writer := .select }
  | .write _, .fail => some { s with writer := .closing .cas }
  | .closing c, k => closeStep s .writer c k
  | _, _ => none

/-! ## `handleRequest` -/

def stepTask (s : Stream) (i : Nat) (k : Case) : Option Stream := do
  let t ← s.tasks[i]?
  match t.pc, k with
  | .find, _ =>
    match s.handler t.msg.header.rpcType with
    | none => some (s.setTask i { t with pc := .respond (notSupported t.msg) })
    | some f =>
      match f t.msg.payload with
      | .returns resp =>
        some ({ s with runs := s.runs ++ [t.src] }.setTask i
          { t with pc := .respond (response t.msg resp) })
      | .panics => some ({ s with runs := s.runs ++ [t.src] }.panicked (.task i))
  | .respond m, .proceed =>
    if s.writeCh.length < writeChCap then
      some ({ s with writeCh := s.writeCh ++ [(⟨m, .task t.src⟩ : Out)] }.setTask i { t with pc := .exited })
    else none
  | .respond _, .shutdown =>
    if s.shutdownCh then some (s.setTask i { t with pc := .exited }) else none
  | _, _ => none

/-! ## Steps and runs -/

/-- A step of the system: a new goroutine calls `RPC` or `Close`, a call's `ctx` is done, the
reader reads, a goroutine takes its next step, or the reader or the writer panics. -/
inductive Action
  | rpc (rpcType : RPCType) (req : Payload)
  | close
  | cancel (i : Nat) (e : CtxError)
  | read (f : Incoming)
  | step (g : Goroutine) (k : Case)
  | panic (g : Goroutine)

/-- The goroutines whose panics `recoverPanic` catches, while they run their loop. -/
def running (s : Stream) : Goroutine → Bool
  | .reader => s.reader.running
  | .writer => s.writer.running
  | _ => false

def step (s : Stream) (a : Action) : Option Stream :=
  if s.crashed then none else
  match a with
  | .rpc t req =>
    some { s with calls := s.calls ++ [⟨t, req, none, 0, none, .inc⟩] }
  | .close => some { s with closers := s.closers ++ [.cas] }
  | .cancel i e => do
    let c ← s.calls[i]?
    if c.ctx.isSome then none else some (s.setCall i { c with ctx := some e })
  | .read f => s.stepRead f
  | .step (.call i) k => s.stepCall i k
  | .step .reader k => s.stepReader k
  | .step .writer k => s.stepWriter k
  | .step (.task i) k => s.stepTask i k
  | .step (.closer i) k => do closeStep s (.closer i) (← s.closers[i]?) k
  | .panic g => if s.running g then some (s.panicked g) else none

def run (s : Stream) : List Action → Option Stream
  | [] => some s
  | a :: as => (s.step a).bind fun s' => s'.run as

/-- The states a stream with handler `h` can reach. -/
inductive Reachable (h : Handler) : Stream → Prop
  | init : Reachable h (newStream h)
  | step {s s' : Stream} (a : Action) : Reachable h s → s.step a = some s' → Reachable h s'

theorem Reachable.run {h : Handler} {s s' : Stream} (hs : Reachable h s) :
    ∀ {as : List Action}, s.run as = some s' → Reachable h s'
  | [], e => by cases e; exact hs
  | a :: as, e => by
    simp only [Stream.run, Option.bind_eq_some] at e
    obtain ⟨s₁, h₁, e⟩ := e
    exact (hs.step a h₁).run e

end Stream

end Piko.Rpc
