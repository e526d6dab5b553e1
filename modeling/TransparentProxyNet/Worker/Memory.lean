import Mathlib.Algebra.BigOperators.Group.Finset.Basic
import TransparentProxyNet.MemoryPool.Ownership
import TransparentProxyNet.Worker.ReceiveErrors

/-! What the handlers of a worker do with the nodes of its memory pool. A `shared_ptr` of
`getSharedPtrFunc` gives its node back when the last copy goes, and that copy is the
element of a deque, or a local variable of the function that asked for it. -/
namespace TransparentProxyNet
open Allocation Machine

/-- `sizeof(task::assistStruct)`. -/
def assistStructSize : Nat := 16

/-- Where the fields of a worker and of its sessions point to. -/
structure Pointers where
  udpReceiveBuffer : Nat
  sessions : Finset Nat
  socketBuffer : Nat → Nat
  tcpDataWaitForSendDeque : Nat → List Node
  udpSocketWaitForSendDeque : List Node

namespace Pointers

def start (udpReceiveBuffer : Nat) : Pointers := ⟨udpReceiveBuffer, ∅, fun _ => 0, fun _ => [], []⟩

def setTcp (o : Pointers) (this : Nat) (nodes : List Node) : Pointers :=
  { o with tcpDataWaitForSendDeque := Function.update o.tcpDataWaitForSendDeque this nodes }

def setUdp (o : Pointers) (nodes : List Node) : Pointers :=
  { o with udpSocketWaitForSendDeque := nodes }

/-- A session at `this`, with the buffer of its socket. -/
def build (o : Pointers) (this buffer : Nat) : Pointers where
  udpReceiveBuffer := o.udpReceiveBuffer
  sessions := insert this o.sessions
  socketBuffer := Function.update o.socketBuffer this buffer
  tcpDataWaitForSendDeque := Function.update o.tcpDataWaitForSendDeque this []
  udpSocketWaitForSendDeque := o.udpSocketWaitForSendDeque

@[simp] theorem setTcp_self (o : Pointers) (this : Nat) (nodes : List Node) :
    (o.setTcp this nodes).tcpDataWaitForSendDeque this = nodes := Function.update_self ..

theorem setTcp_other (o : Pointers) {this p : Nat} (other : p ≠ this) (nodes : List Node) :
    (o.setTcp this nodes).tcpDataWaitForSendDeque p = o.tcpDataWaitForSendDeque p :=
  Function.update_of_ne other ..

theorem setTcp_same (o : Pointers) (this : Nat) :
    o.setTcp this (o.tcpDataWaitForSendDeque this) = o := by
  rw [setTcp, Function.update_eq_self]

@[simp] theorem build_tcp_self (o : Pointers) (this buffer : Nat) :
    (o.build this buffer).tcpDataWaitForSendDeque this = [] := Function.update_self ..

theorem build_tcp_other (o : Pointers) {this p : Nat} (other : p ≠ this) (buffer : Nat) :
    (o.build this buffer).tcpDataWaitForSendDeque p = o.tcpDataWaitForSendDeque p :=
  Function.update_of_ne other ..

/-- The nodes that a session keeps as long as there is one: its task and its buffer. -/
def fixed (structTaskSize : Nat) (o : Pointers) (this : Nat) : Multiset Node :=
  {⟨this - assistStructSize, structTaskSize⟩, ⟨o.socketBuffer this, bufferSize⟩}

/-- All the nodes that something points to. -/
def owned (structTaskSize : Nat) (o : Pointers) : Multiset Node :=
  ⟨o.udpReceiveBuffer, bufferSize⟩ ::ₘ
    (∑ this ∈ o.sessions, (o.fixed structTaskSize this + ↑(o.tcpDataWaitForSendDeque this)) +
      ↑o.udpSocketWaitForSendDeque)

end Pointers

/-! ### Deques -/

/-- `pop_front()`. -/
def popFrontNodes : List Node → Script (List Node)
  | [] => .done []
  | node :: nodes => .give node.address (.done nodes)

/-- `clear()`. -/
def clearNodes : List Node → Script (List Node)
  | [] => .done []
  | node :: nodes => .give node.address (clearNodes nodes)

namespace Session

/-- The loop of `tryToReadFromKcp`: the pointer to a message stays in the deque, or goes at
the end of its round. -/
def readNodes (old : Nat → List UInt8) : List (List UInt8) → List Node → Script (List Node)
  | [], nodes => .done nodes
  | message :: queue, nodes =>
    let size := message.length
    if size = 0 then .done nodes
    else .take size fun p => .write p size <|
      if status (message ++ (old queue.length).drop size) = CmdStatus.normal.code then
        readNodes old queue (nodes ++ [⟨p, size⟩])
      else .give p (readNodes old queue nodes)

def inputToKcpNodes (s : Session) (len : Int) (input : KcpInput) (old : Nat → List UInt8)
    (nodes : List Node) : Script (List Node) :=
  if s.sessionClose then .done nodes else readNodes old (s.ikcpInput len input).kcp.rcvQueue nodes

end Session

def Home.writeHandlerNodes (s : Session) (_ : Bool) (nodes : List Node) : Script (List Node) :=
  (popFrontNodes nodes).bind fun nodes => if s.sessionClose then clearNodes nodes else .done nodes

def Vps.writeHandlerNodes (s : Session) (ec : Bool) (nodes : List Node) : Script (List Node) :=
  (if s.sessionClose then clearNodes nodes else .done nodes).bind fun nodes =>
    if ec then .done nodes else popFrontNodes nodes

namespace Worker
variable {S α : Type}

/-- The bytes of a frame: key and IV, id, segment, tag and padding. -/
def frameSize (len : Nat) : Nat :=
  keyAndIvOffSet + sessionIdSize + len + FastAesGcm.GCM_TAG_SIZE + FastAesGcm.PADDINGSIZE

/-- `kcpCallBack`: the frame is built in the node, the encryption in place. -/
def kcpCallBackNodes (len : Nat) (nodes : List Node) : Script (List Node) :=
  .take (len + bufferPaddingSize) fun p => .write p (frameSize len) <|
    if nodes.length > 2048 then .give p (.done nodes)
    else .done (nodes ++ [⟨p, len + bufferPaddingSize⟩])

/-- `new (registerTask(getCPtrFunc(structTaskSize_))) session(…)`; the constructor takes the
buffer of the session's socket. -/
def buildNodes (structTaskSize : Nat) (o : Pointers) : Script (Nat × Pointers) :=
  .take structTaskSize fun memoryPoint => .write memoryPoint structTaskSize <|
    .take bufferSize fun buffer =>
      .done (memoryPoint + assistStructSize, o.build (memoryPoint + assistStructSize) buffer)

def runNodes (w : Worker S α) (this : Nat) (f : S → List Node → Script (List Node))
    (o : Pointers) : Script Pointers :=
  match w.sessions this with
  | some s => (f s (o.tcpDataWaitForSendDeque this)).map (o.setTcp this)
  | none => .done o

/-- A read puts its bytes behind `status_`. -/
def commonNodes (writeHandlerNodes : S → Bool → List Node → Script (List Node)) (w : Worker S α)
    (o : Pointers) : Event → Script Pointers
  | .session this (.readDone _ result) =>
    .write (o.socketBuffer this) (cmdStatusSize + result.length) (.done o)
  | .session this (.writeHandler _ ec) => w.runNodes this (writeHandlerNodes · ec) o
  | .kcpCallBack _ buf =>
    (kcpCallBackNodes buf.length o.udpSocketWaitForSendDeque).map o.setUdp
  | .sent _ _ => (popFrontNodes o.udpSocketWaitForSendDeque).map o.setUdp
  | _ => .done o

/-- A datagram is received and decrypted in the buffer before `deliver` looks at it. -/
def receiveNodes (A : AesGcm) (deliver : Segment → Script (Option Nat × Pointers))
    (v : Worker S α) (bytesHadRead : Nat) (calls : ReceiveCalls) (o : Pointers) :
    Script (Option Nat × Pointers) :=
  .write o.udpReceiveBuffer bufferSize <|
    match v.segment A bytesHadRead calls.decrypt with
    | some (_, segment) => deliver segment
    | none => .done (none, o)

/-! ### A worker and its pool -/

/-- A worker in the memory of its pool. -/
structure Housed (S α : Type) where
  worker : Worker S α
  pointers : Pointers
  pool : MemoryPool

/-- What a handler does to a worker, with the address of the session it builds. -/
abbrev Handling (S α : Type) :=
  ReceiveCalls → Option Nat → Worker S α → Event → Worker S α → Prop

/-- What it does with nodes. -/
abbrev Using (S α : Type) :=
  ReceiveCalls → Worker S α → Pointers → Event → Script (Option Nat × Pointers)

/-- The same event, but for the address of the task of a new session. -/
def Event.Alike : Event → Event → Prop
  | .registerSession _ randomId, .registerSession _ randomId' => randomId = randomId'
  | e, e' => e = e'

namespace Housed

/-- One handler, in the worker and in the pool. A session it builds has the address that
came out of the pool. -/
def Step (other : Int → Fin 4) (Handles : Handling S α) (nodes : Using S α) (st : Housed S α)
    (e : Event × ReceiveCalls) (st' : Housed S α) : Prop :=
  ∃ built, Handles e.2 built st.worker e.1 st'.worker ∧
    (MemoryPool.allocator other).Runs (nodes e.2 st.worker st.pointers e.1) st.pool
      (built, st'.pointers) st'.pool

/-- A worker that has just started, with a new pool and its receive buffer out of it. -/
def Started (S₀ : MemoryPool.Setting) (other : Int → Fin 4) (st : Housed S α) : Prop :=
  st.worker.Started ∧ ∃ pool, MemoryPool.Built S₀ ⟨pool, fun _ => []⟩ ∧
    (MemoryPool.allocator other).Runs (.take bufferSize fun p => .done (Pointers.start p)) pool
      st.pointers st.pool

end Housed
end Worker

namespace Home
open TransparentProxyNet.Worker (ReceiveCalls Using)

/-- A handler of the home side. That a new session's task is not in use is left to the
pool. -/
inductive Handles (A : AesGcm) (other : Int → Fin 4) (calls : ReceiveCalls) :
    Option Nat → Worker → Worker.Event → Worker → Prop
  | common {w e w'} : Worker.CommonStep A other handle (fun _ pair => pair) w e w' →
      Handles A other calls none w e w'
  | receive {w v w'} {datagram : List UInt8} : 0 < w.receives → w.arrive datagram = some v →
      receiveHandler A v false (datagram.take bufferSize).length calls = some w' →
      Handles A other calls none w (.receive false datagram) w'
  | receiveError {w w'} : 0 < w.receives →
      receiveHandler A { w with receives := w.receives - 1 } true 0 calls = some w' →
      Handles A other calls none w (.receive true []) w'
  | registerSession {w this randomId sessionId nextTime endpoint w'} :
      w.sessionMap randomId = none →
      registerSession (w.construct this (.create sessionId)) randomId this nextTime endpoint =
        some w' →
      Handles A other calls (some this) w (.registerSession this randomId) w'

def deliverNodes (calls : ReceiveCalls) (w : Worker) (o : Pointers) (s : Worker.Segment) :
    Script (Option Nat × Pointers) :=
  match w.sessionMap s.sessionId with
  | some sessionPtr =>
    (w.runNodes sessionPtr (fun t => Session.inputToKcpNodes t s.len (calls.ikcp s.data) calls.old)
      o).map fun o => (none, o)
  | none => .done (none, o)

def nodes (A : AesGcm) (structTaskSize : Nat) : Using Session Packet
  | calls, w, o, .receive false datagram =>
    match w.arrive datagram with
    | some v => v.receiveNodes A (deliverNodes calls v o) (datagram.take bufferSize).length calls o
    | none => .done (none, o)
  | _, _, o, .registerSession _ _ =>
    (Worker.buildNodes structTaskSize o).map fun (this, o) => (some this, o)
  | _, w, o, e => (w.commonNodes writeHandlerNodes o e).map fun o => (none, o)

end Home

namespace Vps
open TransparentProxyNet.Worker (ReceiveCalls Using)

/-- A handler of the VPS side; a receive handler builds a session for an unknown id. -/
inductive Handles (A : AesGcm) (other : Int → Fin 4) (calls : ReceiveCalls) :
    Option Nat → Worker → Worker.Event → Worker → Prop
  | common {w e w'} : Worker.CommonStep A other handle (fun s pair => (s.homeClienEndpoint, pair))
      w e w' →
      Handles A other calls none w e w'
  | receive {w v new built w'} {datagram : List UInt8} :
      0 < w.receives → w.arrive datagram = some v →
      receiveHandler A v false (datagram.take bufferSize).length calls new = some w' →
      (∀ this ∈ built, new.this = this) →
      Handles A other calls built w (.receive false datagram) w'
  | receiveError {w w' new} : 0 < w.receives →
      receiveHandler A { w with receives := w.receives - 1 } true 0 calls new = some w' →
      Handles A other calls none w (.receive true []) w'

/-- The input of a new session finds its deque empty. -/
def deliverNodes (structTaskSize : Nat) (calls : ReceiveCalls) (w : Worker) (o : Pointers)
    (s : Worker.Segment) : Script (Option Nat × Pointers) :=
  match w.sessionMap s.sessionId with
  | some sessionPtr =>
    (w.runNodes sessionPtr
      (fun t => t.toSession.inputToKcpNodes s.len (calls.ikcp s.data) calls.old) o).map
      fun o => (none, o)
  | none => (Worker.buildNodes structTaskSize o).bind fun (this, o) =>
    ((TransparentProxyNet.Session.create s.sessionId).inputToKcpNodes s.len (calls.ikcp s.data)
      calls.old (o.tcpDataWaitForSendDeque this)).map fun nodes => (some this, o.setTcp this nodes)

def nodes (A : AesGcm) (structTaskSize : Nat) : Using Session (Endpoint × Packet)
  | calls, w, o, .receive false datagram =>
    let bytesHadRead := (datagram.take bufferSize).length
    match w.arrive datagram with
    | some v =>
      if bytesHadRead = 0 then .done (none, o)
      else v.receiveNodes A (deliverNodes structTaskSize calls v o) bytesHadRead calls o
    | none => .done (none, o)
  | _, w, o, e => (w.commonNodes writeHandlerNodes o e).map fun o => (none, o)

end Vps
end TransparentProxyNet
