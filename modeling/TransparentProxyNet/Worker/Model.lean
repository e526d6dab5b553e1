import TransparentProxyNet.MemoryPool.Model
import TransparentProxyNet.Session.Start

/-! `worker.cpp` of the two programs. A worker owns the sessions that share its UDP
socket; all of its handlers run on one thread, so each of them is one step.

A function returns `none` where the code would leave a buffer, follow a null pointer or
let an exception end the thread. -/
namespace TransparentProxyNet
open Buffer Machine

def sessionIdSize : Nat := 16

def keyAndIvOffSet : Nat := 44

/-- What a `kcpCallBack` asks for beyond the segment. -/
def bufferPaddingSize : Nat := 128

/-- What the session classes have in common, seen from their workers. -/
class Served (S : Type) where
  base : S → Session
  lift : (Session → Session) → S → S
  base_lift : ∀ f s, base (lift f s) = f (base s)
  lift_same : ∀ f s, f (base s) = base s → lift f s = s

export Served (base lift base_lift lift_same)

attribute [simp] base_lift

instance : Served Session := ⟨id, id, fun _ _ => rfl, fun _ _ => id⟩

instance : Served Vps.Session :=
  ⟨Vps.Session.toSession, Vps.Session.lift, fun _ _ => rfl, fun _ s same =>
    congrArg (fun t => { s with toSession := t }) same⟩

/-- What a worker asks its memory pool for. -/
inductive Request where
  | structTask
  | buffer (memorySize : Nat)

def Call.request : Call → Option Request
  | .getSharedPtrFunc memorySize => some (.buffer memorySize)
  | _ => none

/-- `sessionMap_` leads from an id to the address of its session; `receives` counts the
receives outstanding on the UDP socket. -/
structure Worker (S α : Type) where
  sessionMap : SessionId → Option Nat
  sessions : Nat → Option S
  timeWheel : TimeWheel Nat
  udpSocketWaitForSendDeque : Pump.Queue α
  udpReceiveBuffer : Bytes bufferSize
  receives : Nat
  requests : List Request

namespace Worker
variable {S α : Type}

def getMemory (w : Worker S α) (request : Request) : Worker S α :=
  { w with requests := w.requests ++ [request] }

/-- A function of the session at `this` runs, and what it asks of the worker is done. -/
def run [Served S] (w : Worker S α) (this : Nat) (f : S → Option S) : Option (Worker S α) := do
  let s ← w.sessions this
  let s ← f s
  let timeWheel ← callsOnWheel this w.timeWheel (base s).calls
  return { w with
    sessions := Function.update w.sessions this (some (lift (fun t => { t with calls := [] }) s))
    timeWheel
    requests := w.requests ++ (base s).calls.filterMap Call.request }

/-- A task out of the pool, and the session that is built in it. -/
def construct (w : Worker S α) (this : Nat) (s : S) : Worker S α :=
  let w := w.getMemory .structTask
  let w :=
    { w with
      timeWheel := w.timeWheel.registerTask this
      sessions := Function.update w.sessions this (some s) }
  w.getMemory (.buffer bufferSize)

/-- `sessionMap_.emplace`, which leaves an entry with the same key as it is. -/
def emplace (w : Worker S α) (sessionId : SessionId) (this : Nat) : Worker S α :=
  { w with sessionMap :=
      if (w.sessionMap sessionId).isSome then w.sessionMap
      else Function.update w.sessionMap sessionId (some this) }

def setBuffer (w : Worker S α) (buf : Bytes bufferSize) : Worker S α :=
  { w with udpReceiveBuffer := buf }

/-- The receive outstanding on the socket ends with a datagram, of which the buffer takes
what fits. -/
def arrive (w : Worker S α) (datagram : List UInt8) : Option (Worker S α) :=
  (write w.udpReceiveBuffer 0 (datagram.take bufferSize)).map fun buf =>
    { w.setBuffer buf with receives := w.receives - 1 }

def rearm (w : Worker S α) : Worker S α := { w with receives := w.receives + 1 }

/-- `udpHeaderPoint->data_`, as far as the length given with it reaches. -/
def data (buf : Bytes bufferSize) (len : Int) : List UInt8 :=
  (buf.toList.drop (keyAndIvOffSet + sessionIdSize)).take len.toNat

/-- What code outside the repository does during a receive handler: EVP, KCP with the
bytes it is given, and the pool with the nodes it hands out. -/
structure ReceiveCalls where
  decrypt : DecryptCalls
  ikcp : List UInt8 → KcpInput
  old : Nat → List UInt8

/-- The part of both receive handlers from `doDecrypt` on. `deliver` is given the id, the
length and the bytes that the handler finds in its buffer. -/
def decode (A : AesGcm) (deliver : Worker S α → SessionId → Int → List UInt8 → Option (Worker S α))
    (w : Worker S α) (bytesHadRead : Nat) (calls : DecryptCalls) : Option (Worker S α) := do
  let (buf, r) ← FastAesGcm.doDecrypt A calls w.udpReceiveBuffer (UInt32.ofNat bytesHadRead)
  let len := int32 r - sessionIdSize
  let sessionId ← read buf keyAndIvOffSet sessionIdSize
  let w ← deliver (w.setBuffer buf) sessionId len (data buf len)
  return w.rearm

/-- The frame that `kcpCallBack` builds in its node, and the length recorded for it. -/
def buildFrame (A : AesGcm) (calls : EncryptCalls) (sessionId : SessionId) {n : Nat}
    (node : Bytes n) (buf : List UInt8) : Option Packet := do
  let node ← write node keyAndIvOffSet sessionId.toList
  let node ← write node (keyAndIvOffSet + sessionIdSize) buf
  let (node, len) ← FastAesGcm.doEncrypt A calls node (UInt32.ofNat (buf.length + sessionIdSize))
  match len with
  | .error _ => none
  | .ok len => return ⟨node.toList, int32 len⟩

/-- `kcpCallBack` of both programs; `addressed` adds the destination. -/
def kcpCallBack [Served S] (A : AesGcm) (addressed : S → Packet → α) (calls : EncryptCalls)
    (w : Worker S α)
    (this : Nat) {n : Nat} (node : Bytes n) (buf : List UInt8) : Option (Worker S α) := do
  let s ← w.sessions this
  let pair ← buildFrame A calls (base s).sessionId node buf
  let q ← Udp.tryTosendUdpMessageToRemoteServer w.udpSocketWaitForSendDeque (addressed s pair)
  return { w.getMemory (.buffer (buf.length + bufferPaddingSize)) with
    udpSocketWaitForSendDeque := q }

/-! ### Events -/

inductive Event where
  | receive (ec : Bool) (datagram : List UInt8)
  | registerSession (this : Nat) (randomId : SessionId)
  | session (this : Nat) (e : Session.Event)
  | kcpCallBack (this : Nat) (buf : List UInt8)
  | sent (i : Nat) (ec : Bool)
  | doCurrentTimeWheel (now : UInt32) (nextTime : Nat → UInt32)

/-- What happens on the TCP socket of a session. -/
def onSocket : Session.Event → Bool
  | .inputToKcp _ _ _ => false
  | .closeSession => false
  | _ => true

/-- The bytes a caller can use in the node it gets for `memorySize`. -/
def payloadSize (other : Int → Fin 4) (memorySize : Int) : Nat :=
  MemoryPool.nodeSize (MemoryPool.sizeClass other memorySize) - MemoryPool.headSize

/-- The steps that are alike in both programs. KCP calls `kcpCallBack` whenever it
flushes; when that is does not matter here. -/
inductive CommonStep [Served S] (A : AesGcm) (other : Int → Fin 4)
    (handle : S → Session.Event → Option S)
    (addressed : S → Packet → α) : Worker S α → Event → Worker S α → Prop
  | session {w this s e w'} : onSocket e → w.sessions this = some s → (base s).Enabled e →
      w.run this (handle · e) = some w' → CommonStep A other handle addressed w (.session this e) w'
  | kcpCallBack {w this buf calls w'}
      (node : Bytes (payloadSize other (buf.length + bufferPaddingSize))) :
      kcpCallBack A addressed calls w this node buf = some w' →
      CommonStep A other handle addressed w (.kcpCallBack this buf) w'
  | sent {w i op ec q} : w.udpSocketWaitForSendDeque.pending[i]? = some op →
      Udp.sendHandler w.udpSocketWaitForSendDeque i ec = some q →
      CommonStep A other handle addressed w (.sent i ec) { w with udpSocketWaitForSendDeque := q }
  | doCurrentTimeWheel {w now nextTime timeWheel driven} :
      TimeWheel.Ticks w.timeWheel (fun this => Session.driveSessionTimeClock now (nextTime this))
        timeWheel driven →
      CommonStep A other handle addressed w (.doCurrentTimeWheel now nextTime) { w with timeWheel }

/-- A worker that has just started listening; its buffer holds anything. -/
def Started (w : Worker S α) : Prop :=
  ∃ timeWheel buf, timeWheel.Fresh ∧
    w = ⟨fun _ => none, fun _ => none, timeWheel, .idle, buf, 1, [.buffer bufferSize]⟩

end Worker

namespace Home

abbrev Worker := TransparentProxyNet.Worker Session Packet

def receiveUdpMessageFromRemoteServer (w : Worker) : Worker := w.rearm

/-- The lookup of the receive handler, and what follows. -/
def deliver (calls : Worker.ReceiveCalls) (w : Worker) (sessionId : SessionId) (len : Int)
    (data : List UInt8) : Option Worker :=
  match w.sessionMap sessionId with
  | some sessionPtr => w.run sessionPtr fun s => inputToKcp s len (calls.ikcp data) calls.old
  | none => some w

/-- The handler of `async_receive`; on an error it does not receive again. -/
def receiveHandler (A : AesGcm) (w : Worker) (ec : Bool) (byteHadRead : Nat)
    (calls : Worker.ReceiveCalls) : Option Worker :=
  if ec then some w else w.decode A (deliver calls) byteHadRead calls.decrypt

def registerSession (w : Worker) (randomId : SessionId) (this : Nat) (nextTime : UInt32)
    (endpoint : Endpoint) : Option Worker :=
  let w := w.emplace randomId this
  w.run this fun s => some (start (s.setSessionId randomId) nextTime endpoint)

def kcpCallBack {n : Nat} (A : AesGcm) (calls : EncryptCalls) (w : Worker) (this : Nat)
    (node : Bytes n)
    (buf : List UInt8) : Option Worker := w.kcpCallBack A (fun _ pair => pair) calls this node buf

/-- The acceptor hands over a connection: the session gets a task that is not in use and
an id that `getrandom` has not given before. -/
inductive Step (A : AesGcm) (other : Int → Fin 4) : Worker → Worker.Event → Worker → Prop
  | common {w e w'} : Worker.CommonStep A other handle (fun _ pair => pair) w e w' →
      Step A other w e w'
  | receive {w v w'} {datagram : List UInt8} {calls} : 0 < w.receives → w.arrive datagram = some v →
      receiveHandler A v false (datagram.take bufferSize).length calls = some w' →
      Step A other w (.receive false datagram) w'
  | receiveError {w w' calls} : 0 < w.receives →
      receiveHandler A { w with receives := w.receives - 1 } true 0 calls = some w' →
      Step A other w (.receive true []) w'
  | registerSession {w this randomId sessionId nextTime endpoint w'} : w.sessions this = none →
      w.sessionMap randomId = none →
      registerSession (w.construct this (.create sessionId)) randomId this nextTime endpoint =
        some w' →
      Step A other w (.registerSession this randomId) w'

end Home

namespace Vps

abbrev Worker := TransparentProxyNet.Worker Session (Endpoint × Packet)

def listen (w : Worker) : Worker := w.rearm

def registerSession (w : Worker) (sessionId_ : SessionId) (this : Nat) (nextTime : UInt32) :
    Option Worker :=
  let w := w.emplace sessionId_ this
  w.run this fun s => some (start (s.lift (·.setSessionId sessionId_)) nextTime)

/-- What a new session starts from: its task, what its `sessionId_` holds, the source of
the datagram, and the time that `ikcp_check` answers. Its socket has been opened: where
`open(tcp::v4())` finds no descriptor the constructor throws. -/
structure NewSession where
  this : Nat
  sessionId : SessionId
  homeClienEndpoint : Endpoint
  nextTime : UInt32

/-- The lookup of the receive handler, and what follows. -/
def deliver (calls : Worker.ReceiveCalls) (new : NewSession) (w : Worker) (sessionId : SessionId)
    (len : Int) (data : List UInt8) : Option Worker :=
  match w.sessionMap sessionId with
  | some sessionPtr => w.run sessionPtr fun s => inputToKcp s len (calls.ikcp data) calls.old
  | none => do
    let w := w.construct new.this (.create new.sessionId new.homeClienEndpoint)
    let w ← registerSession w sessionId new.this new.nextTime
    w.run new.this fun s => inputToKcp s len (calls.ikcp data) calls.old

/-- The handler of `async_receive_from`. -/
def receiveHandler (A : AesGcm) (w : Worker) (ec : Bool) (bytesHadRead : Nat)
    (calls : Worker.ReceiveCalls) (new : NewSession) : Option Worker :=
  if ec then some (listen w)
  else if bytesHadRead = 0 then some (listen w)
  else w.decode A (deliver calls new) bytesHadRead calls.decrypt

def kcpCallBack {n : Nat} (A : AesGcm) (calls : EncryptCalls) (w : Worker) (this : Nat)
    (node : Bytes n) (buf : List UInt8) : Option Worker :=
  w.kcpCallBack A (fun s pair => (s.homeClienEndpoint, pair)) calls this node buf

inductive Step (A : AesGcm) (other : Int → Fin 4) : Worker → Worker.Event → Worker → Prop
  | common {w e w'} : Worker.CommonStep A other handle (fun s pair => (s.homeClienEndpoint, pair))
      w e w' →
      Step A other w e w'
  | receive {w v w'} {datagram : List UInt8} {calls new} :
      0 < w.receives → w.arrive datagram = some v →
      w.sessions new.this = none →
      receiveHandler A v false (datagram.take bufferSize).length calls new = some w' →
      Step A other w (.receive false datagram) w'
  | receiveError {w w' calls new} : 0 < w.receives →
      receiveHandler A { w with receives := w.receives - 1 } true 0 calls new = some w' →
      Step A other w (.receive true []) w'

end Vps
end TransparentProxyNet
