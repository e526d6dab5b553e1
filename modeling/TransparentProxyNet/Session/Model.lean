import TransparentProxyNet.Lib.BigEndian
import TransparentProxyNet.Aes.FastAesGcm
import TransparentProxyNet.Udp.SendQueue

/-! What `session.cpp` of the two programs have in common. A session owns one KCP
object and one TCP socket; its functions run one at a time, as handlers of its
worker's `io_context`.

A function returns `none` where the code would take the front of an empty deque. -/
namespace TransparentProxyNet

abbrev SessionId := Bytes 16

inductive CmdStatus where
  | newSession
  | normal
  | removeSession
  | checkSessionAlive
  deriving DecidableEq

def CmdStatus.code : CmdStatus → Nat
  | .newSession => 0x00
  | .normal => 0x01
  | .removeSession => 0x02
  | .checkSessionAlive => 0x03

/-- The bytes of `status_` when it holds `htonl` of the status. -/
def CmdStatus.bytes (c : CmdStatus) : List UInt8 := BigEndian.encode 4 c.code

def cmdStatusSize : Nat := 4

def bufferSize : Nat := 2048

def kcpSendWindowHighWaterMark : Nat := 128

/-! ### KCP

The library is not part of the repository. What counts here is the number of unacknowledged
segments, the messages it has put together, and those it was given. -/

structure Kcp where
  waitsnd : Nat
  rcvQueue : List (List UInt8)
  sent : List (List UInt8)

/-- What a datagram does to the KCP object that accepts it. -/
structure KcpInput where
  acked : Nat
  arrived : List (List UInt8)

namespace Kcp

def ikcp_create : Kcp := ⟨0, [], []⟩

/-- `ikcp_setmtu(kcp_, 1250)`, less the 24 bytes of a segment's header. -/
def mss : Nat := 1226

def ikcp_send (kcp : Kcp) (message : List UInt8) : Kcp :=
  { kcp with
    waitsnd := kcp.waitsnd + if message.length ≤ mss then 1 else (message.length + mss - 1) / mss
    sent := kcp.sent ++ [message] }

/-- A datagram shorter than a segment's header is rejected. -/
def ikcp_input (kcp : Kcp) (size : Int) (input : KcpInput) : Kcp :=
  if size < 24 then kcp
  else { kcp with waitsnd := kcp.waitsnd - input.acked, rcvQueue := kcp.rcvQueue ++ input.arrived }

/-- `ikcp_recv` after `ikcp_peeksize`: the first message leaves the queue. -/
def ikcp_recv (kcp : Kcp) : Kcp := { kcp with rcvQueue := kcp.rcvQueue.tail }

def ikcp_waitsnd (kcp : Kcp) : Nat := kcp.waitsnd

end Kcp

/-! ### Sessions -/

inductive ReadResult where
  | data (bytes : List UInt8)
  | eof
  | error
  deriving DecidableEq

def ReadResult.length : ReadResult → Nat
  | .data bytes => bytes.length
  | _ => 0

/-- What a session asks of its worker. -/
inductive Call where
  | mountTask (nextTime : UInt32)
  | removeTask
  | getSharedPtrFunc (memorySize : Nat)
  deriving DecidableEq

/-- The fields both classes have, and the operations outstanding on the TCP socket:
an operation in progress has no result yet, one with a result waits for its handler
to run. `calls` collects what the handlers ask of the worker. -/
structure Session where
  sessionId : SessionId
  kcp : Kcp
  trafficBusy : Bool
  sessionClose : Bool
  currentCmdStatus : CmdStatus
  tcpDataWaitForSendDeque : Pump.Queue Packet
  reads : List (Option ReadResult)
  connects : List (Endpoint × Option Bool)
  calls : List Call

namespace Session

/-- A session under construction; `sessionId_` holds anything. -/
def create (sessionId : SessionId) : Session where
  sessionId
  kcp := .ikcp_create
  trafficBusy := false
  sessionClose := false
  currentCmdStatus := .newSession
  tcpDataWaitForSendDeque := .idle
  reads := []
  connects := []
  calls := []

def setSessionId (s : Session) (sessionId : SessionId) : Session := { s with sessionId }

def setDeque (s : Session) (q : Pump.Queue Packet) : Session :=
  { s with tcpDataWaitForSendDeque := q }

@[simp] theorem setDeque_deque (s : Session) (q : Pump.Queue Packet) :
    (s.setDeque q).tcpDataWaitForSendDeque = q := rfl

@[simp] theorem setDeque_sessionClose (s : Session) (q : Pump.Queue Packet) :
    (s.setDeque q).sessionClose = s.sessionClose := rfl

/-- On a closed socket an operation fails at once. -/
def outcome (s : Session) : Option Bool := if s.sessionClose then some false else none

def receiveTcpMessage (s : Session) : Session :=
  { s with reads := s.reads ++ [if s.sessionClose then some .error else none] }

def sendTcpMessage (s : Session) : Option Session :=
  (s.tcpDataWaitForSendDeque.start s.outcome).map s.setDeque

/-- The bytes `async_write` is given for a queue element: those behind `status_`. -/
def assistPoint (pair : Packet) : List UInt8 :=
  (pair.buffer.drop cmdStatusSize).take (pair.len - cmdStatusSize).toNat

/-- Closing the socket ends what is in progress; what has ended still has its handler
to run. -/
def closeSession (s : Session) : Session :=
  if s.sessionClose then s
  else { s with
    reads := s.reads.map fun r => some (r.getD .error)
    connects := s.connects.map fun (ep, r) => (ep, some (r.getD false))
    tcpDataWaitForSendDeque := s.tcpDataWaitForSendDeque.abort
    sessionClose := true
    calls := s.calls ++ [.removeTask] }

def checkTrafficStatus (s : Session) : Session :=
  if s.kcp.ikcp_waitsnd ≥ kcpSendWindowHighWaterMark then { s with trafficBusy := true }
  else s.receiveTcpMessage

/-- The handler of the `i`-th outstanding read. -/
def receiveHandler (s : Session) (i : Nat) (result : ReadResult) : Session :=
  let s := { s with reads := s.reads.eraseIdx i }
  match result with
  | .eof | .error => s.closeSession
  | .data bytes =>
    if bytes.length = 0 then s
    else checkTrafficStatus { s with kcp := s.kcp.ikcp_send (CmdStatus.normal.bytes ++ bytes) }

/-- The end of `inputToKcp`: reading goes on when the backlog is short enough. -/
def resumeTraffic (s : Session) : Session :=
  if s.trafficBusy && s.kcp.ikcp_waitsnd < kcpSendWindowHighWaterMark * 2 / 3 then
    receiveTcpMessage { s with trafficBusy := false }
  else s

def ikcpInput (s : Session) (len : Int) (input : KcpInput) : Session :=
  { s with kcp := s.kcp.ikcp_input len input }

def ikcpRecv (s : Session) (size : Nat) : Session :=
  { s with kcp := s.kcp.ikcp_recv, calls := s.calls ++ [.getSharedPtrFunc size] }

/-- What a node of the pool holds when `message` has been copied to its front. No node has
room for more than `bufferSize` bytes: those of a longer message go over the next node. -/
def inNode (message rest : List UInt8) : List UInt8 := (message ++ rest).take bufferSize

/-- The loop of `tryToReadFromKcp` over the messages that are complete. `old k` is
what the pool node taken when `k` messages are left behind held before. -/
def readLoop {S : Type} (recv : S → Nat → S) (switch : S → Packet → Option S)
    (old : Nat → List UInt8) : List (List UInt8) → S → Option S
  | [], s => some s
  | message :: queue, s =>
    let size := message.length
    if size = 0 then some s
    else
      let dataPtr := inNode message ((old queue.length).drop size)
      (switch (recv s size) ⟨dataPtr, size⟩).bind (readLoop recv switch old queue)

/-- `ntohl(point->status_)`. -/
def status (point : List UInt8) : Nat := BigEndian.decode (point.take 4)

/-- `ntohl(point->ipAndPort_.ip_)` and `ntohs(point->ipAndPort_.port_)`. -/
def ipAndPort (point : List UInt8) : Endpoint where
  ip := UInt32.ofNat (BigEndian.decode ((point.drop 4).take 4))
  port := UInt16.ofNat (BigEndian.decode ((point.drop 8).take 2))

@[simp] theorem status_inNode (message rest : List UInt8) :
    status (inNode message rest) = status (message ++ rest) := by
  rw [status, inNode, List.take_take, Nat.min_eq_left (by decide)]
  rfl

@[simp] theorem ipAndPort_inNode (message rest : List UInt8) :
    ipAndPort (inNode message rest) = ipAndPort (message ++ rest) := by
  simp only [ipAndPort, inNode, List.drop_take, List.take_take, bufferSize]
  rfl

/-- A message that fits stands in front. -/
theorem inNode_eq {message : List UInt8} (fits : message.length ≤ bufferSize)
    (rest : List UInt8) :
    inNode message rest = message ++ rest.take (bufferSize - message.length) := by
  rw [inNode, List.take_append, List.take_of_length_le fits]

/-- The message that `sendIpAndportToServer` makes of `endpoint_`. -/
def statusAndData (endpoint : Endpoint) : List UInt8 :=
  CmdStatus.newSession.bytes ++ BigEndian.encode 4 endpoint.ip.toNat ++
    BigEndian.encode 2 endpoint.port.toNat

/-- `driveSessionTimeClock`: the delay until the time `ikcp_check` answered. -/
def driveSessionTimeClock (now nextTime : UInt32) : UInt32 :=
  let diff := int32 (nextTime - now)
  if diff ≤ 0 then 1 else UInt32.ofInt diff

/-! ### Events -/

inductive Event where
  | readDone (i : Nat) (result : ReadResult)
  | readHandler (i : Nat) (result : ReadResult)
  | writeDone (i : Nat) (ok : Bool)
  | writeHandler (i : Nat) (ec : Bool)
  | connectDone (i : Nat) (ok : Bool)
  | connectHandler (i : Nat) (ec : Bool)
  | inputToKcp (len : Int) (input : KcpInput) (old : Nat → List UInt8)
  | closeSession

/-- An operation ends only if it is in progress, a handler runs only if its operation
has ended, and a read brings what fits behind `status_` in the buffer. -/
def Enabled (s : Session) : Event → Prop
  | .readDone i result => s.reads[i]? = some none ∧ result.length ≤ bufferSize - cmdStatusSize
  | .readHandler i result => s.reads[i]? = some (some result)
  | .writeDone i _ => (s.tcpDataWaitForSendDeque.pending[i]?).map Pump.Op.outcome = some none
  | .writeHandler i ec => (s.tcpDataWaitForSendDeque.pending[i]?).map Pump.Op.outcome =
      some (some (!ec))
  | .connectDone i _ => (s.connects[i]?).map Prod.snd = some none
  | .connectHandler i ec => (s.connects[i]?).map Prod.snd = some (some (!ec))
  | .inputToKcp _ _ _ => True
  | .closeSession => True

instance (s : Session) (e : Event) : Decidable (s.Enabled e) := by
  cases e <;> unfold Enabled <;> infer_instance

def readDone (s : Session) (i : Nat) (result : ReadResult) : Session :=
  { s with reads := s.reads.set i (some result) }

def writeDone (s : Session) (i : Nat) (ok : Bool) : Session :=
  s.setDeque (s.tcpDataWaitForSendDeque.complete i ok)

def connectDone (s : Session) (i : Nat) (ok : Bool) : Session :=
  { s with connects := s.connects.modify i fun (ep, _) => (ep, some ok) }

/-! ### What the functions leave alone -/

theorem closeSession_deque (s : Session) :
    s.closeSession.tcpDataWaitForSendDeque =
      if s.sessionClose then s.tcpDataWaitForSendDeque else s.tcpDataWaitForSendDeque.abort := by
  unfold closeSession
  split <;> rfl

@[simp] theorem closeSession_sessionClose (s : Session) : s.closeSession.sessionClose = true := by
  unfold closeSession
  split
  · assumption
  · rfl

@[simp] theorem checkTrafficStatus_deque (s : Session) :
    s.checkTrafficStatus.tcpDataWaitForSendDeque = s.tcpDataWaitForSendDeque := by
  unfold checkTrafficStatus
  split <;> rfl

@[simp] theorem checkTrafficStatus_sessionClose (s : Session) :
    s.checkTrafficStatus.sessionClose = s.sessionClose := by
  unfold checkTrafficStatus
  split <;> rfl

@[simp] theorem resumeTraffic_deque (s : Session) :
    s.resumeTraffic.tcpDataWaitForSendDeque = s.tcpDataWaitForSendDeque := by
  unfold resumeTraffic
  split <;> rfl

@[simp] theorem resumeTraffic_sessionClose (s : Session) :
    s.resumeTraffic.sessionClose = s.sessionClose := by
  unfold resumeTraffic
  split <;> rfl

/-- The two ways the sessions drive their queue: push onto it, and go on with it. -/
theorem push_eq (s : Session) (pair : Packet) :
    (if s.tcpDataWaitForSendDeque.items.isEmpty then
        sendTcpMessage (s.setDeque (s.tcpDataWaitForSendDeque.pushBack pair))
      else some (s.setDeque (s.tcpDataWaitForSendDeque.pushBack pair))) =
      (s.tcpDataWaitForSendDeque.submit pair s.outcome).map s.setDeque := by
  unfold Pump.Queue.submit
  split <;> rfl

theorem resume_eq (s : Session) :
    (if !s.tcpDataWaitForSendDeque.items.isEmpty then s.sendTcpMessage else some s) =
      (s.tcpDataWaitForSendDeque.resume s.outcome).map s.setDeque := by
  unfold Pump.Queue.resume
  cases s.tcpDataWaitForSendDeque.items.isEmpty <;> rfl

/-- A read handler closes the session, or leaves the deque and the flag alone. -/
theorem receiveHandler_cases (s : Session) (i : Nat) (result : ReadResult) :
    s.receiveHandler i result = closeSession { s with reads := s.reads.eraseIdx i } ∨
      (s.receiveHandler i result).tcpDataWaitForSendDeque = s.tcpDataWaitForSendDeque ∧
      (s.receiveHandler i result).sessionClose = s.sessionClose := by
  cases result with
  | eof => exact .inl rfl
  | error => exact .inl rfl
  | data bytes =>
      right
      simp only [receiveHandler]
      split <;> simp

/-- No message is left that a read of the queue would take: KCP has put none together,
or the first one is empty. -/
def Drained (queue : List (List UInt8)) : Prop := ∀ message ∈ queue.head?, message = []

theorem drained_nil : Drained [] := by simp [Drained]

/-- The loop ends where no message is left, and what receiving a message and acting on it
keep, the whole loop keeps. -/
theorem readLoop_keeps {S : Type} (recv : S → Nat → S) (switch : S → Packet → Option S)
    (old : Nat → List UInt8) {P : List (List UInt8) → S → Prop}
    (round : ∀ message queue s rest, P (message :: queue) s →
      ∃ s', switch (recv s message.length) ⟨inNode message rest, message.length⟩ = some s' ∧
        P queue s')
    {queue : List (List UInt8)} {s : S} (start : P queue s) :
    ∃ s' left, readLoop recv switch old queue s = some s' ∧ P left s' ∧ Drained left := by
  induction queue generalizing s with
  | nil => exact ⟨s, [], rfl, start, drained_nil⟩
  | cons message queue ih =>
      simp only [readLoop]
      split
      · refine ⟨s, message :: queue, rfl, start, ?_⟩
        simpa [Drained] using List.length_eq_zero_iff.mp ‹_›
      · obtain ⟨mid, first, kept⟩ := round _ _ _ ((old queue.length).drop message.length) start
        rw [first]
        exact ih kept

theorem readLoop_total {S : Type} (recv : S → Nat → S) {switch : S → Packet → Option S}
    (old : Nat → List UInt8)
    (total : ∀ s pair, ∃ s', switch s pair = some s') (queue : List (List UInt8)) (s : S) :
    ∃ s', readLoop recv switch old queue s = some s' := by
  obtain ⟨s', -, read, -⟩ := @readLoop_keeps S recv switch old (fun _ _ => True)
    (fun _ _ _ _ _ => (total _ _).imp fun _ done => ⟨done, trivial⟩) queue s trivial
  exact ⟨s', read⟩

end Session
end TransparentProxyNet
