import TransparentProxyNet.Session.Model

/-! The session of the VPS side, `remoteVps/session.cpp`. -/
namespace TransparentProxyNet.Vps
open TransparentProxyNet.Session (readLoop status ipAndPort)

structure Session extends TransparentProxyNet.Session where
  homeClienEndpoint : Endpoint
  enableToSendToTargetServer : Bool

namespace Session

def create (sessionId : SessionId) (homeClienEndpoint : Endpoint) : Session where
  toSession := .create sessionId
  homeClienEndpoint
  enableToSendToTargetServer := false

/-- What both classes do, done by a session of this one. -/
def lift (f : TransparentProxyNet.Session → TransparentProxyNet.Session) (s : Session) : Session :=
  { s with toSession := f s.toSession }

end Session

/-- `start`. `nextTime` is what `ikcp_check` answers. -/
def start (s : Session) (nextTime : UInt32) : Session :=
  { s with calls := s.calls ++ [.mountTask nextTime] }

def receiveTcpFromTargetServerMessage (s : Session) : Session := s.lift (·.receiveTcpMessage)

def sendTcpToTargetServerMessage (s : Session) : Option Session :=
  s.sendTcpMessage.map fun t => { s with toSession := t }

def trySendTcpToTargetServerMessage (s : Session) (pair : Packet) : Option Session :=
  let pushed := s.lift (·.setDeque (s.tcpDataWaitForSendDeque.pushBack pair))
  if !s.enableToSendToTargetServer then some pushed
  else
    let isEmpty := s.tcpDataWaitForSendDeque.items.isEmpty
    if isEmpty then sendTcpToTargetServerMessage pushed else some pushed

/-- The handler of the `i`-th outstanding `async_write`: it clears the deque of a
closed session and pops last. -/
def writeHandler (s : Session) (i : Nat) (ec : Bool) : Option Session := do
  let q := s.tcpDataWaitForSendDeque.retire i
  let q := if s.sessionClose then q.clear else q
  let s := s.lift (·.setDeque q)
  if ec then return s.lift (·.closeSession)
  let q ← q.popFront
  let s := s.lift (·.setDeque q)
  if !q.items.isEmpty then sendTcpToTargetServerMessage s else return s

def handShakeWithtargetServer (s : Session) (ep : Endpoint) : Session :=
  { s with connects := s.connects ++ [(ep, s.outcome)] }

/-- What a successful connect switches on. -/
def connected (s : Session) : Session :=
  receiveTcpFromTargetServerMessage
    { s with enableToSendToTargetServer := true, currentCmdStatus := .normal }

/-- The handler of the `i`-th outstanding `async_connect`. -/
def connectHandler (s : Session) (i : Nat) (ec : Bool) : Option Session :=
  let s := { s with connects := s.connects.eraseIdx i }
  if ec then some s
  else
    let isEmpty := s.tcpDataWaitForSendDeque.items.isEmpty
    let s := connected s
    if !isEmpty then sendTcpToTargetServerMessage s else some s

/-- The `switch` of `tryToReadFromKcp`; the other statuses do nothing. -/
def switchStatus (s : Session) (pair : Packet) : Option Session :=
  if status pair.buffer = CmdStatus.newSession.code then
    if s.currentCmdStatus = .newSession then
      some (handShakeWithtargetServer s (ipAndPort pair.buffer))
    else some s
  else if status pair.buffer = CmdStatus.normal.code then trySendTcpToTargetServerMessage s pair
  else some s

def ikcpRecv (s : Session) (size : Nat) : Session := s.lift (·.ikcpRecv size)

def tryToReadFromKcp (s : Session) (old : Nat → List UInt8) : Option Session :=
  readLoop ikcpRecv switchStatus old s.kcp.rcvQueue s

def inputToKcp (s : Session) (len : Int) (input : KcpInput) (old : Nat → List UInt8) :
    Option Session :=
  if s.sessionClose then some s
  else (tryToReadFromKcp (s.lift (·.ikcpInput len input)) old).map (·.lift (·.resumeTraffic))

def handle (s : Session) : TransparentProxyNet.Session.Event → Option Session
  | .readDone i result => some (s.lift (·.readDone i result))
  | .readHandler i result => some (s.lift (·.receiveHandler i result))
  | .writeDone i ok => some (s.lift (·.writeDone i ok))
  | .writeHandler i ec => writeHandler s i ec
  | .connectDone i ok => some (s.lift (·.connectDone i ok))
  | .connectHandler i ec => connectHandler s i ec
  | .inputToKcp len input old => inputToKcp s len input old
  | .closeSession => some (s.lift (·.closeSession))

def SessionStep (s : Session) (e : TransparentProxyNet.Session.Event) (s' : Session) : Prop :=
  s.toSession.Enabled e ∧ handle s e = some s'

def next (s : Session) (e : TransparentProxyNet.Session.Event) : Option Session :=
  if s.toSession.Enabled e then handle s e else none

theorem step_of_next {s s' : Session} {e : TransparentProxyNet.Session.Event}
    (h : next s e = some s') : SessionStep s e s' := by
  unfold next at h
  split at h
  · exact ⟨‹_›, h⟩
  · cases h

end TransparentProxyNet.Vps
