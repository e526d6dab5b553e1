import TransparentProxyNet.Session.Model

/-! The session of the home side, `server/session.cpp`. -/
namespace TransparentProxyNet.Home
open TransparentProxyNet.Session (readLoop status outcome)

abbrev Session := TransparentProxyNet.Session

def receiveTcpFromWifiCilentMessage (s : Session) : Session := s.receiveTcpMessage

def sendIpAndportToServer (s : Session) (endpoint : Endpoint) : Session :=
  let s :=
    { s with kcp := s.kcp.ikcp_send (Session.statusAndData endpoint), currentCmdStatus := .normal }
  receiveTcpFromWifiCilentMessage s

/-- `start`. `nextTime` is what `ikcp_check` answers, `endpoint` the original
destination of the accepted connection. -/
def start (s : Session) (nextTime : UInt32) (endpoint : Endpoint) : Session :=
  sendIpAndportToServer { s with calls := s.calls ++ [.mountTask nextTime] } endpoint

def sendTcpToWifiClientMessage (s : Session) : Option Session := s.sendTcpMessage

def trySendTcpToWifiClientMessage (s : Session) (pair : Packet) : Option Session :=
  let isEmpty := s.tcpDataWaitForSendDeque.items.isEmpty
  let s := s.setDeque (s.tcpDataWaitForSendDeque.pushBack pair)
  if isEmpty then sendTcpToWifiClientMessage s else some s

/-- The handler of the `i`-th outstanding `async_write`: it pops first. -/
def writeHandler (s : Session) (i : Nat) (ec : Bool) : Option Session := do
  let q ← (s.tcpDataWaitForSendDeque.retire i).popFront
  let q := if s.sessionClose then q.clear else q
  let s := s.setDeque q
  if ec then return s.closeSession
  if !q.items.isEmpty then sendTcpToWifiClientMessage s else return s

/-- The `switch` of `tryToReadFromKcp`; the other statuses do nothing. -/
def switchStatus (s : Session) (pair : Packet) : Option Session :=
  if status pair.buffer = CmdStatus.normal.code then trySendTcpToWifiClientMessage s pair
  else some s

def tryToReadFromKcp (s : Session) (old : Nat → List UInt8) : Option Session :=
  readLoop Session.ikcpRecv switchStatus old s.kcp.rcvQueue s

def inputToKcp (s : Session) (len : Int) (input : KcpInput) (old : Nat → List UInt8) :
    Option Session :=
  if s.sessionClose then some s
  else (tryToReadFromKcp (s.ikcpInput len input) old).map Session.resumeTraffic

/-- A home session starts no connect. -/
def handle (s : Session) : Session.Event → Option Session
  | .readDone i result => some (s.readDone i result)
  | .readHandler i result => some (s.receiveHandler i result)
  | .writeDone i ok => some (s.writeDone i ok)
  | .writeHandler i ec => writeHandler s i ec
  | .connectDone i ok => some (s.connectDone i ok)
  | .connectHandler _ _ => some s
  | .inputToKcp len input old => inputToKcp s len input old
  | .closeSession => some s.closeSession

def SessionStep (s : Session) (e : Session.Event) (s' : Session) : Prop :=
  s.Enabled e ∧ handle s e = some s'

def next (s : Session) (e : Session.Event) : Option Session :=
  if s.Enabled e then handle s e else none

theorem step_of_next {s s' : Session} {e : Session.Event} (h : next s e = some s') :
    SessionStep s e s' := by
  unfold next at h
  split at h
  · exact ⟨‹_›, h⟩
  · cases h

end TransparentProxyNet.Home
