import TransparentProxyNet.Lib.Machine
import TransparentProxyNet.Session.Home
import TransparentProxyNet.Session.Vps

/-! A session of the home side and the session of the VPS side with the same id, joined
by KCP in both directions. KCP is taken to be reliable and ordered: what it puts
together on one side continues what it was given on the other. -/
namespace TransparentProxyNet
open Machine

/-- The message that the read handlers make of the bytes read. -/
def normalMessage (bytes : List UInt8) : List UInt8 := CmdStatus.normal.bytes ++ bytes

/-- The bytes carried by the messages of status `normal`. -/
def contents (messages : List (List UInt8)) : List (List UInt8) :=
  (messages.filter fun message => Session.status message = CmdStatus.normal.code).map
    (·.drop cmdStatusSize)

namespace Session

/-- An event before the first close or error. Messages come in by way of the tunnel. -/
def Faultless : Event → Prop
  | .readDone _ result | .readHandler _ result => ∃ bytes, result = .data bytes
  | .writeDone _ ok | .connectDone _ ok => ok = true
  | .writeHandler _ ec | .connectHandler _ ec => ec = false
  | .inputToKcp _ _ _ | .closeSession => False

instance (e : Event) : Decidable (Faultless e) :=
  match e with
  | .readDone _ (.data bytes) | .readHandler _ (.data bytes) => isTrue ⟨bytes, rfl⟩
  | .readDone _ .eof | .readDone _ .error | .readHandler _ .eof | .readHandler _ .error =>
      isFalse (by rintro ⟨_, ⟨⟩⟩)
  | .writeDone _ ok | .connectDone _ ok => inferInstanceAs (Decidable (ok = true))
  | .writeHandler _ ec | .connectHandler _ ec => inferInstanceAs (Decidable (ec = false))
  | .inputToKcp _ _ _ | .closeSession => inferInstanceAs (Decidable False)

def ReadResult.bytes : ReadResult → List UInt8
  | .data bytes => bytes
  | _ => []

/-- What an event brings out of the TCP socket. -/
def Event.bytesRead : Event → List UInt8
  | .readDone _ result => ReadResult.bytes result
  | _ => []

/-- What has been read and waits for its handler. -/
def unsent (s : Session) : List UInt8 :=
  s.reads.flatMap fun result => (result.map ReadResult.bytes).getD []

/-- All bytes `async_write` has been given. -/
def submitted (s : Session) : List UInt8 :=
  (s.tcpDataWaitForSendDeque.started.map assistPoint).flatten

end Session

/-- `toVps` and `toHome` are the messages delivered to the two sides so far, `homeRead`
and `vpsRead` the bytes that reads of the two TCP sockets have brought. -/
structure Tunnel where
  home : Home.Session
  vps : Vps.Session
  toVps : List (List UInt8)
  toHome : List (List UInt8)
  homeRead : List UInt8
  vpsRead : List UInt8

namespace Tunnel

/-- Both sides as their `start` leaves them. -/
def start (sessionId : SessionId) (homeNext vpsNext : UInt32)
    (endpoint homeClienEndpoint : Endpoint) : Tunnel where
  home := Home.start (.create sessionId) homeNext endpoint
  vps := Vps.start (.create sessionId homeClienEndpoint) vpsNext
  toVps := []
  toHome := []
  homeRead := []
  vpsRead := []

/-- An event of one side, or the input of a datagram that completes the messages
`arrived` on the other. -/
inductive Event where
  | home (e : Session.Event)
  | vps (e : Session.Event)
  | toVps (len : Int) (acked : Nat) (arrived : List (List UInt8)) (old : Nat → List UInt8)
  | toHome (len : Int) (acked : Nat) (arrived : List (List UInt8)) (old : Nat → List UInt8)

/-- A datagram that KCP rejects completes no message. -/
def Deliverable (sent delivered : List (List UInt8)) (len : Int) (arrived : List (List UInt8)) :
    Prop :=
  delivered ++ arrived <+: sent ∧ (arrived = [] ∨ 24 ≤ len)

instance (sent delivered : List (List UInt8)) (len : Int) (arrived : List (List UInt8)) :
    Decidable (Deliverable sent delivered len arrived) := inferInstanceAs (Decidable (_ ∧ _))

def Enabled (t : Tunnel) : Event → Prop
  | .home e => Session.Faultless e ∧ t.home.Enabled e
  | .vps e => Session.Faultless e ∧ t.vps.toSession.Enabled e
  | .toVps len _ arrived _ => Deliverable t.home.kcp.sent t.toVps len arrived
  | .toHome len _ arrived _ => Deliverable t.vps.kcp.sent t.toHome len arrived

instance (t : Tunnel) (e : Event) : Decidable (t.Enabled e) := by
  cases e <;> unfold Enabled <;> infer_instance

def handle (t : Tunnel) : Event → Option Tunnel
  | .home e => (Home.handle t.home e).map fun s =>
      { t with home := s, homeRead := t.homeRead ++ e.bytesRead }
  | .vps e => (Vps.handle t.vps e).map fun s =>
      { t with vps := s, vpsRead := t.vpsRead ++ e.bytesRead }
  | .toVps len acked arrived old =>
      (Vps.inputToKcp t.vps len ⟨acked, arrived⟩ old).map fun s =>
        { t with vps := s, toVps := t.toVps ++ arrived }
  | .toHome len acked arrived old =>
      (Home.inputToKcp t.home len ⟨acked, arrived⟩ old).map fun s =>
        { t with home := s, toHome := t.toHome ++ arrived }

def Step (t : Tunnel) (e : Event) (t' : Tunnel) : Prop := t.Enabled e ∧ t.handle e = some t'

def next (t : Tunnel) (e : Event) : Option Tunnel := if t.Enabled e then t.handle e else none

theorem step_of_next {t t' : Tunnel} {e : Event} (h : next t e = some t') : Step t e t' := by
  unfold next at h
  split at h
  · exact ⟨‹_›, h⟩
  · cases h

end Tunnel

/-! ### The messages -/

theorem bytes_length (c : CmdStatus) : c.bytes.length = 4 := BigEndian.encode_length 4 _

theorem status_bytes (c : CmdStatus) (rest : List UInt8) :
    Session.status (c.bytes ++ rest) = c.code := by
  have small : c.code < 256 ^ 4 := by cases c <;> decide
  rw [Session.status, List.take_left' (bytes_length c), CmdStatus.bytes,
    BigEndian.decode_encode small]

theorem status_normalMessage (bytes rest : List UInt8) :
    Session.status (normalMessage bytes ++ rest) = CmdStatus.normal.code := by
  rw [normalMessage, List.append_assoc, status_bytes]

theorem status_statusAndData (endpoint : Endpoint) (rest : List UInt8) :
    Session.status (Session.statusAndData endpoint ++ rest) = CmdStatus.newSession.code := by
  rw [Session.statusAndData, List.append_assoc, List.append_assoc, status_bytes]

/-- The VPS side decodes the endpoint that the home side has encoded. -/
theorem ipAndPort_statusAndData (endpoint : Endpoint) (rest : List UInt8) :
    Session.ipAndPort (Session.statusAndData endpoint ++ rest) = endpoint := by
  obtain ⟨ip, port⟩ := endpoint
  have message : Session.statusAndData ⟨ip, port⟩ ++ rest =
      CmdStatus.newSession.bytes ++
        (BigEndian.encode 4 ip.toNat ++ (BigEndian.encode 2 port.toNat ++ rest)) := by
    simp only [Session.statusAndData, List.append_assoc]
  have behindStatus : (Session.statusAndData ⟨ip, port⟩ ++ rest).drop 4 =
      BigEndian.encode 4 ip.toNat ++ (BigEndian.encode 2 port.toNat ++ rest) := by
    rw [message, List.drop_left' (bytes_length _)]
  have behindIp : (Session.statusAndData ⟨ip, port⟩ ++ rest).drop 8 =
      BigEndian.encode 2 port.toNat ++ rest := by
    calc (Session.statusAndData ⟨ip, port⟩ ++ rest).drop (4 + 4)
      _ = (BigEndian.encode 4 ip.toNat ++ (BigEndian.encode 2 port.toNat ++ rest)).drop 4 := by
        rw [← List.drop_drop, behindStatus]
      _ = BigEndian.encode 2 port.toNat ++ rest := List.drop_left' (BigEndian.encode_length 4 _)
  rw [Session.ipAndPort, behindStatus, behindIp, List.take_left' (BigEndian.encode_length 4 _),
    List.take_left' (BigEndian.encode_length 2 _), BigEndian.decode_encode ip.toNat_lt,
    BigEndian.decode_encode port.toNat_lt, UInt32.ofNat_toNat, UInt16.ofNat_toNat]

/-- No byte of the status goes to `async_write`. -/
theorem assistPoint_normalMessage (bytes rest : List UInt8) :
    Session.assistPoint ⟨normalMessage bytes ++ rest, (normalMessage bytes).length⟩ = bytes := by
  have size : ((normalMessage bytes).length - cmdStatusSize : Int).toNat = bytes.length := by
    simp [normalMessage, CmdStatus.bytes, cmdStatusSize]
  have behindStatus : (normalMessage bytes ++ rest).drop cmdStatusSize = bytes ++ rest := by
    rw [normalMessage, List.append_assoc]
    exact List.drop_left' (bytes_length _)
  rw [Session.assistPoint, behindStatus, size, List.take_left]

theorem contents_append (xs ys : List (List UInt8)) :
    contents (xs ++ ys) = contents xs ++ contents ys := by
  rw [contents, List.filter_append, List.map_append]
  rfl

theorem contents_normalMessage (bytes : List UInt8) : contents [normalMessage bytes] = [bytes] := by
  have normal := status_normalMessage bytes []
  rw [List.append_nil] at normal
  rw [contents, List.filter_cons_of_pos (by simp [normal]), List.filter_nil, List.map_singleton,
    normalMessage]
  exact congrArg (fun bytes => [bytes]) (List.drop_left' (bytes_length _))

theorem contents_statusAndData (endpoint : Endpoint) :
    contents [Session.statusAndData endpoint] = [] := by
  have opening := status_statusAndData endpoint []
  rw [List.append_nil] at opening
  rw [contents, List.filter_cons_of_neg (by simp [opening, CmdStatus.code]), List.filter_nil,
    List.map_nil]

theorem contents_normalMessages (payloads : List (List UInt8)) :
    contents (payloads.map normalMessage) = payloads := by
  induction payloads with
  | nil => rfl
  | cons bytes payloads ih =>
      rw [List.map_cons, ← List.singleton_append, contents_append, contents_normalMessage, ih,
        List.singleton_append]

theorem contents_mono {xs ys : List (List UInt8)} (h : xs <+: ys) : contents xs <+: contents ys :=
  (h.filter _).map _

end TransparentProxyNet
