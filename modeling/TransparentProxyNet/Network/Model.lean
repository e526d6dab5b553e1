import TransparentProxyNet.Tunnel.Closing
import TransparentProxyNet.Worker.ReceiveErrors
import TransparentProxyNet.Worker.Sessions

/-! Home workers and the VPS worker that their UDP sockets lead to. Each home worker has a
socket of its own, and so an address of its own; the VPS worker serves all of them. The
network loses, repeats and reorders datagrams, but makes up none.

KCP is what each session has in place of a transport: the session hands it messages, it
outputs segments, and it puts messages together of the segments it is fed. -/
namespace TransparentProxyNet
open Machine

/-- What has passed through a session: the segments its KCP has output, the segments that
were given to it, the messages it has made of them, and the bytes its TCP socket brought. -/
structure History where
  output : List (List UInt8)
  input : List (List UInt8)
  delivered : List (List UInt8)
  read : List UInt8

namespace History

def empty : History := ⟨[], [], [], []⟩

def outputs (h : History) (buf : List UInt8) : History := { h with output := h.output ++ [buf] }

def reads (h : History) (bytes : List UInt8) : History := { h with read := h.read ++ bytes }

def feeds (h : History) (data : List UInt8) (arrived : List (List UInt8)) : History :=
  { h with input := h.input ++ [data], delivered := h.delivered ++ arrived }

end History

abbrev Histories := SessionId → History

def Histories.note (h : Histories) (sessionId : SessionId) (f : History → History) : Histories :=
  Function.update h sessionId (f (h sessionId))

theorem Histories.note_self (h : Histories) (sessionId : SessionId) (f : History → History) :
    h.note sessionId f sessionId = f (h sessionId) := Function.update_self ..

theorem Histories.note_other {sessionId id : SessionId} (apart : id ≠ sessionId) (h : Histories)
    (f : History → History) : h.note sessionId f id = h id := Function.update_of_ne apart ..

namespace Worker
variable {S α : Type}

/-- What a worker does without a datagram. EVP does not fail, and no segment is longer
than the MTU that the sessions set. -/
inductive OwnStep [Served S] (A : AesGcm) (other : Int → Fin 4)
    (handle : S → Session.Event → Option S) (addressed : S → Packet → α) :
    Worker S α → Histories → Event → Worker S α → Histories → Prop
  | session {w h this s e w'} : w.sessions this = some s →
      CommonStep A other handle addressed w (.session this e) w' →
      OwnStep A other handle addressed w h (.session this e) w'
        (h.note (base s).sessionId (·.reads e.bytesRead))
  | kcpCallBack {w h this s key iv w'} {buf : List UInt8}
      (node : Bytes (payloadSize other (buf.length + bufferPaddingSize))) :
      w.sessions this = some s → buf.length ≤ 1250 →
      w.kcpCallBack A addressed (.success key iv) this node buf = some w' →
      OwnStep A other handle addressed w h (.kcpCallBack this buf) w'
        (h.note (base s).sessionId (·.outputs buf))
  | sent {w h i ec w'} : CommonStep A other handle addressed w (.sent i ec) w' →
      OwnStep A other handle addressed w h (.sent i ec) w' h
  | doCurrentTimeWheel {w h now nextTime w'} :
      CommonStep A other handle addressed w (.doCurrentTimeWheel now nextTime) w' →
      OwnStep A other handle addressed w h (.doCurrentTimeWheel now nextTime) w' h

/-- It is one of the steps that both programs have. -/
theorem OwnStep.common [Served S] {A : AesGcm} {other : Int → Fin 4}
    {handle : S → Session.Event → Option S} {addressed : S → Packet → α} {w w' : Worker S α}
    {h h' : Histories} {e : Event} (step : OwnStep A other handle addressed w h e w' h') :
    CommonStep A other handle addressed w e w' := by
  cases step with
  | session _ step => exact step
  | kcpCallBack node _ _ called => exact .kcpCallBack node called
  | sent step => exact step
  | doCurrentTimeWheel step => exact step

end Worker

/-- `homeHistory` and `vpsHistory` are those of the sessions with each id. -/
structure Network (ι : Type) where
  home : ι → Home.Worker
  vps : Vps.Worker
  homeHistory : Histories
  vpsHistory : Histories

namespace Network
variable {ι : Type}

/-- What KCP promises: fed with nothing but what its peer has output, it puts together the
messages that its peer was given, one after the other. -/
def Reliable (peer : Session) (output : List (List UInt8)) (h : History) (data : List UInt8)
    (len : Int) (arrived : List (List UInt8)) : Prop :=
  (∀ x ∈ h.input ++ [data], x ∈ output) →
    Tunnel.Deliverable peer.kcp.sent h.delivered len arrived

inductive Event (ι : Type) where
  | home (i : ι) (e : Worker.Event)
  | vps (e : Worker.Event)

/-- Every step is one of one worker. An id that `getrandom` gives is new on all of them,
and what is received is a datagram that the other side has started to send. -/
inductive Step [DecidableEq ι] (A : AesGcm) (other : Int → Fin 4) (address : ι → Endpoint) :
    Network ι → Event ι → Network ι → Prop
  | home {n i e w h} :
      Worker.OwnStep A other Home.handle (fun _ pair => pair) (n.home i) n.homeHistory e w h →
      Step A other address n (.home i e)
        { n with home := Function.update n.home i w, homeHistory := h }
  | vps {n e w h} :
      Worker.OwnStep A other Vps.handle (fun s pair => (s.homeClienEndpoint, pair)) n.vps
        n.vpsHistory e w h →
      Step A other address n (.vps e) { n with vps := w, vpsHistory := h }
  | registerSession {n i this randomId w} : (∀ j, (n.home j).sessionMap randomId = none) →
      Home.Step A other (n.home i) (.registerSession this randomId) w →
      Step A other address n (.home i (.registerSession this randomId))
        { n with home := Function.update n.home i w }
  | homeError {n i w} : Home.Step A other (n.home i) (.receive true []) w →
      Step A other address n (.home i (.receive true []))
        { n with home := Function.update n.home i w }
  | vpsError {n w} : Vps.Step A other n.vps (.receive true []) w →
      Step A other address n (.vps (.receive true [])) { n with vps := w }
  | homeReceive {n i pair v buf segment calls w} :
      (address i, pair) ∈ n.vps.udpSocketWaitForSendDeque.started → 0 < (n.home i).receives →
      (n.home i).arrive (datagram pair) = some v → calls.decrypt = .success →
      v.segment A ((datagram pair).take bufferSize).length calls.decrypt = some (buf, segment) →
      (∀ s, n.vps.lookup segment.sessionId = some s →
        Reliable s.toSession (n.vpsHistory segment.sessionId).output
          (n.homeHistory segment.sessionId) segment.data segment.len
          (calls.ikcp segment.data).arrived) →
      Home.receiveHandler A v false ((datagram pair).take bufferSize).length calls = some w →
      Step A other address n (.home i (.receive false (datagram pair)))
        { n with
          home := Function.update n.home i w
          homeHistory := n.homeHistory.note segment.sessionId
            (·.feeds segment.data (calls.ikcp segment.data).arrived) }
  | vpsReceive {n i pair v buf segment calls new w} :
      pair ∈ (n.home i).udpSocketWaitForSendDeque.started → new.homeClienEndpoint = address i →
      0 < n.vps.receives → n.vps.arrive (datagram pair) = some v → n.vps.sessions new.this = none →
      calls.decrypt = .success →
      v.segment A ((datagram pair).take bufferSize).length calls.decrypt = some (buf, segment) →
      (∀ j s, (n.home j).lookup segment.sessionId = some s →
        Reliable s (n.homeHistory segment.sessionId).output (n.vpsHistory segment.sessionId)
          segment.data segment.len (calls.ikcp segment.data).arrived) →
      Vps.receiveHandler A v false ((datagram pair).take bufferSize).length calls new = some w →
      Step A other address n (.vps (.receive false (datagram pair)))
        { n with
          vps := w
          vpsHistory := n.vpsHistory.note segment.sessionId
            (·.feeds segment.data (calls.ikcp segment.data).arrived) }

/-- All workers have just started. -/
def Start (n : Network ι) : Prop :=
  (∀ i, (n.home i).Started) ∧ n.vps.Started ∧ (∀ sessionId, n.homeHistory sessionId = .empty) ∧
    ∀ sessionId, n.vpsHistory sessionId = .empty

end Network
end TransparentProxyNet
