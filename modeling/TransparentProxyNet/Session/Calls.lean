import TransparentProxyNet.Lib.View
import TransparentProxyNet.Session.WriteQueue

/-! What a session has asked of its worker makes no difference to what it does next. -/
namespace TransparentProxyNet
open View

/-- The session without the calls it has collected. -/
def Session.silent (s : Session) : Session := { s with calls := [] }

def Vps.Session.silent (s : Session) : Session := s.lift (·.silent)

namespace Session

theorem silent_eq {s t : Session} (alike : s.silent = t.silent) :
    ∃ calls, s = { t with calls } := by
  refine ⟨s.calls, ?_⟩
  calc s = { s.silent with calls := s.calls } := rfl
    _ = { t.silent with calls := s.calls } := by rw [alike]
    _ = { t with calls := s.calls } := rfl

/-- Functions that do the same whatever calls there are. -/
theorem blind_of_calls {h : Session → Session}
    (same : ∀ t calls, (h { t with calls }).silent = (h t).silent) :
    ∀ s t, s.silent = t.silent → (h s).silent = (h t).silent := by
  intro s t alike
  obtain ⟨calls, rfl⟩ := silent_eq alike
  exact same t calls

theorem silent_enabled {s t : Session} (alike : s.silent = t.silent) (e : Event) :
    s.Enabled e ↔ t.Enabled e := by
  obtain ⟨calls, rfl⟩ := silent_eq alike
  cases e <;> rfl

theorem silent_closeSession : ∀ s t : Session, s.silent = t.silent →
    s.closeSession.silent = t.closeSession.silent := by
  apply blind_of_calls
  intro t calls
  unfold closeSession
  split <;> rfl

theorem silent_checkTrafficStatus : ∀ s t : Session, s.silent = t.silent →
    s.checkTrafficStatus.silent = t.checkTrafficStatus.silent := by
  apply blind_of_calls
  intro t calls
  unfold checkTrafficStatus
  split <;> rfl

theorem silent_resumeTraffic : ∀ s t : Session, s.silent = t.silent →
    s.resumeTraffic.silent = t.resumeTraffic.silent := by
  apply blind_of_calls
  intro t calls
  unfold resumeTraffic
  split <;> rfl

theorem silent_receiveHandler (i : Nat) (result : ReadResult) :
    ∀ s t : Session, s.silent = t.silent →
      (s.receiveHandler i result).silent = (t.receiveHandler i result).silent := by
  intro s t alike
  obtain ⟨calls, rfl⟩ := silent_eq alike
  cases result with
  | eof => exact silent_closeSession _ _ rfl
  | error => exact silent_closeSession _ _ rfl
  | data bytes =>
      simp only [receiveHandler]
      split
      · rfl
      · exact silent_checkTrafficStatus _ _ rfl

theorem silent_ikcpRecv (size : Nat) : ∀ s t : Session, s.silent = t.silent →
    (s.ikcpRecv size).silent = (t.ikcpRecv size).silent :=
  blind_of_calls fun _ _ => rfl

/-- A deque that the calls do not decide. -/
theorem silent_setDeque {s t : Session} (alike : s.silent = t.silent)
    {deque deque' : Option (Pump.Queue Packet)} (same : deque = deque') :
    (deque.map s.setDeque).map silent = (deque'.map t.setDeque).map silent := by
  obtain ⟨calls, rfl⟩ := silent_eq alike
  rw [same, Option.map_map, Option.map_map]
  rfl

/-- The loop, if neither of the functions it calls looks at what `f` hides. -/
theorem blind_readLoop {S κ : Type} {f : S → κ} {recv : S → Nat → S}
    {switch : S → Packet → Option S} (old : Nat → List UInt8)
    (received : ∀ size s t, f s = f t → f (recv s size) = f (recv t size))
    (switched : ∀ pair, Blind f (switch · pair)) (queue : List (List UInt8)) :
    Blind f (readLoop recv switch old queue) := by
  induction queue with
  | nil => exact fun s t alike => congrArg some alike
  | cons message queue ih =>
      intro s t alike
      simp only [readLoop]
      split
      · exact congrArg some alike
      · exact (switched _).bind ih _ _ (received _ s t alike)

end Session

namespace Home
open TransparentProxyNet.Session (silent silent_eq)

theorem blind_switchStatus (pair : Packet) : Blind silent (switchStatus · pair) := by
  intro s t alike
  obtain ⟨calls, rfl⟩ := silent_eq alike
  simp only [switchStatus, trySendTcpToWifiClientMessage, sendTcpToWifiClientMessage]
  split
  · have deque := Session.silent_setDeque alike
      (rfl : t.tcpDataWaitForSendDeque.submit pair t.outcome = _)
    rw [← t.push_eq] at deque
    exact (congrArg (Option.map silent) (Session.push_eq { t with calls } pair)).trans deque
  · rfl

theorem blind_inputToKcp (len : Int) (input : KcpInput) (old : Nat → List UInt8) :
    Blind silent (inputToKcp · len input old) := by
  intro s t alike
  have loop := Session.blind_readLoop old Session.silent_ikcpRecv blind_switchStatus
    (t.ikcpInput len input).kcp.rcvQueue
  have fed : (s.ikcpInput len input).silent = (t.ikcpInput len input).silent := by
    obtain ⟨calls, rfl⟩ := silent_eq alike
    rfl
  have run := loop.map Session.silent_resumeTraffic _ _ fed
  obtain ⟨calls, rfl⟩ := silent_eq alike
  simp only [inputToKcp, tryToReadFromKcp]
  split
  · rfl
  · exact run

theorem blind_writeHandler (i : Nat) (ec : Bool) : Blind silent (writeHandler · i ec) := by
  intro s t alike
  obtain ⟨calls, rfl⟩ := silent_eq alike
  simp only [writeHandler_eq]
  cases (t.tcpDataWaitForSendDeque.retire i).popFront with
  | none => rfl
  | some q =>
      cases ec with
      | true => exact congrArg some (Session.silent_closeSession _ _ rfl)
      | false => exact Session.silent_setDeque alike rfl

theorem blind_handle (e : TransparentProxyNet.Session.Event) : Blind silent (handle · e) := by
  intro s t alike
  cases e with
  | readDone i result =>
      obtain ⟨calls, rfl⟩ := silent_eq alike
      rfl
  | readHandler i result => exact congrArg some (Session.silent_receiveHandler i result s t alike)
  | writeDone i ok =>
      obtain ⟨calls, rfl⟩ := silent_eq alike
      rfl
  | writeHandler i ec => exact blind_writeHandler i ec s t alike
  | connectDone i ok =>
      obtain ⟨calls, rfl⟩ := silent_eq alike
      rfl
  | connectHandler i ec => exact congrArg some alike
  | inputToKcp len input old => exact blind_inputToKcp len input old s t alike
  | closeSession => exact congrArg some (Session.silent_closeSession s t alike)

end Home

namespace Vps
open TransparentProxyNet.Vps.Session (silent)

namespace Session

theorem silent_eq {s t : Session} (alike : s.silent = t.silent) :
    ∃ calls, s = { t with calls } := by
  refine ⟨s.calls, ?_⟩
  calc s = { s.silent with calls := s.calls } := rfl
    _ = { t.silent with calls := s.calls } := by rw [alike]
    _ = { t with calls := s.calls } := rfl

/-- What both classes do, done by sessions of this one. -/
theorem silent_lift {h : TransparentProxyNet.Session → TransparentProxyNet.Session}
    (same : ∀ s t, s.silent = t.silent → (h s).silent = (h t).silent) :
    ∀ s t : Session, s.silent = t.silent → (s.lift h).silent = (t.lift h).silent := by
  intro s t alike
  obtain ⟨calls, rfl⟩ := silent_eq alike
  have inner := same { t.toSession with calls } t.toSession rfl
  change { t with toSession := (h { t.toSession with calls }).silent } =
    { t with toSession := (h t.toSession).silent }
  rw [inner]

theorem silent_setDeque {s t : Session} (alike : s.silent = t.silent)
    {deque deque' : Option (Pump.Queue Packet)} (same : deque = deque') :
    (deque.map fun q => s.lift (·.setDeque q)).map silent =
      (deque'.map fun q => t.lift (·.setDeque q)).map silent := by
  obtain ⟨calls, rfl⟩ := silent_eq alike
  rw [same, Option.map_map, Option.map_map]
  rfl

end Session

theorem blind_switchStatus (pair : Packet) : Blind silent (switchStatus · pair) := by
  intro s t alike
  obtain ⟨calls, rfl⟩ := Session.silent_eq alike
  simp only [switchStatus]
  split
  · split <;> rfl
  · split
    · rw [trySend_eq, trySend_eq]
      split
      · exact Session.silent_setDeque alike rfl
      · rfl
    · rfl

theorem blind_inputToKcp (len : Int) (input : KcpInput) (old : Nat → List UInt8) :
    Blind silent (inputToKcp · len input old) := by
  intro s t alike
  have received : ∀ size s t, silent s = silent t →
      silent (ikcpRecv s size) = silent (ikcpRecv t size) := fun size =>
    Session.silent_lift (TransparentProxyNet.Session.silent_ikcpRecv size)
  have loop := TransparentProxyNet.Session.blind_readLoop old received blind_switchStatus
    (t.lift (·.ikcpInput len input)).kcp.rcvQueue
  have resumed := loop.map
    (Session.silent_lift TransparentProxyNet.Session.silent_resumeTraffic)
  obtain ⟨calls, rfl⟩ := Session.silent_eq alike
  have run := resumed (Session.lift (·.ikcpInput len input) { t with calls })
    (t.lift (·.ikcpInput len input)) rfl
  simp only [inputToKcp, tryToReadFromKcp]
  split
  · rfl
  · exact run

theorem blind_writeHandler (i : Nat) (ec : Bool) : Blind silent (writeHandler · i ec) := by
  intro s t alike
  obtain ⟨calls, rfl⟩ := Session.silent_eq alike
  beta_reduce
  rw [writeHandler_eq, writeHandler_eq]
  cases ec with
  | true =>
      exact congrArg some
        (Session.silent_lift TransparentProxyNet.Session.silent_closeSession _ _ rfl)
  | false =>
      simp only [Bool.false_eq_true, if_false, Option.map_bind]
      congr 1
      funext q
      exact Session.silent_setDeque alike rfl

theorem blind_connectHandler (i : Nat) (ec : Bool) : Blind silent (connectHandler · i ec) := by
  intro s t alike
  obtain ⟨calls, rfl⟩ := Session.silent_eq alike
  cases ec with
  | true => rfl
  | false =>
      beta_reduce
      rw [connectHandler_eq, connectHandler_eq]
      have opened : (connected { { t with calls } with connects := t.connects.eraseIdx i }).silent =
          (connected { t with connects := t.connects.eraseIdx i }).silent := rfl
      exact Session.silent_setDeque opened rfl

theorem blind_handle (e : TransparentProxyNet.Session.Event) : Blind silent (handle · e) := by
  intro s t alike
  cases e with
  | readDone i result =>
      obtain ⟨calls, rfl⟩ := Session.silent_eq alike
      rfl
  | readHandler i result =>
      exact congrArg some (Session.silent_lift
        (TransparentProxyNet.Session.silent_receiveHandler i result) s t alike)
  | writeDone i ok =>
      obtain ⟨calls, rfl⟩ := Session.silent_eq alike
      rfl
  | writeHandler i ec => exact blind_writeHandler i ec s t alike
  | connectDone i ok =>
      obtain ⟨calls, rfl⟩ := Session.silent_eq alike
      rfl
  | connectHandler i ec => exact blind_connectHandler i ec s t alike
  | inputToKcp len input old => exact blind_inputToKcp len input old s t alike
  | closeSession =>
      exact congrArg some
        (Session.silent_lift TransparentProxyNet.Session.silent_closeSession s t alike)

end Vps
end TransparentProxyNet
