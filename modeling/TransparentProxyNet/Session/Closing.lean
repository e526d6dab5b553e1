import TransparentProxyNet.Session.Flow

/-! What closes a session: its own handlers of reads and writes, when they are given an
error, and nothing else. -/
namespace TransparentProxyNet

namespace Session

/-- The handler of a read or a write runs with an error; the end of a stream is one. -/
def Fails : Event → Prop
  | .readHandler _ .eof | .readHandler _ .error => True
  | .writeHandler _ ec => ec = true
  | _ => False

def Closes (e : Event) : Prop := Fails e ∨ e = .closeSession

theorem receiveHandler_closed (s : Session) (i : Nat) (result : ReadResult) :
    (s.receiveHandler i result).sessionClose = true ↔
      s.sessionClose = true ∨ Closes (.readHandler i result) := by
  cases result with
  | eof => simp [receiveHandler, Closes, Fails]
  | error => simp [receiveHandler, Closes, Fails]
  | data bytes =>
      simp only [receiveHandler, Closes, Fails]
      split <;> simp

end Session

namespace Home
open TransparentProxyNet.Session (Closes Fails)

variable {s t : Session}

theorem inputToKcp_sessionClose {len : Int} {input : KcpInput} {old : Nat → List UInt8}
    (handled : inputToKcp s len input old = some t) : t.sessionClose = s.sessionClose := by
  rcases inputToKcp_cases handled with ⟨-, rfl⟩ | ⟨-, rest, u, -, reading, rfl⟩
  · rfl
  · exact u.resumeTraffic_sessionClose.trans reading.sessionClose

theorem handle_closed {e : Session.Event} (handled : handle s e = some t) :
    t.sessionClose = true ↔ s.sessionClose = true ∨ Closes e := by
  cases e with
  | readHandler i result =>
      cases handled
      exact s.receiveHandler_closed i result
  | writeHandler i ec =>
      rw [handle, writeHandler_eq] at handled
      obtain ⟨q, -, rest⟩ := Option.bind_eq_some_iff.mp handled
      cases ec with
      | true =>
          cases rest
          simp [Closes, Fails]
      | false =>
          obtain ⟨q', -, rfl⟩ := Option.map_eq_some_iff.mp rest
          simp [Closes, Fails]
  | inputToKcp len input old => simp [inputToKcp_sessionClose handled, Closes, Fails]
  | closeSession =>
      cases handled
      simp [Closes]
  | _ =>
      cases handled
      simp [Closes, Fails, TransparentProxyNet.Session.readDone,
        TransparentProxyNet.Session.writeDone, TransparentProxyNet.Session.connectDone]

end Home

namespace Vps
open TransparentProxyNet.Session (Closes Fails)

variable {s t : Session}

theorem inputToKcp_sessionClose {len : Int} {input : KcpInput} {old : Nat → List UInt8}
    (handled : inputToKcp s len input old = some t) : t.sessionClose = s.sessionClose := by
  rcases inputToKcp_cases handled with ⟨-, rfl⟩ | ⟨-, rest, u, -, reading, rfl⟩
  · rfl
  · exact u.toSession.resumeTraffic_sessionClose.trans reading.sessionClose

theorem handle_closed {e : TransparentProxyNet.Session.Event} (handled : handle s e = some t) :
    t.sessionClose = true ↔ s.sessionClose = true ∨ Closes e := by
  cases e with
  | readHandler i result =>
      cases handled
      exact s.toSession.receiveHandler_closed i result
  | writeHandler i ec =>
      rw [handle, writeHandler_eq] at handled
      cases ec with
      | true =>
          cases handled
          simp [Closes, Fails, Session.lift]
      | false =>
          obtain ⟨q, -, rest⟩ := Option.bind_eq_some_iff.mp handled
          obtain ⟨q', -, rfl⟩ := Option.map_eq_some_iff.mp rest
          simp [Closes, Fails, Session.lift]
  | connectHandler i ec =>
      cases ec with
      | true =>
          cases handled
          simp [Closes, Fails]
      | false =>
          rw [handle, connectHandler_eq] at handled
          obtain ⟨q, -, rfl⟩ := Option.map_eq_some_iff.mp handled
          simp [Closes, Fails, Session.lift, connected, receiveTcpFromTargetServerMessage,
            TransparentProxyNet.Session.receiveTcpMessage]
  | inputToKcp len input old => simp [inputToKcp_sessionClose handled, Closes, Fails]
  | closeSession =>
      cases handled
      simp [Closes, Session.lift]
  | _ =>
      cases handled
      simp [Closes, Fails, Session.lift, TransparentProxyNet.Session.readDone,
        TransparentProxyNet.Session.writeDone, TransparentProxyNet.Session.connectDone]

end Vps
end TransparentProxyNet
