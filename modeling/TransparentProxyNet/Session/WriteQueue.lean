import TransparentProxyNet.Session.Home
import TransparentProxyNet.Session.Vps

/-! The TCP write queue when closing races with writes that have just completed. -/
namespace TransparentProxyNet
open Machine Pump

namespace Session

/-- The write that has completed was for the front element of the deque. -/
def OwnFront (s : Session) : Event → Prop
  | .writeHandler i _ => ∀ op, s.tcpDataWaitForSendDeque.pending[i]? = some op →
      s.tcpDataWaitForSendDeque.items.head? = some op.item
  | _ => True

theorem OwnFront.of_settled {s : Session} (h : s.tcpDataWaitForSendDeque.Settled) (e : Event) :
    s.OwnFront e := by
  cases e with
  | writeHandler i ec =>
      intro op run
      obtain ⟨-, -, rest, items⟩ := (h.running run).handler run
      rw [items]
      rfl
  | _ => exact trivial

/-- The writes of an open session are pumped; those of a closed one may have stopped. -/
structure Pumping (s : Session) : Prop where
  running : s.sessionClose = false → s.tcpDataWaitForSendDeque.Running
  settled : s.tcpDataWaitForSendDeque.Settled

theorem Pumping.of_same {s t : Session} (h : s.Pumping)
    (deque : t.tcpDataWaitForSendDeque = s.tcpDataWaitForSendDeque)
    (flag : t.sessionClose = s.sessionClose) :
    t.Pumping := ⟨fun unclosed => deque ▸ h.running (flag ▸ unclosed), deque ▸ h.settled⟩

theorem Pumping.closed {s : Session} (h : s.tcpDataWaitForSendDeque.Settled) :
    s.closeSession.Pumping := by
  refine ⟨by simp, ?_⟩
  rw [closeSession_deque]
  split
  · exact h
  · exact h.abort

theorem Pumping.receiveHandler {s : Session} (h : s.Pumping) (i : Nat) (result : ReadResult) :
    (s.receiveHandler i result).Pumping := by
  rcases s.receiveHandler_cases i result with closed | ⟨deque, flag⟩
  · rw [closed]
    exact .closed h.settled
  · exact h.of_same deque flag

theorem Pumping.writeDone {s : Session} (h : s.Pumping) (i : Nat) (ok : Bool) :
    (s.writeDone i ok).Pumping :=
  ⟨fun unclosed => (h.running unclosed).complete i ok, h.settled.complete i ok⟩

end Session

namespace Home
open TransparentProxyNet.Session (Event Pumping OwnFront readLoop_keeps)

theorem pumping_switch {s : Session}
    (h : s.sessionClose = false ∧ s.tcpDataWaitForSendDeque.Running) (pair : Packet) :
    ∃ s', switchStatus s pair = some s' ∧ s'.sessionClose = false ∧
      s'.tcpDataWaitForSendDeque.Running := by
  unfold switchStatus
  split
  · obtain ⟨q, pushed, running, -, -⟩ := h.2.submit pair s.outcome
    exact ⟨s.setDeque q, (s.push_eq pair).trans (by rw [pushed]; rfl), h.1, running⟩
  · exact ⟨s, rfl, h⟩

theorem pumping_inputToKcp {s : Session} (h : s.Pumping) (len : Int) (input : KcpInput)
    (old : Nat → List UInt8) : ∃ s', inputToKcp s len input old = some s' ∧ s'.Pumping := by
  unfold inputToKcp
  cases flag : s.sessionClose with
  | true => exact ⟨s, rfl, h⟩
  | false =>
      have start : (s.ikcpInput len input).sessionClose = false ∧
          (s.ikcpInput len input).tcpDataWaitForSendDeque.Running := ⟨flag, h.running flag⟩
      obtain ⟨t, left, read, ⟨unclosed, running⟩, -⟩ :
          ∃ t left, tryToReadFromKcp (s.ikcpInput len input) old = some t ∧
          (t.sessionClose = false ∧ t.tcpDataWaitForSendDeque.Running) ∧ Session.Drained left :=
        readLoop_keeps Session.ikcpRecv switchStatus old
          (P := fun _ s => s.sessionClose = false ∧ s.tcpDataWaitForSendDeque.Running)
          (fun message queue s rest kept => pumping_switch (s := s.ikcpRecv message.length) kept _)
          start
      refine ⟨t.resumeTraffic, ?_, fun _ => by simpa using running, .inr (by simpa using running)⟩
      rw [if_neg Bool.false_ne_true, read]
      rfl

theorem writeHandler_eq (s : Session) (i : Nat) (ec : Bool) :
    writeHandler s i ec = (s.tcpDataWaitForSendDeque.retire i).popFront.bind fun q =>
      if ec then some (s.setDeque (if s.sessionClose then q.clear else q)).closeSession
      else (Queue.resume (if s.sessionClose then q.clear else q) s.outcome).map s.setDeque := by
  simp only [writeHandler, Option.bind_eq_bind]
  congr 1
  funext q
  cases ec with
  | true => rfl
  | false => exact (s.setDeque _).resume_eq

/-- Popping first, the handler always finds its own element. -/
theorem pumping_writeHandler {s : Session} (h : s.Pumping) {i : Nat} {op : Op Packet}
    (run : s.tcpDataWaitForSendDeque.pending[i]? = some op) (ec : Bool) :
    ∃ s', writeHandler s i ec = some s' ∧ s'.Pumping := by
  obtain ⟨q, popped, -, still, -⟩ := (h.settled.running run).finish run
  have still' : (if s.sessionClose then q.clear else q).pending = [] := by split <;> exact still
  rw [writeHandler_eq, popped, Option.bind_some]
  cases ec with
  | true => exact ⟨_, rfl, .closed (.inl still')⟩
  | false =>
      obtain ⟨q', resumed, running, -, -⟩ := Pump.resume_running still' s.outcome
      exact ⟨s.setDeque q', by rw [resumed]; rfl, fun _ => running, .inr running⟩

theorem pumping_step {s : Session} (h : s.Pumping) {e : Event} (enabled : s.Enabled e) :
    ∃ s', handle s e = some s' ∧ s'.Pumping := by
  cases e with
  | readDone i result => exact ⟨_, rfl, h.of_same rfl rfl⟩
  | readHandler i result => exact ⟨_, rfl, h.receiveHandler i result⟩
  | writeDone i ok => exact ⟨_, rfl, h.writeDone i ok⟩
  | writeHandler i ec =>
      obtain ⟨op, run, -⟩ := Option.map_eq_some_iff.mp enabled
      exact pumping_writeHandler h run ec
  | connectDone i ok => exact ⟨_, rfl, h.of_same rfl rfl⟩
  | connectHandler i ec => exact ⟨_, rfl, h⟩
  | inputToKcp len input old => exact pumping_inputToKcp h len input old
  | closeSession => exact ⟨_, rfl, .closed h.settled⟩

end Home

namespace Vps
open TransparentProxyNet.Session (Event OwnFront readLoop_keeps)

/-- No write completes with success once the session is closed, and no connect
completes with success while a write is outstanding. -/
def NoLateSuccess (s : Session) : Event → Prop
  | .writeHandler _ ec => s.sessionClose = true → ec = true
  | .connectHandler _ ec => ec = false → s.tcpDataWaitForSendDeque.pending = []
  | _ => True

/-- Writes are pumped from the connect to the close. -/
structure Pumping (s : Session) : Prop where
  waiting : s.enableToSendToTargetServer = false → s.tcpDataWaitForSendDeque.pending = []
  running : s.enableToSendToTargetServer = true → s.sessionClose = false →
    s.tcpDataWaitForSendDeque.Running
  settled : s.tcpDataWaitForSendDeque.Settled

theorem Pumping.of_same {s t : Session} (h : Pumping s)
    (deque : t.tcpDataWaitForSendDeque = s.tcpDataWaitForSendDeque)
    (flag : t.sessionClose = s.sessionClose)
    (enable : t.enableToSendToTargetServer = s.enableToSendToTargetServer) : Pumping t := by
  refine ⟨?_, ?_, deque ▸ h.settled⟩
  · rw [deque, enable]
    exact h.waiting
  · rw [deque, enable, flag]
    exact h.running

theorem Pumping.closed {s : Session} (h : s.tcpDataWaitForSendDeque.Settled)
    (waiting : s.enableToSendToTargetServer = false → s.tcpDataWaitForSendDeque.pending = []) :
    Pumping (s.lift (·.closeSession)) := by
  have deque := s.toSession.closeSession_deque
  refine ⟨?_, by simp [Session.lift], ?_⟩
  · intro off
    change s.toSession.closeSession.tcpDataWaitForSendDeque.pending = []
    rw [deque]
    split
    · exact waiting off
    · rw [Queue.abort, waiting off]
      rfl
  · change s.toSession.closeSession.tcpDataWaitForSendDeque.Settled
    rw [deque]
    split
    · exact h
    · exact h.abort

theorem trySend_eq (s : Session) (pair : Packet) :
    trySendTcpToTargetServerMessage s pair =
      if s.enableToSendToTargetServer then
        (s.tcpDataWaitForSendDeque.submit pair s.outcome).map fun q => s.lift (·.setDeque q)
      else some (s.lift (·.setDeque (s.tcpDataWaitForSendDeque.pushBack pair))) := by
  unfold trySendTcpToTargetServerMessage Queue.submit
  cases s.enableToSendToTargetServer with
  | false => rfl
  | true =>
      cases s.tcpDataWaitForSendDeque.items.isEmpty with
      | false => rfl
      | true =>
          simp [sendTcpToTargetServerMessage, TransparentProxyNet.Session.sendTcpMessage,
            Function.comp_def]
          rfl

theorem pumping_trySend {s : Session} (h : Pumping s) (unclosed : s.sessionClose = false)
    (pair : Packet) :
    ∃ s', trySendTcpToTargetServerMessage s pair = some s' ∧ s'.sessionClose = false ∧
      Pumping s' := by
  rw [trySend_eq]
  cases enable : s.enableToSendToTargetServer with
  | false =>
      have still := h.waiting enable
      refine ⟨_, rfl, unclosed, fun _ => still, ?_, .inl still⟩
      intro on
      cases enable.symm.trans on
  | true =>
      obtain ⟨q, pushed, running, -, -⟩ := (h.running enable unclosed).submit pair s.outcome
      refine ⟨s.lift (·.setDeque q), by rw [if_pos rfl, pushed]; rfl, unclosed, ?_,
        fun _ _ => running, .inr running⟩
      intro off
      cases enable.symm.trans off

theorem pumping_switch {s : Session} (h : s.sessionClose = false ∧ Pumping s) (pair : Packet) :
    ∃ s', switchStatus s pair = some s' ∧ s'.sessionClose = false ∧ Pumping s' := by
  unfold switchStatus
  split
  · split
    · exact ⟨_, rfl, h.1, h.2.of_same rfl rfl rfl⟩
    · exact ⟨s, rfl, h⟩
  · split
    · exact pumping_trySend h.2 h.1 pair
    · exact ⟨s, rfl, h⟩

theorem pumping_inputToKcp {s : Session} (h : Pumping s) (len : Int) (input : KcpInput)
    (old : Nat → List UInt8) : ∃ s', inputToKcp s len input old = some s' ∧ Pumping s' := by
  unfold inputToKcp
  cases flag : s.sessionClose with
  | true => exact ⟨s, rfl, h⟩
  | false =>
      have start : (s.lift (·.ikcpInput len input)).sessionClose = false ∧
          Pumping (s.lift (·.ikcpInput len input)) :=
        ⟨flag, h.of_same rfl rfl rfl⟩
      obtain ⟨t, left, read, ⟨unclosed, kept⟩, -⟩ :
          ∃ t left, tryToReadFromKcp (s.lift (·.ikcpInput len input)) old = some t ∧
            (t.sessionClose = false ∧ Pumping t) ∧ TransparentProxyNet.Session.Drained left :=
        readLoop_keeps ikcpRecv switchStatus old
          (P := fun _ s => s.sessionClose = false ∧ Pumping s)
          (fun message queue s rest kept => pumping_switch (s := ikcpRecv s message.length)
            ⟨kept.1, kept.2.of_same rfl rfl rfl⟩ _) start
      refine ⟨t.lift (·.resumeTraffic), ?_, kept.of_same ?_ ?_ rfl⟩
      · rw [if_neg Bool.false_ne_true, read]
        rfl
      · exact t.toSession.resumeTraffic_deque
      · exact t.toSession.resumeTraffic_sessionClose

theorem sendOn_eq (s : Session) :
    (if !s.tcpDataWaitForSendDeque.items.isEmpty then sendTcpToTargetServerMessage s else some s) =
      (s.tcpDataWaitForSendDeque.resume s.outcome).map fun q => s.lift (·.setDeque q) := by
  unfold Queue.resume
  cases s.tcpDataWaitForSendDeque.items.isEmpty with
  | true => rfl
  | false =>
      simp [sendTcpToTargetServerMessage, TransparentProxyNet.Session.sendTcpMessage,
        Function.comp_def]
      rfl

theorem connectHandler_eq (s : Session) (i : Nat) :
    connectHandler s i false = (s.tcpDataWaitForSendDeque.resume s.outcome).map fun q =>
      (connected { s with connects := s.connects.eraseIdx i }).lift (·.setDeque q) :=
  sendOn_eq (connected { s with connects := s.connects.eraseIdx i })

theorem writeHandler_eq (s : Session) (i : Nat) (ec : Bool) :
    writeHandler s i ec =
      let q := if s.sessionClose then (s.tcpDataWaitForSendDeque.retire i).clear
        else s.tcpDataWaitForSendDeque.retire i
      if ec then some ((s.lift (·.setDeque q)).lift (·.closeSession))
      else q.popFront.bind fun q => (q.resume s.outcome).map fun q => s.lift (·.setDeque q) := by
  cases ec with
  | true => rfl
  | false =>
      simp only [writeHandler, Option.bind_eq_bind, Bool.false_eq_true, if_false]
      congr 1
      funext q
      exact sendOn_eq (s.lift (·.setDeque q))

/-- While the session is open, or the write has failed, the handler finds its own
element. -/
theorem pumping_writeHandler {s : Session} (h : Pumping s) {i : Nat} {op : Op Packet}
    (run : s.tcpDataWaitForSendDeque.pending[i]? = some op) {ec : Bool}
    (early : s.sessionClose = true → ec = true) :
    ∃ s', writeHandler s i ec = some s' ∧ Pumping s' := by
  have going := h.settled.running run
  obtain ⟨q, popped, -, still, -⟩ := going.finish run
  have enabled : s.enableToSendToTargetServer = true := by
    by_contra off
    simp [h.waiting (by simpa using off)] at run
  have retired : (s.tcpDataWaitForSendDeque.retire i).pending = [] := by
    obtain ⟨rfl, only, -⟩ := going.handler run
    simp [Queue.retire, only]
  rw [writeHandler_eq]
  cases ec with
  | true =>
      refine ⟨_, rfl, .closed (.inl ?_) ?_⟩
      · change (if s.sessionClose then _ else _ : Queue Packet).pending = []
        split <;> exact retired
      · intro off
        cases enabled.symm.trans off
  | false =>
      have unclosed : s.sessionClose = false := by
        by_contra closed
        cases early (by simpa using closed)
      obtain ⟨q', resumed, running, -, -⟩ := Pump.resume_running still s.outcome
      refine ⟨s.lift (·.setDeque q'), by simp [unclosed, popped, resumed], ?_,
        fun _ _ => running, .inr running⟩
      intro off
      cases enabled.symm.trans off

theorem pumping_connectHandler {s : Session} (h : Pumping s) (i : Nat) {ec : Bool}
    (first : ec = false → s.tcpDataWaitForSendDeque.pending = []) :
    ∃ s', connectHandler s i ec = some s' ∧ Pumping s' := by
  cases ec with
  | true => exact ⟨_, rfl, h.of_same rfl rfl rfl⟩
  | false =>
      obtain ⟨q, resumed, running, -, -⟩ := Pump.resume_running (first rfl) s.outcome
      refine ⟨_, by rw [connectHandler_eq, resumed]; rfl, ?_, fun _ _ => running, .inr running⟩
      intro off
      cases off

theorem pumping_step {s : Session} (h : Pumping s) {e : Event} (enabled : s.Enabled e)
    (good : NoLateSuccess s e) : ∃ s', handle s e = some s' ∧ Pumping s' := by
  cases e with
  | readDone i result => exact ⟨_, rfl, h.of_same rfl rfl rfl⟩
  | readHandler i result =>
      refine ⟨_, rfl, ?_⟩
      rcases s.toSession.receiveHandler_cases i result with closed | ⟨deque, flag⟩
      · rw [Session.lift, closed]
        exact Pumping.closed (s := { s with reads := s.reads.eraseIdx i }) h.settled h.waiting
      · exact h.of_same deque flag rfl
  | writeDone i ok =>
      refine ⟨_, rfl, ?_, ?_, h.settled.complete i ok⟩
      · intro off
        have still := h.waiting off
        simp [Session.lift, TransparentProxyNet.Session.writeDone, Queue.complete, still]
      · exact fun on unclosed => (h.running on unclosed).complete i ok
  | writeHandler i ec =>
      obtain ⟨op, run, -⟩ := Option.map_eq_some_iff.mp enabled
      exact pumping_writeHandler h run good
  | connectDone i ok => exact ⟨_, rfl, h.of_same rfl rfl rfl⟩
  | connectHandler i ec => exact pumping_connectHandler h i good
  | inputToKcp len input old => exact pumping_inputToKcp h len input old
  | closeSession => exact ⟨_, rfl, .closed h.settled h.waiting⟩

end Vps

/-- In every state of a run, every event that can happen next is handled without
taking from an empty deque, and a write's handler finds the element it was for in
front. On the VPS side the events have to be free of late successes. -/
theorem write_queue_safe (sessionId : SessionId) (nextTime : UInt32) :
    (∀ endpoint es (s : Home.Session),
      Trace Home.SessionStep (Home.start (.create sessionId) nextTime endpoint) es s →
      ∀ e, s.Enabled e → (Home.handle s e).isSome ∧ s.OwnFront e) ∧
    (∀ homeClienEndpoint es (s : Vps.Session),
      Trace (Guarded Vps.NoLateSuccess Vps.SessionStep)
        (Vps.start (.create sessionId homeClienEndpoint) nextTime) es s →
      ∀ e, s.Enabled e → Vps.NoLateSuccess s e → (Vps.handle s e).isSome ∧ s.OwnFront e) := by
  constructor
  · intro endpoint es s trace e enabled
    have h : s.Pumping := by
      refine trace.invariant (I := Session.Pumping) ?_ ⟨fun _ => rfl, .inr rfl⟩
      rintro s e s' h ⟨enabled, handled⟩
      obtain ⟨t, same, kept⟩ := Home.pumping_step h enabled
      cases same.symm.trans handled
      exact kept
    obtain ⟨t, handled, -⟩ := Home.pumping_step h enabled
    exact ⟨by rw [handled]; rfl, .of_settled h.settled e⟩
  · intro homeClienEndpoint es s trace e enabled good
    have h : Vps.Pumping s := by
      refine trace.invariant (I := Vps.Pumping) ?_ ⟨fun _ => rfl, fun _ _ => rfl, .inr rfl⟩
      rintro s e s' h ⟨⟨enabled, handled⟩, good⟩
      obtain ⟨t, same, kept⟩ := Vps.pumping_step h enabled good
      cases same.symm.trans handled
      exact kept
    obtain ⟨t, handled, -⟩ := Vps.pumping_step h enabled good
    exact ⟨by rw [handled]; rfl, .of_settled h.settled e⟩

/-- A VPS session whose write has just ended when the target server closes: the read's
handler closes the session, and then the write's handler clears the deque and pops. -/
theorem late_success_pops_empty :
    ¬ ∀ sessionId homeClienEndpoint nextTime es (s : Vps.Session),
      Trace Vps.SessionStep (Vps.start (.create sessionId homeClienEndpoint) nextTime) es s →
      ∀ e, s.Enabled e → (Vps.handle s e).isSome ∧ s.OwnFront e := by
  intro always
  obtain ⟨s, run, enabled, stuck⟩ :
      ∃ s, List.foldlM Vps.next (Vps.start (.create (.replicate 16 0) ⟨0, 0⟩) 10)
      [.inputToKcp 24 ⟨0, [Session.statusAndData ⟨1, 80⟩, CmdStatus.normal.bytes ++ [7]]⟩
        fun _ => [], .connectDone 0 true, .connectHandler 0 false, .writeDone 0 true,
          .readDone 0 .eof,
        .readHandler 0 .eof] = some s ∧
      s.Enabled (.writeHandler 0 false) ∧ Vps.handle s (.writeHandler 0 false) = none :=
    ⟨_, by rfl, by decide, by rfl⟩
  have popped := (always _ _ _ _ s (.of_foldlM (fun _ _ _ => Vps.step_of_next) run) _ enabled).1
  rw [stuck] at popped
  cases popped

end TransparentProxyNet
