import TransparentProxyNet.Worker.RoundTrip

/-! Flow control between the TCP reads of a session and the backlog of its KCP object. A
read is armed again from two handlers, below two different marks. -/
namespace TransparentProxyNet
open Machine

namespace Session

/-- Reading and pausing exclude each other, and each of them can end. -/
structure FlowControlled (s : Session) : Prop where
  exclusive : s.reads.length = 1 ∧ s.trafficBusy = false ∨ s.reads = [] ∧ s.trafficBusy = true
  backlog : s.kcp.ikcp_waitsnd ≤ 129
  resumable : s.trafficBusy → 85 ≤ s.kcp.ikcp_waitsnd

/-- With a read outstanding the backlog leaves room for what the read will bring. -/
structure Flows (s : Session) : Prop extends FlowControlled s where
  room : s.trafficBusy = false → s.kcp.ikcp_waitsnd < kcpSendWindowHighWaterMark
  fits : ∀ bytes, some (.data bytes) ∈ s.reads → bytes.length ≤ bufferSize - cmdStatusSize

/-- Flow control sees no difference. -/
structure Steady (s t : Session) : Prop where
  reads : t.reads = s.reads
  waitsnd : t.kcp.waitsnd = s.kcp.waitsnd
  trafficBusy : t.trafficBusy = s.trafficBusy

/-- A read of at least one byte. -/
def NoEmptyRead (e : Event) : Prop := ∀ i, e ≠ .readHandler i (.data [])

section
variable {s t u : Session}

theorem Steady.refl (s : Session) : Steady s s := ⟨rfl, rfl, rfl⟩

theorem Steady.trans (first : Steady s t) (second : Steady t u) : Steady s u :=
  ⟨second.reads.trans first.reads, second.waitsnd.trans first.waitsnd,
    second.trafficBusy.trans first.trafficBusy⟩

theorem Flows.of_steady (h : s.Flows) (same : Steady s t) : t.Flows := by
  refine ⟨⟨?_, ?_, ?_⟩, ?_, ?_⟩
  · rw [same.reads, same.trafficBusy]
    exact h.exclusive
  · rw [Kcp.ikcp_waitsnd, same.waitsnd]
    exact h.backlog
  · rw [Kcp.ikcp_waitsnd, same.waitsnd, same.trafficBusy]
    exact h.resumable
  · rw [Kcp.ikcp_waitsnd, same.waitsnd, same.trafficBusy]
    exact h.room
  · rw [same.reads]
    exact h.fits

theorem steady_setDeque (s : Session) (q : Pump.Queue Packet) : Steady s (s.setDeque q) :=
  ⟨rfl, rfl, rfl⟩

theorem steady_ikcpRecv (s : Session) (size : Nat) : Steady s (s.ikcpRecv size) := ⟨rfl, rfl, rfl⟩

/-- A session that arms a read with room for it. -/
theorem flows_receiveTcpMessage (none : s.reads = []) (idle : s.trafficBusy = false)
    (room : s.kcp.ikcp_waitsnd < kcpSendWindowHighWaterMark) : s.receiveTcpMessage.Flows := by
  have reads :
      s.receiveTcpMessage.reads = [if s.sessionClose then some .error else Option.none] := by
    rw [receiveTcpMessage, none]
    rfl
  refine ⟨⟨.inl ⟨by rw [reads]; rfl, idle⟩, ?_, ?_⟩, fun _ => room, ?_⟩
  · exact Nat.le_succ_of_le (Nat.le_of_lt room)
  · intro busy
    exact absurd (idle.symm.trans busy) Bool.false_ne_true
  · intro bytes member
    rw [reads, List.mem_singleton] at member
    split at member <;> cases member

/-- Two segments at most: the buffer holds 2048 bytes with `status_`. -/
theorem ikcp_send_waitsnd (kcp : Kcp) {bytes : List UInt8}
    (fits : bytes.length ≤ bufferSize - cmdStatusSize) :
    (kcp.ikcp_send (CmdStatus.normal.bytes ++ bytes)).waitsnd ≤ kcp.waitsnd + 2 := by
  have four : CmdStatus.normal.bytes.length = 4 := BigEndian.encode_length ..
  simp only [bufferSize, cmdStatusSize] at fits
  simp only [Kcp.ikcp_send, Kcp.mss, List.length_append, four]
  split <;> omega

theorem Flows.readDone (h : s.Flows) {i : Nat} {result : ReadResult}
    (enabled : s.Enabled (.readDone i result)) : (s.readDone i result).Flows := by
  refine ⟨⟨?_, h.backlog, h.resumable⟩, h.room, ?_⟩
  · rcases h.exclusive with ⟨one, idle⟩ | ⟨none, busy⟩
    · exact .inl ⟨(List.length_set ..).trans one, idle⟩
    · refine .inr ⟨?_, busy⟩
      change s.reads.set i _ = []
      rw [none, List.set_nil]
  · intro bytes member
    rcases List.mem_or_eq_of_mem_set member with old | new
    · exact h.fits bytes old
    · cases new
      exact enabled.2

/-- The handler of a read that brought data: the flag takes the place of the read, or a
new read does. -/
theorem flows_checkTrafficStatus (none : s.reads = []) (idle : s.trafficBusy = false)
    (backlog : s.kcp.ikcp_waitsnd ≤ 129) : s.checkTrafficStatus.Flows := by
  unfold checkTrafficStatus
  split
  · rename_i high
    refine ⟨⟨.inr ⟨none, rfl⟩, backlog, fun _ => ?_⟩, ?_, ?_⟩
    · exact Nat.le_trans (by decide) high
    · intro idle
      cases idle
    · intro bytes member
      rw [none] at member
      cases member
  · exact flows_receiveTcpMessage none idle (not_le.mp ‹_›)

theorem Flows.receiveHandler (h : s.Flows) {i : Nat} {result : ReadResult}
    (enabled : s.Enabled (.readHandler i result)) (some : NoEmptyRead (.readHandler i result)) :
    (s.receiveHandler i result).sessionClose = true ∨ (s.receiveHandler i result).Flows := by
  cases result with
  | eof => exact .inl (closeSession_sessionClose _)
  | error => exact .inl (closeSession_sessionClose _)
  | data bytes =>
      have member := List.mem_of_getElem? enabled
      have nonempty : bytes.length ≠ 0 := by
        intro zero
        apply some i
        rw [List.length_eq_zero_iff.mp zero]
      -- the read that has ended was the only one
      obtain ⟨one, idle⟩ : s.reads.length = 1 ∧ s.trafficBusy = false := by
        rcases h.exclusive with reading | ⟨none, -⟩
        · exact reading
        · rw [none] at member
          cases member
      have first : i = 0 := by
        have bound := (List.getElem?_eq_some_iff.mp enabled).1
        omega
      have none : s.reads.eraseIdx i = [] := by
        apply List.length_eq_zero_iff.mp
        rw [first, List.length_eraseIdx_of_lt (by omega), one]
      have room : s.kcp.waitsnd < 128 := h.room idle
      have sent := ikcp_send_waitsnd s.kcp (h.fits bytes member)
      right
      simp only [Session.receiveHandler, if_neg nonempty]
      refine flows_checkTrafficStatus ?_ ?_ ?_
      · exact none
      · exact idle
      · change (s.kcp.ikcp_send _).waitsnd ≤ 129
        omega

/-- The end of `inputToKcp`, after the backlog may have become shorter. -/
theorem flows_resumeTraffic
    (exclusive : t.reads.length = 1 ∧ t.trafficBusy = false ∨ t.reads = [] ∧ t.trafficBusy = true)
    (backlog : t.kcp.ikcp_waitsnd ≤ 129)
    (room : t.trafficBusy = false → t.kcp.ikcp_waitsnd < kcpSendWindowHighWaterMark)
    (fits : ∀ bytes, some (.data bytes) ∈ t.reads → bytes.length ≤ bufferSize - cmdStatusSize) :
    t.resumeTraffic.Flows := by
  unfold resumeTraffic
  split
  · rename_i resumes
    rw [Bool.and_eq_true, decide_eq_true_eq] at resumes
    have none : t.reads = [] := by
      rcases exclusive with ⟨-, idle⟩ | ⟨none, -⟩
      · cases idle.symm.trans resumes.1
      · exact none
    exact flows_receiveTcpMessage none rfl (resumes.2.trans (by decide))
  · rename_i stays
    refine ⟨⟨exclusive, backlog, ?_⟩, room, fits⟩
    intro busy
    by_contra low
    apply stays
    rw [Bool.and_eq_true, decide_eq_true_eq]
    exact ⟨busy, not_le.mp low⟩

theorem waitsnd_ikcpInput_le (s : Session) (len : Int) (input : KcpInput) :
    (s.ikcpInput len input).kcp.waitsnd ≤ s.kcp.waitsnd := by
  simp only [ikcpInput, Kcp.ikcp_input]
  split
  · exact Nat.le_refl _
  · exact Nat.sub_le ..

theorem Flows.inputToKcp (h : s.Flows) {len : Int} {input : KcpInput}
    (read : Steady (s.ikcpInput len input) t) : t.resumeTraffic.Flows := by
  have fewer : t.kcp.waitsnd ≤ s.kcp.waitsnd := by
    rw [read.waitsnd]
    exact s.waitsnd_ikcpInput_le len input
  have reads : t.reads = s.reads := read.reads
  have flag : t.trafficBusy = s.trafficBusy := read.trafficBusy
  apply flows_resumeTraffic
  · rw [reads, flag]
    exact h.exclusive
  · exact fewer.trans h.backlog
  · rw [flag]
    exact fun idle => fewer.trans_lt (h.room idle)
  · rw [reads]
    exact h.fits

end
end Session

namespace Home
open TransparentProxyNet.Session (Flows Steady FlowControlled NoEmptyRead readLoop_drains)

theorem steady_switch {s s' : Session} {pair : Packet} (switched : switchStatus s pair = some s') :
    Steady s s' := by
  unfold switchStatus at switched
  split at switched
  · obtain ⟨q, -, rfl⟩ := Option.map_eq_some_iff.mp ((s.push_eq pair).symm.trans switched)
    exact s.steady_setDeque q
  · cases switched
    exact .refl s

theorem steady_tryToReadFromKcp {s t : Session} {old : Nat → List UInt8}
    (read : tryToReadFromKcp s old = some t) : Steady s t := by
  obtain ⟨-, -, steady⟩ := readLoop_drains (P := fun _ u => Steady s u)
    (fun message queue u v steady pair switched =>
      (steady.trans (u.steady_ikcpRecv message.length)).trans (steady_switch switched))
    (.refl s) read
  exact steady

/-- From `start` on, as long as the session is open. -/
def FlowsWhileOpen (s : Session) : Prop := s.sessionClose = false → s.Flows

theorem flows_registered (randomId : SessionId) (endpoint : Endpoint) :
    FlowsWhileOpen (registered randomId endpoint) :=
  fun _ => Session.flows_receiveTcpMessage rfl rfl (by
    simp [Session.create, Kcp.ikcp_create, Kcp.ikcp_send, Kcp.ikcp_waitsnd, Session.statusAndData,
      CmdStatus.bytes, Kcp.mss, kcpSendWindowHighWaterMark])

theorem flows_step {s t : Session} {e : Session.Event} (h : FlowsWhileOpen s)
    (step : SessionStep s e t) (guard : NoEmptyRead e) : FlowsWhileOpen t := by
  intro unclosed
  have wasOpen : s.sessionClose = false := (handled_step step).unclosed unclosed
  have flows := h wasOpen
  obtain ⟨enabled, handled⟩ := step
  cases e with
  | readDone i result =>
      cases handled
      exact flows.readDone enabled
  | readHandler i result =>
      cases handled
      rcases flows.receiveHandler enabled guard with closed | done
      · cases unclosed.symm.trans closed
      · exact done
  | writeDone i ok =>
      cases handled
      exact flows.of_steady (s.steady_setDeque _)
  | writeHandler i ec =>
      rw [handle, writeHandler_eq] at handled
      obtain ⟨q, -, rest⟩ := Option.bind_eq_some_iff.mp handled
      cases ec with
      | true =>
          cases rest
          cases unclosed.symm.trans (Session.closeSession_sessionClose _)
      | false =>
          obtain ⟨q', -, rfl⟩ := Option.map_eq_some_iff.mp rest
          exact flows.of_steady (s.steady_setDeque q')
  | connectDone i ok =>
      cases handled
      exact flows.of_steady ⟨rfl, rfl, rfl⟩
  | connectHandler i ec =>
      cases handled
      exact flows
  | inputToKcp len input old =>
      rw [handle, inputToKcp, wasOpen, if_neg Bool.false_ne_true] at handled
      obtain ⟨u, read, rfl⟩ := Option.map_eq_some_iff.mp handled
      exact flows.inputToKcp (steady_tryToReadFromKcp read)
  | closeSession =>
      cases handled
      cases unclosed.symm.trans (Session.closeSession_sessionClose _)

theorem flows_answered {s : Session} (h : FlowsWhileOpen s) : FlowsWhileOpen (Worker.answered s) :=
  fun unclosed => (h unclosed).of_steady ⟨rfl, rfl, rfl⟩

end Home

namespace Vps
open TransparentProxyNet.Session (Flows NoEmptyRead readLoop_drains)

/-- Nothing is read before the connect, and nothing sent. -/
structure Silent (s : Session) : Prop where
  reads : s.reads = []
  trafficBusy : s.trafficBusy = false
  waitsnd : s.kcp.waitsnd = 0

structure Phases (s : Session) : Prop where
  before : s.enableToSendToTargetServer = false → Silent s
  connected : s.enableToSendToTargetServer = true → s.toSession.Flows

/-- Flow control sees no difference, and the socket is as connected as before. -/
structure Steady (s t : Session) : Prop where
  base : s.toSession.Steady t.toSession
  enable : t.enableToSendToTargetServer = s.enableToSendToTargetServer

/-- Reads bring data, and only the first connect to succeed does. -/
def SingleConnect (s : Session) (e : TransparentProxyNet.Session.Event) : Prop :=
  NoEmptyRead e ∧ ∀ i, e = .connectHandler i false → s.enableToSendToTargetServer = false

section
variable {s t u : Session}

theorem Steady.trans (first : Steady s t) (second : Steady t u) : Steady s u :=
  ⟨first.base.trans second.base, second.enable.trans first.enable⟩

theorem Phases.of_steady (h : Phases s) (same : Steady s t) : Phases t := by
  constructor
  · rw [same.enable]
    intro off
    have silent := h.before off
    exact ⟨same.base.reads.trans silent.reads, same.base.trafficBusy.trans silent.trafficBusy,
      same.base.waitsnd.trans silent.waitsnd⟩
  · rw [same.enable]
    exact fun on => (h.connected on).of_steady same.base

theorem steady_setDeque (s : Session) (q : Pump.Queue Packet) : Steady s (s.lift (·.setDeque q)) :=
  ⟨s.toSession.steady_setDeque q, rfl⟩

theorem steady_ikcpRecv (s : Session) (size : Nat) : Steady s (ikcpRecv s size) :=
  ⟨s.toSession.steady_ikcpRecv size, rfl⟩

theorem steady_switch {pair : Packet} (switched : switchStatus s pair = some t) : Steady s t := by
  unfold switchStatus at switched
  split at switched
  · split at switched
    · cases switched
      exact ⟨⟨rfl, rfl, rfl⟩, rfl⟩
    · cases switched
      exact ⟨.refl _, rfl⟩
  · split at switched
    · rw [trySend_eq] at switched
      split at switched
      · obtain ⟨q, -, rfl⟩ := Option.map_eq_some_iff.mp switched
        exact steady_setDeque s q
      · cases switched
        exact steady_setDeque s _
    · cases switched
      exact ⟨.refl _, rfl⟩

theorem steady_tryToReadFromKcp {old : Nat → List UInt8} (read : tryToReadFromKcp s old = some t) :
    Steady s t := by
  obtain ⟨-, -, steady⟩ := readLoop_drains (P := fun _ u => Steady s u)
    (fun message queue u v steady pair switched =>
      (steady.trans (steady_ikcpRecv u message.length)).trans (steady_switch switched))
    ⟨.refl _, rfl⟩ read
  exact steady

theorem Phases.inputToKcp (h : Phases s) {len : Int} {input : KcpInput}
    (read : Steady (s.lift (·.ikcpInput len input)) t) : Phases (t.lift (·.resumeTraffic)) := by
  constructor
  · intro off
    have silent := h.before (read.enable.symm.trans off)
    have idle : t.trafficBusy = false := read.base.trafficBusy.trans silent.trafficBusy
    have same : t.toSession.resumeTraffic = t.toSession := by
      rw [TransparentProxyNet.Session.resumeTraffic, idle]
      rfl
    have none : t.kcp.waitsnd = 0 := by
      have fewer := s.toSession.waitsnd_ikcpInput_le len input
      rw [silent.waitsnd] at fewer
      exact read.base.waitsnd.trans (Nat.le_zero.mp fewer)
    rw [Session.lift, same]
    exact ⟨read.base.reads.trans silent.reads, idle, none⟩
  · intro on
    exact (h.connected (read.enable.symm.trans on)).inputToKcp read.base

/-- The connect that succeeds arms the first read. -/
theorem Phases.connectHandler (h : Phases s) (first : s.enableToSendToTargetServer = false)
    {i : Nat} (handled : connectHandler s i false = some t) : Phases t := by
  have silent := h.before first
  rw [connectHandler_eq] at handled
  obtain ⟨q, -, rfl⟩ := Option.map_eq_some_iff.mp handled
  constructor
  · intro off
    cases off
  · intro _
    refine Flows.of_steady (TransparentProxyNet.Session.flows_receiveTcpMessage ?_ ?_ ?_)
      (TransparentProxyNet.Session.steady_setDeque _ q)
    · exact silent.reads
    · exact silent.trafficBusy
    · change s.kcp.waitsnd < _
      rw [silent.waitsnd]
      decide

end

def FlowsWhileOpen (s : Session) : Prop := s.sessionClose = false → Phases s

theorem flows_registered (new : NewSession) (sessionId : SessionId) :
    FlowsWhileOpen (registered new sessionId) :=
  fun _ => ⟨fun _ => ⟨rfl, rfl, rfl⟩, fun on => by cases on⟩

theorem flows_step {s t : Session} {e : TransparentProxyNet.Session.Event} (h : FlowsWhileOpen s)
    (step : SessionStep s e t) (guard : SingleConnect s e) : FlowsWhileOpen t := by
  intro unclosed
  have wasOpen : s.sessionClose = false := (handled_step step).unclosed unclosed
  have phases := h wasOpen
  have on {i : Nat} {r} (there : s.reads[i]? = some r) : s.enableToSendToTargetServer = true := by
    by_contra off
    rw [(phases.before (by simpa using off)).reads] at there
    cases there
  obtain ⟨enabled, handled⟩ := step
  cases e with
  | readDone i result =>
      cases handled
      have connected := on enabled.1
      refine ⟨fun off => ?_, fun _ => (phases.connected connected).readDone enabled⟩
      cases connected.symm.trans off
  | readHandler i result =>
      cases handled
      have connected := on enabled
      refine ⟨fun off => ?_, fun _ => ?_⟩
      · cases connected.symm.trans off
      · rcases (phases.connected connected).receiveHandler enabled guard.1 with closed | done
        · cases unclosed.symm.trans closed
        · exact done
  | writeDone i ok =>
      cases handled
      exact phases.of_steady (steady_setDeque s _)
  | writeHandler i ec =>
      rw [handle, writeHandler_eq] at handled
      cases ec with
      | true =>
          cases handled
          cases unclosed.symm.trans (TransparentProxyNet.Session.closeSession_sessionClose _)
      | false =>
          obtain ⟨q, -, rest⟩ := Option.bind_eq_some_iff.mp handled
          obtain ⟨q', -, rfl⟩ := Option.map_eq_some_iff.mp rest
          exact phases.of_steady (steady_setDeque s q')
  | connectDone i ok =>
      cases handled
      exact phases.of_steady ⟨⟨rfl, rfl, rfl⟩, rfl⟩
  | connectHandler i ec =>
      cases ec with
      | true =>
          cases handled
          exact phases.of_steady ⟨⟨rfl, rfl, rfl⟩, rfl⟩
      | false => exact phases.connectHandler (guard.2 i rfl) handled
  | inputToKcp len input old =>
      rw [handle, inputToKcp, wasOpen, if_neg Bool.false_ne_true] at handled
      obtain ⟨u, read, rfl⟩ := Option.map_eq_some_iff.mp handled
      exact phases.inputToKcp (steady_tryToReadFromKcp read)
  | closeSession =>
      cases handled
      cases unclosed.symm.trans (TransparentProxyNet.Session.closeSession_sessionClose _)

theorem flows_answered {s : Session} (h : FlowsWhileOpen s) : FlowsWhileOpen (Worker.answered s) :=
  fun unclosed => (h unclosed).of_steady ⟨⟨rfl, rfl, rfl⟩, rfl⟩

end Vps

/-- Flow control of every session of a worker: on the home side from `start` on, on the
VPS side from the one connect that succeeds on, until the session is closed. -/
theorem flow_controlled (A : AesGcm) (other : Int → Fin 4) :
    (∀ w, Reachable (Guarded (Worker.OnSessions fun _ => Session.NoEmptyRead) (Home.Step A other))
        Worker.Started w →
      ∀ this (s : Home.Session), w.sessions this = some s → s.sessionClose = false →
        s.FlowControlled) ∧
    (∀ w, Reachable (Guarded (Worker.OnSessions Vps.SingleConnect) (Vps.Step A other))
        Worker.Started w →
      ∀ this (s : Vps.Session), w.sessions this = some s → s.sessionClose = false →
        s.enableToSendToTargetServer = true → s.toSession.FlowControlled) := by
  constructor
  · intro w reachable this s found unclosed
    obtain ⟨-, each⟩ := Home.reachable_each Home.flows_registered
      (fun _ _ _ h step guard => Home.flows_answered (Home.flows_step h step guard))
      (fun _ _ _ _ i => by simp) reachable
    exact (each this s found unclosed).toFlowControlled
  · intro w reachable this s found unclosed connected
    obtain ⟨-, each⟩ := Vps.reachable_each Vps.flows_registered
      (fun _ _ _ h step guard => Vps.flows_answered (Vps.flows_step h step guard))
      (fun _ _ _ _ => ⟨fun i => by simp, fun i => by simp⟩) reachable
    exact ((each this s found unclosed).connected connected).toFlowControlled

/-- A connection over which a byte has come from either end. -/
theorem flow_controlled_read :
    (∃ (w : Home.Worker) (s : Home.Session), w.sessions 7 = some s ∧ s.kcp.waitsnd = 2 ∧
      s.FlowControlled) ∧
    ∃ (w : Vps.Worker) (s : Vps.Session), w.sessions 7 = some s ∧ s.kcp.waitsnd = 1 ∧
      s.toSession.FlowControlled := by
  constructor
  · obtain ⟨w₀, w, started, registers, holds, found⟩ := Home.exists_connection .sample fun _ => 0
    have taken : ∀ (w : Home.Worker) s f t, w.Holds → w.sessions 7 = some s →
        (Worker.onSocket f = true ∧ Home.SessionStep s f t ∧ Session.NoEmptyRead f) →
        ∃ w', Guarded (Worker.OnSessions fun _ => Session.NoEmptyRead)
          (Home.Step .sample fun _ => 0) w (.session 7 f) w' ∧ w'.Holds ∧
          w'.sessions 7 = some (Worker.answered t) := by
      rintro w s f t h found ⟨socket, moved, good⟩
      obtain ⟨w', step, done⟩ := Home.exists_step .sample _ h found socket moved
      exact ⟨w', ⟨step, .session found good⟩, done⟩
    obtain ⟨w', reads, -, found'⟩ := Worker.exists_trace
      [.readDone 0 (.data [1]), .readHandler 0 (.data [1])] taken
      (.cons ⟨_, ⟨rfl, ⟨by decide, rfl⟩, fun _ => by simp⟩, rfl⟩
        (.single ⟨_, ⟨rfl, ⟨by decide, rfl⟩, fun _ => by simp⟩, rfl⟩)) holds found
    have free : Worker.OnSessions (fun (_ : Home.Session) => Session.NoEmptyRead) w₀
        (.registerSession 7 (.replicate 16 1)) := fun _ _ same => by cases same
    exact ⟨w', _, found', rfl, (flow_controlled .sample _).1 w' ((Reachable.init started).trace
      (.cons ⟨registers, free⟩ reads)) 7 _ found' rfl⟩
  · obtain ⟨w₀, w, datagram, started, received, holds, found⟩ :=
      Vps.exists_received [Session.statusAndData ⟨1, 80⟩] rfl
    have taken : ∀ (w : Vps.Worker) s f t, w.Holds → w.sessions 7 = some s →
        (Worker.onSocket f = true ∧ Vps.SessionStep s f t ∧ Vps.SingleConnect s f) →
        ∃ w', Guarded (Worker.OnSessions Vps.SingleConnect) (Vps.Step .sample fun _ => 0) w
          (.session 7 f) w' ∧ w'.Holds ∧ w'.sessions 7 = some (Worker.answered t) := by
      rintro w s f t h found ⟨socket, moved, good⟩
      obtain ⟨w', step, done⟩ := Vps.exists_step .sample _ h found socket moved
      exact ⟨w', ⟨step, .session found good⟩, done⟩
    obtain ⟨w', reads, -, found'⟩ := Worker.exists_trace
      [.connectDone 0 true, .connectHandler 0 false, .readDone 0 (.data [1]),
        .readHandler 0 (.data [1])] taken
      (.cons ⟨_, ⟨rfl, ⟨by decide, rfl⟩, fun _ => by simp, fun _ => by simp⟩, rfl⟩
        (.cons ⟨_, ⟨rfl, ⟨by decide, rfl⟩, fun _ => by simp, fun _ _ => rfl⟩, rfl⟩
          (.cons ⟨_, ⟨rfl, ⟨by decide, rfl⟩, fun _ => by simp, fun _ => by simp⟩, rfl⟩
            (.single ⟨_, ⟨rfl, ⟨by decide, rfl⟩, fun _ => by simp, fun _ => by simp⟩, rfl⟩))))
      holds found
    have free : Worker.OnSessions Vps.SingleConnect w₀ (.receive false datagram) :=
      fun _ _ same => by cases same
    exact ⟨w', _, found', rfl, (flow_controlled .sample _).2 w' ((Reachable.init started).trace
      (.cons ⟨received, free⟩ reads)) 7 _ found' rfl rfl⟩

end TransparentProxyNet
