import TransparentProxyNet.Tunnel.Closing
import TransparentProxyNet.Tunnel.Transparency

/-! The tunnel when its sockets fail: reads and writes that end in errors, a connect that
is refused, closes at any moment. What has been submitted on one side never departs from
what has been read on the other. -/
namespace TransparentProxyNet
open Machine Pump

namespace Session

/-- What a closed session has read it has handed to KCP, but for a read that had ended
before and whose handler is still to run. -/
structure Handed (header : List (List UInt8)) (read : List UInt8) (s : Session) : Prop where
  closed : s.sessionClose = true
  stream : ∃ pieces : List (List UInt8), s.kcp.sent = header ++ pieces.map normalMessage ∧
    pieces.flatten ++ s.unsent = read ∧ FitBuffer pieces
  fits : s.ReadsFit
  oneRead : s.reads.length ≤ 1
  ended : ∀ r ∈ s.reads, r.isSome

section
variable {header : List (List UInt8)} {read : List UInt8} {s t : Session} {i : Nat}
  {result : ReadResult}

/-- A read may bring data, the end of the stream or an error. -/
theorem Sends.readEnds (h : Sends header read s) (enabled : s.Enabled (.readDone i result)) :
    Sends header (read ++ ReadResult.bytes result) (s.readDone i result) := by
  obtain ⟨reads, rfl⟩ := eq_singleton h.oneRead enabled.1
  have now : (s.readDone 0 result).reads = [some result] := by
    rw [Session.readDone, reads]
    rfl
  obtain ⟨pieces, sent, all, fit⟩ := h.stream
  refine ⟨h.unclosed, ⟨pieces, sent, ?_, fit⟩, ?_, by rw [now]; rfl, ?_⟩
  · rw [← all, unsent, unsent, reads, now]
    simp
  · intro other member
    rw [now, List.mem_singleton] at member
    cases member
    exact enabled.2
  · intro on
    cases (h.free reads).symm.trans on

theorem closeSession_again (closed : s.sessionClose = true) : s.closeSession = s := if_pos closed

theorem unsent_closeSession (s : Session) : s.closeSession.unsent = s.unsent := by
  unfold closeSession
  split
  · rfl
  · simp only [unsent, List.flatMap_map]
    congr 1
    funext r
    cases r <;> rfl

/-- Closing the socket loses no byte that has been read. -/
theorem Sends.close (h : Sends header read s) : Handed header read s.closeSession := by
  obtain ⟨pieces, sent, all, fit⟩ := h.stream
  have open_ : ¬ s.sessionClose = true := by simp [h.unclosed]
  refine ⟨s.closeSession_sessionClose, ⟨pieces, ?_, ?_, fit⟩, h.fits.closeSession, ?_, ?_⟩
  · rw [closeSession, if_neg open_]
    exact sent
  · rw [unsent_closeSession]
    exact all
  · rw [closeSession, if_neg open_]
    simpa using h.oneRead
  · rw [closeSession, if_neg open_]
    intro r member
    obtain ⟨q, -, rfl⟩ := List.mem_map.mp member
    rfl

/-- The handler of a read that brought no data. -/
theorem Sends.readFails (h : Sends header read s) (enabled : s.Enabled (.readHandler i result))
    (none : ReadResult.bytes result = []) :
    Handed header read (closeSession { s with reads := s.reads.eraseIdx i }) := by
  obtain ⟨reads, rfl⟩ := eq_singleton h.oneRead enabled
  have idle : s.reads.eraseIdx 0 = [] := by rw [reads]; rfl
  have rest : Sends header read { s with reads := s.reads.eraseIdx 0 } := by
    obtain ⟨pieces, sent, all, fit⟩ := h.stream
    refine ⟨h.unclosed, ⟨pieces, sent, ?_, fit⟩, readsFit_idle idle,
      by rw [idle]; exact Nat.zero_le 1, fun _ => idle⟩
    rw [← all, unsent, unsent, reads]
    simp [none]
  exact rest.close

theorem Handed.of_same (h : Handed header read s) (sent : t.kcp.sent = s.kcp.sent)
    (reads : t.reads = s.reads) (closed : t.sessionClose = s.sessionClose) :
    Handed header read t := by
  refine ⟨closed.trans h.closed, ?_, fun result member => h.fits result (reads ▸ member),
    reads ▸ h.oneRead, reads ▸ h.ended⟩
  rw [sent, unsent, reads]
  exact h.stream

/-- The handler of a read that had ended before the close. Its bytes still go to KCP, and
the read it may start fails at once. -/
theorem Handed.receiveHandler (h : Handed header read s)
    (enabled : s.Enabled (.readHandler i result)) :
    Handed header read (s.receiveHandler i result) ∧
      s.kcp.sent <+: (s.receiveHandler i result).kcp.sent ∧
      (s.receiveHandler i result).kcp.rcvQueue = s.kcp.rcvQueue ∧
      (s.receiveHandler i result).tcpDataWaitForSendDeque = s.tcpDataWaitForSendDeque := by
  obtain ⟨reads, rfl⟩ := eq_singleton h.oneRead enabled
  have idle : s.reads.eraseIdx 0 = [] := by rw [reads]; rfl
  obtain ⟨pieces, sent, all, fit⟩ := h.stream
  have waits : s.unsent = ReadResult.bytes result := by simp [unsent, reads]
  rw [waits] at all
  have ending (none : ReadResult.bytes result = []) :
      Handed header read { s with reads := [] } := by
    refine ⟨h.closed, ⟨pieces, sent, ?_, fit⟩, readsFit_idle rfl, Nat.zero_le 1, by simp⟩
    rw [← all, none]
    rfl
  cases result with
  | eof =>
      simp only [Session.receiveHandler, idle]
      rw [closeSession_again (s := { s with reads := [] }) h.closed]
      exact ⟨ending rfl, List.prefix_refl _, rfl, rfl⟩
  | error =>
      simp only [Session.receiveHandler, idle]
      rw [closeSession_again (s := { s with reads := [] }) h.closed]
      exact ⟨ending rfl, List.prefix_refl _, rfl, rfl⟩
  | data bytes =>
      simp only [Session.receiveHandler, idle]
      split
      · exact ⟨ending (List.length_eq_zero_iff.mp ‹_›), List.prefix_refl _, rfl, rfl⟩
      · have handed : ∃ pieces : List (List UInt8),
            s.kcp.sent ++ [normalMessage bytes] = header ++ pieces.map normalMessage ∧
              pieces.flatten = read ∧ FitBuffer pieces := by
          refine ⟨pieces ++ [bytes], by simp [sent], ?_, fit.concat ?_⟩
          · rw [← all]
            simp [ReadResult.bytes]
          · exact h.fits (.data bytes) (by simp [reads])
        obtain ⟨pieces', sent', all', fit'⟩ := handed
        unfold Session.checkTrafficStatus
        split
        · exact ⟨⟨h.closed, ⟨pieces', sent', by simpa [unsent] using all', fit'⟩, readsFit_idle rfl,
            Nat.zero_le 1, by simp⟩, List.prefix_append _ _, rfl, rfl⟩
        · have failed : (receiveTcpMessage { s with
              reads := []
              kcp := s.kcp.ikcp_send (CmdStatus.normal.bytes ++ bytes) }).reads =
            [some .error] := by
            simp [receiveTcpMessage, h.closed]
          refine ⟨⟨h.closed, ⟨pieces', sent', ?_, fit'⟩, ?_, by rw [failed]; rfl, by simp [failed]⟩,
            List.prefix_append _ _, rfl, rfl⟩
          · rw [unsent, failed]
            simpa [ReadResult.bytes] using all'
          · intro result member
            rw [failed, List.mem_singleton] at member
            cases member
            exact Nat.zero_le _

/-- All bytes that have been read are with KCP or wait for their handler. -/
theorem Handed.all (h : Handed header read s) (opening : contents header = []) :
    (contents s.kcp.sent).flatten ++ s.unsent = read := by
  obtain ⟨pieces, sent, all, -⟩ := h.stream
  rw [sent, contents_append, opening, contents_normalMessages, List.nil_append, all]

theorem Handed.speaks (h : Handed header read s) : Speaks header s.kcp.sent := by
  obtain ⟨pieces, sent, -, fit⟩ := h.stream
  exact ⟨pieces, sent ▸ List.prefix_refl _, fit⟩

end

/-- What a handler of a socket may do to the messages of its half. -/
structure OnlySends (s t : Session) : Prop where
  sent : s.kcp.sent <+: t.kcp.sent
  rcvQueue : t.kcp.rcvQueue = s.kcp.rcvQueue

theorem OnlySends.of_kcp {s t : Session} (same : t.kcp = s.kcp) : OnlySends s t :=
  ⟨same ▸ List.prefix_refl _, same ▸ rfl⟩

theorem closeSession_kcp (s : Session) : s.closeSession.kcp = s.kcp := by
  unfold closeSession
  split <;> rfl

theorem closeSession_connects {s : Session} (none : s.connects = []) :
    s.closeSession.connects = [] := by
  unfold closeSession
  split <;> simp [none]

theorem receiveHandler_connects (s : Session) (i : Nat) (result : ReadResult)
    (none : s.connects = []) : (s.receiveHandler i result).connects = [] := by
  cases result with
  | eof => exact closeSession_connects (s := { s with reads := s.reads.eraseIdx i }) none
  | error => exact closeSession_connects (s := { s with reads := s.reads.eraseIdx i }) none
  | data bytes =>
      simp only [receiveHandler, checkTrafficStatus]
      split
      · exact none
      · split <;> exact none

theorem closeSession_submitted (s : Session) : s.closeSession.submitted = s.submitted := by
  unfold closeSession
  split <;> rfl

end Session

/-! ### The home side -/

namespace Home
open TransparentProxyNet.Session (Event Handed Sends OnlySends)

/-- The session is closed, and nothing more goes to its client. -/
structure Shut (endpoint : Endpoint) (delivered : List (List UInt8)) (read : List UInt8)
    (s : Session) : Prop where
  handed : Handed [Session.statusAndData endpoint] read s
  stream : s.submitted <+: (contents delivered).flatten
  settled : s.tcpDataWaitForSendDeque.Settled

/-- The session works, or is closed. -/
def Half (endpoint : Endpoint) (delivered : List (List UInt8)) (read : List UInt8) (s : Session) :
    Prop := Side endpoint delivered read s ∨ Shut endpoint delivered read s

variable {endpoint : Endpoint} {delivered : List (List UInt8)} {read : List UInt8} {s t : Session}

theorem Shut.grow (h : Shut endpoint delivered read s) (arrived : List (List UInt8)) :
    Shut endpoint (delivered ++ arrived) read s := by
  refine ⟨h.handed, h.stream.trans ?_, h.settled⟩
  rw [contents_append, List.flatten_append]
  exact List.prefix_append _ _

/-- The handler of a write that was under way when the session closed: nothing is left to
go on with. -/
theorem Shut.writeHandler (h : Shut endpoint delivered read s) {i : Nat} {ec : Bool}
    (enabled : s.Enabled (.writeHandler i ec)) (handled : writeHandler s i ec = some t) :
    Shut endpoint delivered read t ∧ OnlySends s t := by
  obtain ⟨op, run, -⟩ := Option.map_eq_some_iff.mp enabled
  obtain ⟨q, popped, -, still, -⟩ := (h.settled.running run).finish run
  rw [writeHandler_eq, popped, Option.bind_some, if_pos h.handed.closed] at handled
  have cleared : Shut endpoint delivered read (s.setDeque q.clear) := by
    refine ⟨h.handed.of_same rfl rfl rfl, ?_, .inl still⟩
    change (q.started.map Session.assistPoint).flatten <+: _
    rw [Queue.popFront_started popped]
    exact h.stream
  cases ec with
  | true =>
      cases handled
      rw [Session.closeSession_again (s := s.setDeque q.clear) h.handed.closed]
      exact ⟨cleared, .of_kcp rfl⟩
  | false =>
      cases handled
      exact ⟨cleared, .of_kcp rfl⟩

theorem Shut.event (h : Shut endpoint delivered read s) {e : Event}
    (socket : Worker.onSocket e = true) (enabled : s.Enabled e) (handled : handle s e = some t) :
    Shut endpoint delivered (read ++ e.bytesRead) t ∧ OnlySends s t := by
  cases e <;> simp only [Event.bytesRead, List.append_nil]
  case readDone i result =>
    exact absurd (h.handed.ended none (List.mem_of_getElem? enabled.1)) (by simp)
  case readHandler i result =>
    cases handled
    obtain ⟨handed, sent, queue, deque⟩ := h.handed.receiveHandler enabled
    refine ⟨⟨handed, ?_, deque ▸ h.settled⟩, sent, queue⟩
    rw [Session.submitted, deque]
    exact h.stream
  case writeDone i ok =>
    cases handled
    exact ⟨⟨h.handed.of_same rfl rfl rfl, h.stream, h.settled.complete i ok⟩, .of_kcp rfl⟩
  case writeHandler i ec => exact h.writeHandler enabled handled
  case connectDone i ok =>
    cases handled
    exact ⟨⟨h.handed.of_same rfl rfl rfl, h.stream, h.settled⟩, .of_kcp rfl⟩
  case connectHandler i ec =>
    cases handled
    exact ⟨h, .of_kcp rfl⟩
  case inputToKcp => cases socket
  case closeSession => cases socket

theorem Shut.of_close (handed : Handed [Session.statusAndData endpoint] read s.closeSession)
    (stream : s.submitted <+: (contents delivered).flatten)
    (settled : s.tcpDataWaitForSendDeque.Settled) :
    Shut endpoint delivered read s.closeSession := by
  refine ⟨handed, by rwa [Session.closeSession_submitted], ?_⟩
  rw [Session.closeSession_deque]
  split
  · exact settled
  · exact settled.abort

/-- The handler of a write that has failed: its element is dropped, and the session closes. -/
theorem Side.writeFails (h : Side endpoint delivered read s) {i : Nat}
    (enabled : s.Enabled (.writeHandler i true)) (handled : writeHandler s i true = some t) :
    Shut endpoint delivered read t ∧ OnlySends s t := by
  obtain ⟨op, run, -⟩ := Option.map_eq_some_iff.mp enabled
  obtain ⟨q, popped, -, still, kept⟩ := h.running.finish run
  rw [writeHandler_eq, popped, Option.bind_some, h.sends.unclosed] at handled
  cases handled
  refine ⟨.of_close ?_ ?_ (.inl still), .of_kcp (Session.closeSession_kcp _)⟩
  · exact (h.sends.of_same rfl rfl rfl rfl : Sends _ read (s.setDeque q)).close
  · exact (h.log.keep kept : Logged (s.setDeque q).tcpDataWaitForSendDeque _).submitted

theorem Side.step (h : Side endpoint delivered read s) {e : Event}
    (socket : Worker.onSocket e = true) (enabled : s.Enabled e) (handled : handle s e = some t) :
    Half endpoint delivered (read ++ e.bytesRead) t ∧ OnlySends s t := by
  by_cases faultless : Session.Faultless e
  · obtain ⟨u, same, side, sent, queue⟩ := h.event faultless enabled
    cases same.symm.trans handled
    exact ⟨.inl side, sent, queue⟩
  have failing (result : ReadResult) (i : Nat) (none : Session.ReadResult.bytes result = [])
      (enabled : s.Enabled (.readHandler i result)) :
      Shut endpoint delivered read (Session.closeSession { s with reads := s.reads.eraseIdx i }) :=
    .of_close (h.sends.readFails enabled none) h.log.submitted (.inr h.running)
  cases e <;> simp only [Event.bytesRead, List.append_nil]
  case readDone i result =>
    cases handled
    exact ⟨.inl ⟨h.sends.readEnds enabled, h.running, h.log⟩, .of_kcp rfl⟩
  case readHandler i result =>
    cases result with
    | data bytes => exact absurd ⟨bytes, rfl⟩ faultless
    | eof =>
        cases handled
        exact ⟨.inr (failing .eof i rfl enabled), .of_kcp (Session.closeSession_kcp _)⟩
    | error =>
        cases handled
        exact ⟨.inr (failing .error i rfl enabled), .of_kcp (Session.closeSession_kcp _)⟩
  case writeDone i ok =>
    cases handled
    exact ⟨.inl ⟨h.sends.of_same rfl rfl rfl rfl, h.running.complete i ok,
      h.log.keep fun _ held => held.complete i ok⟩, .of_kcp rfl⟩
  case writeHandler i ec =>
    cases ec with
    | false => exact absurd rfl faultless
    | true => exact (h.writeFails enabled handled).imp .inr id
  case connectDone i ok =>
    cases handled
    exact ⟨.inl ⟨h.sends.of_same rfl rfl rfl rfl, h.running, h.log⟩, .of_kcp rfl⟩
  case connectHandler i ec =>
    cases handled
    exact ⟨.inl h, .of_kcp rfl⟩
  case inputToKcp => cases socket
  case closeSession => cases socket

/-- Messages for a session that is closed are dropped. -/
theorem Half.input (h : Half endpoint delivered read s) (none : s.kcp.rcvQueue = []) {len : Int}
    {acked : Nat} {arrived : List (List UInt8)} (fits : arrived = [] ∨ 24 ≤ len)
    (speaks : Session.Speaks [] (delivered ++ arrived)) {old : Nat → List UInt8}
    (handled : inputToKcp s len ⟨acked, arrived⟩ old = some t) :
    Half endpoint (delivered ++ arrived) read t ∧ s.kcp.sent <+: t.kcp.sent ∧
      t.kcp.rcvQueue = [] := by
  rcases h with side | closed
  · obtain ⟨u, same, side', sent, queue⟩ := side.input none acked fits speaks old
    cases same.symm.trans handled
    exact ⟨.inl side', sent, queue⟩
  · rw [inputToKcp, if_pos closed.handed.closed] at handled
    cases handled
    exact ⟨.inr (closed.grow arrived), List.prefix_refl _, none⟩

theorem Half.event (h : Half endpoint delivered read s) {e : Event}
    (socket : Worker.onSocket e = true) (enabled : s.Enabled e) (handled : handle s e = some t) :
    Half endpoint delivered (read ++ e.bytesRead) t ∧ OnlySends s t := by
  rcases h with side | closed
  · exact side.step socket enabled handled
  · exact (closed.event socket enabled handled).imp .inr id

theorem Half.speaks (h : Half endpoint delivered read s) :
    Session.Speaks [Session.statusAndData endpoint] s.kcp.sent := by
  rcases h with side | closed
  · exact side.sends.speaks
  · exact closed.handed.speaks

theorem Half.kept (h : Half endpoint delivered read s) :
    (contents s.kcp.sent).flatten ++ s.unsent = read := by
  rcases h with side | closed
  · exact side.sends.all (contents_statusAndData endpoint)
  · exact closed.handed.all (contents_statusAndData endpoint)

theorem Half.stream (h : Half endpoint delivered read s) :
    s.submitted <+: (contents delivered).flatten := by
  rcases h with side | closed
  · exact side.log.submitted
  · exact closed.stream

theorem Half.settled (h : Half endpoint delivered read s) :
    s.tcpDataWaitForSendDeque.Settled := by
  rcases h with side | closed
  · exact .inr side.running
  · exact closed.settled

end Home

/-! ### The VPS side -/

namespace Vps
open TransparentProxyNet.Session (Event Handed Sends OnlySends Speaks statusAndData)

/-- The connect has failed. Messages gather in the queue, and nothing else happens. -/
structure Refused (delivered : List (List UInt8)) (read : List UInt8) (s : Session) : Prop where
  sends : Sends [] read s.toSession
  disabled : s.enableToSendToTargetServer = false
  reads : s.reads = []
  free : s.trafficBusy = false
  pending : s.tcpDataWaitForSendDeque.pending = []
  started : s.tcpDataWaitForSendDeque.started = []
  connects : s.connects = []
  opened : delivered ≠ []
  log : Logged s.tcpDataWaitForSendDeque (contents delivered)

/-- The session is closed, and nothing more goes to the target server. -/
structure Shut (delivered : List (List UInt8)) (read : List UInt8) (s : Session) : Prop where
  handed : Handed [] read s.toSession
  connects : s.connects = []
  enabled : s.enableToSendToTargetServer = true
  stream : s.toSession.submitted <+: (contents delivered).flatten
  settled : s.tcpDataWaitForSendDeque.Settled

/-- The session connects or relays, has been refused, or is closed. -/
def Half (endpoint : Endpoint) (delivered : List (List UInt8)) (read : List UInt8) (s : Session) :
    Prop := Side endpoint delivered read s ∨ Refused delivered read s ∨ Shut delivered read s

variable {endpoint : Endpoint} {delivered : List (List UInt8)} {read : List UInt8} {s t : Session}

/-! #### Refused -/

theorem Refused.of_same (h : Refused delivered read s) (sent : t.kcp.sent = s.kcp.sent)
    (reads : t.reads = s.reads) (busy : t.trafficBusy = s.trafficBusy)
    (unclosed : t.sessionClose = s.sessionClose)
    (gate : t.enableToSendToTargetServer = s.enableToSendToTargetServer)
    (deque : t.tcpDataWaitForSendDeque = s.tcpDataWaitForSendDeque)
    (connects : t.connects = s.connects) : Refused delivered read t :=
  ⟨h.sends.of_same sent reads busy unclosed, gate.trans h.disabled, reads.trans h.reads,
    busy.trans h.free, deque ▸ h.pending, deque ▸ h.started, connects.trans h.connects, h.opened,
    deque ▸ h.log⟩

theorem Refused.quiet (h : Refused delivered read s) {e : Event}
    (socket : Worker.onSocket e = true) : ¬ s.toSession.Enabled e := by
  cases e with
  | inputToKcp => cases socket
  | closeSession => cases socket
  | _ => simp [TransparentProxyNet.Session.Enabled, h.reads, h.pending, h.connects]

/-- A message that comes too late for the target server waits for ever. -/
theorem Refused.switch (h : Refused delivered read s) (bytes rest : List UInt8) :
    ∃ s', switchStatus s ⟨normalMessage bytes ++ rest, (normalMessage bytes).length⟩ = some s' ∧
      Refused (delivered ++ [normalMessage bytes]) read s' ∧ s'.kcp = s.kcp := by
  have normal := status_normalMessage bytes rest
  have other : CmdStatus.normal.code ≠ CmdStatus.newSession.code := by decide
  refine ⟨s.lift (·.setDeque (s.tcpDataWaitForSendDeque.pushBack
    ⟨normalMessage bytes ++ rest, (normalMessage bytes).length⟩)), ?_, ?_, rfl⟩
  · rw [switchStatus, if_neg (by rw [normal]; exact other), if_pos normal, trySend_eq,
      if_neg (by simp [h.disabled])]
  · exact ⟨h.sends.of_same rfl rfl rfl rfl, h.disabled, h.reads, h.free, h.pending, h.started,
      h.connects, by simp, h.log.push fun log held => held.pushBack h.pending _⟩

theorem Refused.input (h : Refused delivered read s) (none : s.kcp.rcvQueue = []) {len : Int}
    (acked : Nat) {arrived : List (List UInt8)} (fits : arrived = [] ∨ 24 ≤ len)
    (speaks : Speaks [statusAndData endpoint] (delivered ++ arrived)) (old : Nat → List UInt8) :
    ∃ s', inputToKcp s len ⟨acked, arrived⟩ old = some s' ∧
      Refused (delivered ++ arrived) read s' ∧ s'.kcp.sent = s.kcp.sent ∧
      s'.kcp.rcvQueue = [] := by
  obtain ⟨rcvQueue, sent⟩ := TransparentProxyNet.Session.ikcpInput_kcp none acked fits
  have start : Refused delivered read (s.lift (·.ikcpInput len ⟨acked, arrived⟩)) :=
    h.of_same sent rfl rfl rfl rfl rfl rfl
  obtain ⟨t, run, refused, same, left⟩ := TransparentProxyNet.Session.readLoop_delivers
    Session.toSession ikcpRecv switchStatus old (fun _ _ => rfl)
    (P := fun done t => Refused done read t)
    (speaks.sound (by simp [TransparentProxyNet.Session.sound_opening]))
    (by
      intro done message queue t rest cut refused
      rcases (cut ▸ speaks).opening with ⟨rfl, -⟩ | ⟨-, bytes, rfl⟩
      · exact absurd rfl refused.opened
      · have received : Refused done read (ikcpRecv t (normalMessage bytes).length) :=
          refused.of_same rfl rfl rfl rfl rfl rfl rfl
        exact received.switch bytes rest)
    (congrArg _ rcvQueue) start
  have idle : t.toSession.resumeTraffic = t.toSession := by
    simp [TransparentProxyNet.Session.resumeTraffic, refused.free]
  have kept : t.lift (·.resumeTraffic) = t := congrArg (fun u => { t with toSession := u }) idle
  refine ⟨t, ?_, refused, same.trans sent, left⟩
  rw [inputToKcp, if_neg (by simp [h.sends.unclosed])]
  refine (congrArg _ run).trans ?_
  exact congrArg some kept

/-! #### Shut -/

theorem close_again (closed : s.sessionClose = true) : s.lift (·.closeSession) = s :=
  congrArg (fun t => { s with toSession := t })
    (TransparentProxyNet.Session.closeSession_again closed)

theorem Shut.grow (h : Shut delivered read s) (arrived : List (List UInt8)) :
    Shut (delivered ++ arrived) read s := by
  refine ⟨h.handed, h.connects, h.enabled, h.stream.trans ?_, h.settled⟩
  rw [contents_append, List.flatten_append]
  exact List.prefix_append _ _

/-- The handler clears the deque. Unless the write has failed too it then pops from it, and
the code is lost. -/
theorem Shut.writeHandler (h : Shut delivered read s) {i : Nat} {ec : Bool}
    (enabled : s.toSession.Enabled (.writeHandler i ec)) (handled : writeHandler s i ec = some t) :
    Shut delivered read t ∧ OnlySends s.toSession t.toSession := by
  obtain ⟨op, run, -⟩ := Option.map_eq_some_iff.mp enabled
  obtain ⟨rfl, only, -⟩ := (h.settled.running run).handler run
  have still : (s.tcpDataWaitForSendDeque.retire 0).clear.pending = [] := by
    simp [Queue.retire, Queue.clear, only]
  rw [writeHandler_eq, if_pos h.handed.closed] at handled
  cases ec with
  | true =>
      have same := close_again
        (s := s.lift (·.setDeque (s.tcpDataWaitForSendDeque.retire 0).clear)) h.handed.closed
      rw [if_pos rfl, same] at handled
      cases handled
      exact ⟨⟨h.handed.of_same rfl rfl rfl, h.connects, h.enabled, h.stream, .inl still⟩,
        .of_kcp rfl⟩
  | false => cases handled

theorem Shut.event (h : Shut delivered read s) {e : Event} (socket : Worker.onSocket e = true)
    (enabled : s.toSession.Enabled e) (handled : handle s e = some t) :
    Shut delivered (read ++ e.bytesRead) t ∧ OnlySends s.toSession t.toSession := by
  cases e <;> simp only [Event.bytesRead, List.append_nil]
  case readDone i result =>
    exact absurd (h.handed.ended none (List.mem_of_getElem? enabled.1)) (by simp)
  case readHandler i result =>
    cases handled
    obtain ⟨handed, sent, queue, deque⟩ := h.handed.receiveHandler enabled
    refine ⟨⟨handed, ?_, h.enabled, ?_, (deque ▸ h.settled :)⟩, sent, queue⟩
    · exact s.toSession.receiveHandler_connects i result h.connects
    · change (TransparentProxyNet.Session.receiveHandler _ i result).submitted <+: _
      rw [TransparentProxyNet.Session.submitted, deque]
      exact h.stream
  case writeDone i ok =>
    cases handled
    exact ⟨⟨h.handed.of_same rfl rfl rfl, h.connects, h.enabled, h.stream,
      h.settled.complete i ok⟩, .of_kcp rfl⟩
  case writeHandler i ec => exact h.writeHandler enabled handled
  case connectDone i ok => simp [TransparentProxyNet.Session.Enabled, h.connects] at enabled
  case connectHandler i ec => simp [TransparentProxyNet.Session.Enabled, h.connects] at enabled
  case inputToKcp => cases socket
  case closeSession => cases socket

/-! #### Working -/

theorem Shut.of_close (handed : Handed [] read s.toSession.closeSession)
    (connects : s.connects = []) (enabled : s.enableToSendToTargetServer = true)
    (stream : s.toSession.submitted <+: (contents delivered).flatten)
    (settled : s.tcpDataWaitForSendDeque.Settled) :
    Shut delivered read (s.lift (·.closeSession)) := by
  refine ⟨handed, ?_, enabled, ?_, ?_⟩
  · exact TransparentProxyNet.Session.closeSession_connects connects
  · change s.toSession.closeSession.submitted <+: _
    rwa [TransparentProxyNet.Session.closeSession_submitted]
  · change s.toSession.closeSession.tcpDataWaitForSendDeque.Settled
    rw [TransparentProxyNet.Session.closeSession_deque]
    split
    · exact settled
    · exact settled.abort

/-- The handler of a write that has failed: its element stays, and the session closes. -/
theorem Relaying.writeFails (h : Relaying delivered s) (sends : Sends [] read s.toSession)
    (log : Logged s.tcpDataWaitForSendDeque (contents delivered)) {i : Nat}
    (enabled : s.toSession.Enabled (.writeHandler i true))
    (handled : writeHandler s i true = some t) :
    Shut delivered read t ∧ OnlySends s.toSession t.toSession := by
  obtain ⟨op, run, -⟩ := Option.map_eq_some_iff.mp enabled
  obtain ⟨rfl, only, -⟩ := h.running.handler run
  have still : (s.tcpDataWaitForSendDeque.retire 0).pending = [] := by
    simp [Queue.retire, only]
  rw [writeHandler_eq, if_pos rfl, if_neg (by simp [sends.unclosed])] at handled
  cases handled
  have handed : Sends [] read
      (s.toSession.setDeque (s.tcpDataWaitForSendDeque.retire 0)) := sends.of_same rfl rfl rfl rfl
  exact ⟨.of_close handed.close h.connects h.enabled log.submitted (.inl still),
    .of_kcp (TransparentProxyNet.Session.closeSession_kcp _)⟩

/-- The handler of a connect that has failed: the session stays open. -/
theorem Side.connectFails (h : Side endpoint delivered read s) {i : Nat}
    (enabled : s.toSession.Enabled (.connectHandler i true)) :
    Refused delivered read { s with connects := s.connects.eraseIdx i } := by
  obtain ⟨waiting, connects, opened⟩ := h.connecting enabled
  exact ⟨h.sends.of_same rfl rfl rfl rfl, waiting.disabled, waiting.reads, waiting.free,
    waiting.pending, waiting.started, connects, opened, h.log⟩

theorem Side.connectEnds (h : Side endpoint delivered read s) {i : Nat} {ok : Bool}
    (enabled : s.toSession.Enabled (.connectDone i ok)) :
    Side endpoint delivered read (s.lift (·.connectDone i ok)) := by
  obtain ⟨waiting, -, -⟩ := h.connecting enabled
  refine ⟨h.sends.of_same rfl rfl rfl rfl, .inl ⟨waiting.disabled, waiting.reads, waiting.free,
    waiting.pending, waiting.started, ?_, waiting.asked⟩, h.log⟩
  rw [← waiting.connects]
  exact s.toSession.connectDone_targets i ok

theorem Side.step (h : Side endpoint delivered read s) {e : Event}
    (socket : Worker.onSocket e = true) (enabled : s.toSession.Enabled e)
    (handled : handle s e = some t) :
    Half endpoint delivered (read ++ e.bytesRead) t ∧ OnlySends s.toSession t.toSession := by
  by_cases faultless : TransparentProxyNet.Session.Faultless e
  · obtain ⟨u, same, side, sent, queue⟩ := h.event faultless enabled
    cases same.symm.trans handled
    exact ⟨.inl side, sent, queue⟩
  have failing (result : ReadResult) (i : Nat)
      (none : TransparentProxyNet.Session.ReadResult.bytes result = [])
      (enabled : s.toSession.Enabled (.readHandler i result)) : Shut delivered read
        (Session.lift (·.closeSession) { s with reads := s.reads.eraseIdx i }) := by
    rcases h.phase with waiting | relaying
    · simp [TransparentProxyNet.Session.Enabled, waiting.reads] at enabled
    · exact .of_close (h.sends.readFails enabled none) relaying.connects relaying.enabled
        h.log.submitted (.inr relaying.running)
  cases e <;> simp only [Event.bytesRead, List.append_nil]
  case readDone i result =>
    cases handled
    rcases h.phase with waiting | relaying
    · exact absurd enabled.1 (by simp [waiting.reads])
    · exact ⟨.inl ⟨h.sends.readEnds enabled, .inr (relaying.of_same rfl rfl rfl), h.log⟩,
        .of_kcp rfl⟩
  case readHandler i result =>
    cases result with
    | data bytes => exact absurd ⟨bytes, rfl⟩ faultless
    | eof =>
        cases handled
        exact ⟨.inr (.inr (failing .eof i rfl enabled)),
          .of_kcp (TransparentProxyNet.Session.closeSession_kcp _)⟩
    | error =>
        cases handled
        exact ⟨.inr (.inr (failing .error i rfl enabled)),
          .of_kcp (TransparentProxyNet.Session.closeSession_kcp _)⟩
  case writeDone i ok =>
    cases handled
    rcases h.phase with waiting | relaying
    · simp [TransparentProxyNet.Session.Enabled, waiting.pending] at enabled
    · exact ⟨.inl ⟨h.sends.of_same rfl rfl rfl rfl, .inr ⟨relaying.enabled,
        relaying.running.complete i ok, relaying.connects, relaying.opened⟩,
        h.log.keep fun _ held => held.complete i ok⟩, .of_kcp rfl⟩
  case writeHandler i ec =>
    cases ec with
    | false => exact absurd rfl faultless
    | true =>
        rcases h.phase with waiting | relaying
        · simp [TransparentProxyNet.Session.Enabled, waiting.pending] at enabled
        · exact (relaying.writeFails h.sends h.log enabled handled).imp (.inr ∘ .inr) id
  case connectDone i ok =>
    cases handled
    exact ⟨.inl (h.connectEnds enabled), .of_kcp rfl⟩
  case connectHandler i ec =>
    cases ec with
    | false => exact absurd rfl faultless
    | true =>
        cases handled
        exact ⟨.inr (.inl (h.connectFails enabled)), .of_kcp rfl⟩
  case inputToKcp => cases socket
  case closeSession => cases socket

theorem Half.event (h : Half endpoint delivered read s) {e : Event}
    (socket : Worker.onSocket e = true) (enabled : s.toSession.Enabled e)
    (handled : handle s e = some t) :
    Half endpoint delivered (read ++ e.bytesRead) t ∧ OnlySends s.toSession t.toSession := by
  rcases h with side | refused | closed
  · exact side.step socket enabled handled
  · exact absurd enabled (refused.quiet socket)
  · exact (closed.event socket enabled handled).imp (.inr ∘ .inr) id

theorem Half.input (h : Half endpoint delivered read s) (none : s.kcp.rcvQueue = []) {len : Int}
    {acked : Nat} {arrived : List (List UInt8)} (fits : arrived = [] ∨ 24 ≤ len)
    (speaks : Speaks [statusAndData endpoint] (delivered ++ arrived)) {old : Nat → List UInt8}
    (handled : inputToKcp s len ⟨acked, arrived⟩ old = some t) :
    Half endpoint (delivered ++ arrived) read t ∧ s.kcp.sent <+: t.kcp.sent ∧
      t.kcp.rcvQueue = [] := by
  rcases h with side | refused | closed
  · obtain ⟨u, same, side', sent, queue⟩ := side.input none acked fits speaks old
    cases same.symm.trans handled
    exact ⟨.inl side', sent, queue⟩
  · obtain ⟨u, same, refused', sent, queue⟩ := refused.input none acked fits speaks old
    cases same.symm.trans handled
    exact ⟨.inr (.inl refused'), sent ▸ List.prefix_refl _, queue⟩
  · rw [inputToKcp, if_pos closed.handed.closed] at handled
    cases handled
    exact ⟨.inr (.inr (closed.grow arrived)), List.prefix_refl _, none⟩

theorem Half.speaks (h : Half endpoint delivered read s) : Speaks [] s.kcp.sent := by
  rcases h with side | refused | closed
  · exact side.sends.speaks
  · exact refused.sends.speaks
  · exact closed.handed.speaks

theorem Half.kept (h : Half endpoint delivered read s) :
    (contents s.kcp.sent).flatten ++ s.toSession.unsent = read := by
  rcases h with side | refused | closed
  · exact side.sends.all rfl
  · exact refused.sends.all rfl
  · exact closed.handed.all rfl

theorem Half.stream (h : Half endpoint delivered read s) :
    s.toSession.submitted <+: (contents delivered).flatten := by
  rcases h with side | refused | closed
  · exact side.log.submitted
  · exact refused.log.submitted
  · exact closed.stream

theorem Half.settled (h : Half endpoint delivered read s) :
    s.tcpDataWaitForSendDeque.Settled := by
  rcases h with side | refused | closed
  · rcases side.phase with waiting | relaying
    · exact .inl waiting.pending
    · exact .inr relaying.running
  · exact .inl refused.pending
  · exact closed.settled

theorem Half.connects (h : Half endpoint delivered read s) :
    s.connects.map Prod.fst <+: [endpoint] := by
  rcases h with side | refused | closed
  · rcases side.phase with waiting | relaying
    · rw [waiting.connects]
      cases delivered with
      | nil => exact List.nil_prefix
      | cons message delivered => exact List.prefix_refl _
    · simp [relaying.connects]
  · simp [refused.connects]
  · simp [closed.connects]

theorem Half.gate (h : Half endpoint delivered read s)
    (off : s.enableToSendToTargetServer = false) : s.toSession.submitted = [] := by
  have unstarted : s.tcpDataWaitForSendDeque.started = [] := by
    rcases h with side | refused | closed
    · rcases side.phase with waiting | relaying
      · exact waiting.started
      · cases off.symm.trans relaying.enabled
    · exact refused.started
    · cases off.symm.trans closed.enabled
  rw [TransparentProxyNet.Session.submitted, unstarted]
  rfl

end Vps

/-! ### Both -/

namespace Tunnel

/-- The two halves, whatever has become of them, and the messages between them. -/
structure Joined (endpoint : Endpoint) (t : Tunnel) : Prop where
  home : Home.Half endpoint t.toHome t.homeRead t.home
  vps : Vps.Half endpoint t.toVps t.vpsRead t.vps
  homeQueue : t.home.kcp.rcvQueue = []
  vpsQueue : t.vps.kcp.rcvQueue = []
  toVps : t.toVps <+: t.home.kcp.sent
  toHome : t.toHome <+: t.vps.kcp.sent

/-- One direction. What `near` has read is with its KCP, but for what waits for a handler,
and what `far` has submitted is a prefix of it. -/
structure Conveyed (near : Session) (read : List UInt8) (far : Session) : Prop where
  kept : (contents near.kcp.sent).flatten ++ near.unsent = read
  stream : far.submitted <+: read
  oneWrite : far.tcpDataWaitForSendDeque.pending.length ≤ 1

/-- `connected` says that the handler of a connect has succeeded. -/
structure Intact (endpoint : Endpoint) (connected : Prop) (t : Tunnel) : Prop where
  up : Conveyed t.home t.homeRead t.vps.toSession
  down : Conveyed t.vps.toSession t.vpsRead t.home
  /-- The VPS connects to `endpoint`, and to nothing else. -/
  connects : t.vps.connects.map Prod.fst <+: [endpoint]
  /-- Before that nothing is submitted to the target server. -/
  gate : ¬ connected → t.vps.toSession.submitted = []

variable {endpoint : Endpoint} {t t' : Tunnel}

theorem Joined.step {e : Event} (h : Joined endpoint t) (step : ClosingStep t e t') :
    Joined endpoint t' := by
  obtain ⟨possible, handled⟩ := step
  cases e with
  | home e =>
      obtain ⟨s, run, rfl⟩ := Option.map_eq_some_iff.mp handled
      obtain ⟨half, only⟩ := h.home.event possible.1 possible.2 run
      exact ⟨half, h.vps, only.rcvQueue.trans h.homeQueue, h.vpsQueue, h.toVps.trans only.sent,
        h.toHome⟩
  | vps e =>
      obtain ⟨s, run, rfl⟩ := Option.map_eq_some_iff.mp handled
      obtain ⟨half, only⟩ := h.vps.event possible.1 possible.2 run
      exact ⟨h.home, half, h.homeQueue, only.rcvQueue.trans h.vpsQueue, h.toVps,
        h.toHome.trans only.sent⟩
  | toVps len acked arrived old =>
      obtain ⟨s, run, rfl⟩ := Option.map_eq_some_iff.mp handled
      have speaks := h.home.speaks.mono possible.1
      obtain ⟨half, sent, queue⟩ := h.vps.input h.vpsQueue possible.2 speaks run
      exact ⟨h.home, half, h.homeQueue, queue, possible.1, h.toHome.trans sent⟩
  | toHome len acked arrived old =>
      obtain ⟨s, run, rfl⟩ := Option.map_eq_some_iff.mp handled
      have speaks := h.vps.speaks.mono possible.1
      obtain ⟨half, sent, queue⟩ := h.home.input h.homeQueue possible.2 speaks run
      exact ⟨half, h.vps, queue, h.vpsQueue, h.toVps.trans sent, possible.1⟩

theorem start_joined (sessionId : SessionId) (homeNext vpsNext : UInt32)
    (endpoint homeClienEndpoint : Endpoint) :
    (start sessionId homeNext vpsNext endpoint homeClienEndpoint).Joined endpoint := by
  have h := start_invariant sessionId homeNext vpsNext endpoint homeClienEndpoint
  exact ⟨.inl h.home, .inl h.vps, h.homeQueue, h.vpsQueue, h.toVps, h.toHome⟩

theorem settled_short {q : Queue Packet} (h : q.Settled) : q.pending.length ≤ 1 := by
  rcases h with still | running
  · simp [still]
  · exact (running_short running).1

theorem conveyed {near far : Session} {read : List UInt8} {delivered : List (List UInt8)}
    (kept : (contents near.kcp.sent).flatten ++ near.unsent = read)
    (part : delivered <+: near.kcp.sent) (stream : far.submitted <+: (contents delivered).flatten)
    (settled : far.tcpDataWaitForSendDeque.Settled) : Conveyed near read far := by
  refine ⟨kept, stream.trans ?_, settled_short settled⟩
  have given : (contents delivered).flatten <+: (contents near.kcp.sent).flatten :=
    List.IsPrefix.flatten (contents_mono part)
  exact given.trans ⟨_, kept⟩

theorem Joined.intact {connected : Prop} (h : Joined endpoint t)
    (opened : t.vps.enableToSendToTargetServer = true → connected) :
    Intact endpoint connected t where
  up := conveyed h.home.kept h.toVps h.vps.stream h.vps.settled
  down := conveyed h.vps.kept h.toHome h.home.stream h.home.settled
  connects := h.vps.connects
  gate off := h.vps.gate (by simpa using mt opened off)

/-- Whatever fails, and whenever either half closes. -/
theorem intact_through_failures {sessionId : SessionId} {homeNext vpsNext : UInt32}
    {endpoint homeClienEndpoint : Endpoint} {es : List Event} {t : Tunnel}
    (run : Trace ClosingStep (start sessionId homeNext vpsNext endpoint homeClienEndpoint) es t) :
    t.Intact endpoint (Connected es) := by
  have joined : t.Joined endpoint :=
    run.invariant (I := Joined endpoint) (fun _ _ _ h step => h.step step)
      (start_joined sessionId homeNext vpsNext endpoint homeClienEndpoint)
  exact joined.intact (gate_iff (fun _ _ _ step => step.2) run).mp

/-- The target server answers, the client sends two bytes and is cut off. -/
def cutOff : List Event :=
  [.toVps 34 0 [Session.statusAndData ⟨1, 80⟩] fun _ => [], .vps (.connectDone 0 true),
    .vps (.connectHandler 0 false), .home (.readDone 0 (.data [7, 8])),
    .home (.readHandler 0 (.data [7, 8])), .toVps 30 0 [normalMessage [7, 8]] fun _ => [],
    .home (.readDone 0 .error), .home (.readHandler 0 .error), .vps (.writeDone 0 false),
    .vps (.writeHandler 0 true)]

theorem intact_cutOff :
    ∃ t, cutOff.foldlM closingNext (start (.replicate 16 0) 10 10 ⟨1, 80⟩ ⟨0, 0⟩) = some t ∧
      t.home.sessionClose = true ∧ t.vps.sessionClose = true ∧
      t.Intact ⟨1, 80⟩ (Connected cutOff) := by
  obtain ⟨t, run, home, vps⟩ :
      ∃ t, cutOff.foldlM closingNext (start (.replicate 16 0) 10 10 ⟨1, 80⟩ ⟨0, 0⟩) = some t ∧
        t.home.sessionClose = true ∧ t.vps.sessionClose = true := ⟨_, by rfl, by rfl, by rfl⟩
  exact ⟨t, run, home, vps,
    intact_through_failures (.of_foldlM (fun _ _ _ => closingStep_of_next) run)⟩

end Tunnel
end TransparentProxyNet
