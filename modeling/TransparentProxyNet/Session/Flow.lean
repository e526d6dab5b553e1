import TransparentProxyNet.Session.WriteQueue

/-! What the handlers of a session do to its KCP object and to its close flag, and what
they ask of the worker while they do it. -/
namespace TransparentProxyNet

/-- A call that takes a node from the pool and leaves the wheel alone. -/
def Call.takesNode : Call → Bool
  | .getSharedPtrFunc _ => true
  | _ => false

namespace Session

/-- A session that has stopped reading has a backlog above the mark for going on. -/
def Paused (s : Session) : Prop :=
  s.trafficBusy → kcpSendWindowHighWaterMark * 2 / 3 ≤ s.kcp.ikcp_waitsnd

/-- Every read has ended, and none of them with data. -/
def Spent (s : Session) : Prop := ∀ r ∈ s.reads, r = some .eof ∨ r = some .error

/-- On a closed socket no read is in progress. -/
def Ended (s : Session) : Prop := s.sessionClose → ∀ r ∈ s.reads, r.isSome

/-- A session that had asked for nothing asks for nodes, or closes and asks to be taken
off the wheel. -/
def Asks (s t : Session) : Prop :=
  (t.sessionClose = s.sessionClose ∧ ∀ c ∈ t.calls, c.takesNode) ∨
    (s.sessionClose = false ∧ t.sessionClose = true ∧ t.calls = [.removeTask])

/-- What one handler may do to a session. -/
structure Handled (s t : Session) : Prop where
  sessionId : t.sessionId = s.sessionId
  drained : Drained s.kcp.rcvQueue → Drained t.kcp.rcvQueue
  paused : s.Paused → t.Paused
  ended : s.Ended → t.Ended
  asks : s.calls = [] → Asks s t
  closed : s.sessionClose → t.sessionClose ∧ s.kcp.waitsnd ≤ t.kcp.waitsnd
  spent : s.sessionClose → s.Spent → t.Spent ∧ t.kcp.waitsnd = s.kcp.waitsnd

/-- A handler of a write or a connect. -/
structure Unseen (s t : Session) : Prop where
  sessionId : t.sessionId = s.sessionId
  kcp : t.kcp = s.kcp
  trafficBusy : t.trafficBusy = s.trafficBusy
  sessionClose : t.sessionClose = s.sessionClose
  calls : t.calls = s.calls
  ended : s.Ended → t.Ended
  spent : s.sessionClose → s.Spent → t.Spent

section
variable {s t u : Session}

theorem Unseen.refl (s : Session) : Unseen s s := ⟨rfl, rfl, rfl, rfl, rfl, id, fun _ => id⟩

theorem Unseen.handled (h : Unseen s t) : Handled s t := by
  refine ⟨h.sessionId, fun drained => h.kcp ▸ drained, ?_, h.ended,
    fun none => .inl ⟨h.sessionClose, ?_⟩, ?_, ?_⟩
  · rw [Paused, Paused, h.trafficBusy, h.kcp]
    exact id
  · simp [h.calls, none]
  · intro closed
    exact ⟨h.sessionClose ▸ closed, by rw [h.kcp]⟩
  · exact fun closed spent => ⟨h.spent closed spent, by rw [h.kcp]⟩

/-- No handler opens a session again. -/
theorem Handled.unclosed (h : Handled s t) (unclosed : t.sessionClose = false) :
    s.sessionClose = false := by
  cases flag : s.sessionClose with
  | false => rfl
  | true => cases unclosed.symm.trans (h.closed flag).1

/-- A handler that the rest of the session does not see runs first. -/
theorem Handled.after (h : Handled t u) (first : Unseen s t) : Handled s u := by
  refine ⟨h.sessionId.trans first.sessionId, fun drained => h.drained (first.kcp ▸ drained),
    fun paused => h.paused ?_,
    fun ended => h.ended (first.ended ended), ?_, ?_, ?_⟩
  · rwa [Paused, first.trafficBusy, first.kcp]
  · intro none
    have asks := h.asks (first.calls.trans none)
    rwa [Asks, first.sessionClose] at asks
  · intro closed
    have kept := h.closed (first.sessionClose ▸ closed)
    rwa [first.kcp] at kept
  · intro closed spent
    have kept := h.spent (first.sessionClose ▸ closed) (first.spent closed spent)
    rwa [first.kcp] at kept

theorem handled_closeSession (s : Session) : Handled s s.closeSession := by
  unfold closeSession
  cases flag : s.sessionClose with
  | true => exact (Unseen.refl s).handled
  | false =>
      refine ⟨rfl, id, id, ?_, fun none => .inr ⟨flag, rfl, by simp [none]⟩, ?_, ?_⟩
      · intro _ _ r member
        obtain ⟨q, -, rfl⟩ := List.mem_map.mp member
        rfl
      · exact fun closed => absurd closed (by simp [flag])
      · exact fun closed => absurd closed (by simp [flag])

/-- The reads of a session that closes end, with data only if they had it before. -/
theorem spent_closeSession (ended : s.Ended) (h : ∀ r ∈ s.reads, ∀ bytes, r ≠ some (.data bytes)) :
    s.closeSession.Spent := by
  have spent (result : ReadResult) (member : some result ∈ s.reads) :
      result = .eof ∨ result = .error := by
    cases result with
    | data bytes => exact absurd rfl (h _ member bytes)
    | eof => exact .inl rfl
    | error => exact .inr rfl
  intro r member
  cases flag : s.sessionClose with
  | true =>
      rw [closeSession, if_pos flag] at member
      obtain ⟨result, rfl⟩ := Option.isSome_iff_exists.mp (ended flag r member)
      exact (spent result member).imp (congrArg some) (congrArg some)
  | false =>
      rw [closeSession, if_neg (by simp [flag])] at member
      obtain ⟨q, inside, rfl⟩ := List.mem_map.mp member
      cases q with
      | none => exact .inr rfl
      | some result => exact (spent result inside).imp (congrArg some) (congrArg some)

theorem Spent.eraseIdx (h : s.Spent) (i : Nat) : Spent { s with reads := s.reads.eraseIdx i } :=
  fun r member => h r (List.mem_of_mem_eraseIdx member)

theorem Ended.eraseIdx (h : s.Ended) (i : Nat) : Ended { s with reads := s.reads.eraseIdx i } :=
  fun closed r member => h closed r (List.mem_of_mem_eraseIdx member)

theorem unseen_setDeque (s : Session) (q : Pump.Queue Packet) : Unseen s (s.setDeque q) :=
  ⟨rfl, rfl, rfl, rfl, rfl, id, fun _ => id⟩

theorem unseen_receiveTcpMessage (s : Session) : Unseen s s.receiveTcpMessage := by
  have reads (closed : s.sessionClose) : s.receiveTcpMessage.reads = s.reads ++ [some .error] := by
    rw [receiveTcpMessage, if_pos closed]
  refine ⟨rfl, rfl, rfl, rfl, rfl, ?_, ?_⟩
  · intro ended closed r member
    rw [reads closed, List.mem_append, List.mem_singleton] at member
    rcases member with old | rfl
    · exact ended closed r old
    · rfl
  · intro closed spent r member
    rw [reads closed, List.mem_append, List.mem_singleton] at member
    rcases member with old | rfl
    · exact spent r old
    · exact .inr rfl

theorem handled_checkTrafficStatus (s : Session) : Handled s s.checkTrafficStatus := by
  unfold checkTrafficStatus
  split
  · refine ⟨rfl, id, ?_, id, fun none => .inl ⟨rfl, by simp [none]⟩,
      fun closed => ⟨closed, Nat.le_refl _⟩, fun _ spent => ⟨spent, rfl⟩⟩
    intro _ _
    simp only [kcpSendWindowHighWaterMark, Kcp.ikcp_waitsnd, ge_iff_le] at *
    omega
  · exact (unseen_receiveTcpMessage s).handled

theorem handled_readDone (s : Session) (i : Nat) (result : ReadResult)
    (enabled : s.Enabled (.readDone i result)) : Handled s (s.readDone i result) := by
  refine Unseen.handled ⟨rfl, rfl, rfl, rfl, rfl, ?_, ?_⟩
  · intro ended closed
    exact absurd (ended closed none (List.mem_of_getElem? enabled.1)) (by simp)
  · intro _ spent
    rcases spent none (List.mem_of_getElem? enabled.1) with eof | error
    · cases eof
    · cases error

theorem handled_receiveHandler (s : Session) {i : Nat} {result : ReadResult}
    (enabled : s.Enabled (.readHandler i result)) : Handled s (s.receiveHandler i result) := by
  have first : Unseen s { s with reads := s.reads.eraseIdx i } :=
    ⟨rfl, rfl, rfl, rfl, rfl, fun ended => ended.eraseIdx i, fun _ spent => spent.eraseIdx i⟩
  cases result with
  | eof => exact (handled_closeSession _).after first
  | error => exact (handled_closeSession _).after first
  | data bytes =>
      simp only [receiveHandler]
      split
      · exact first.handled
      · obtain ⟨t, sent⟩ : ∃ t, t = { s with
            reads := s.reads.eraseIdx i
            kcp := s.kcp.ikcp_send (CmdStatus.normal.bytes ++ bytes) } := ⟨_, rfl⟩
        rw [← sent]
        have last := handled_checkTrafficStatus t
        have more : s.kcp.waitsnd ≤ t.kcp.waitsnd := by
          rw [sent]
          exact Nat.le_add_right _ _
        refine ⟨last.sessionId.trans (by rw [sent]),
          fun drained => last.drained (by rw [sent]; exact drained),
          fun paused => last.paused ?_, fun ended =>
            last.ended (by rw [sent]; exact ended.eraseIdx i),
          ?_, ?_, ?_⟩
        · intro busy
          exact (paused (by rw [sent] at busy; exact busy)).trans more
        · intro none
          have asks := last.asks (by rw [sent]; exact none)
          have status : t.sessionClose = s.sessionClose := by rw [sent]
          rwa [Asks, status] at asks
        · intro closed
          have kept := last.closed (by rw [sent]; exact closed)
          exact ⟨kept.1, more.trans kept.2⟩
        · intro _ spent
          rcases spent _ (List.mem_of_getElem? enabled) with eof | error
          · cases eof
          · cases error

/-! ### The input of a datagram -/

/-- `t` is the session `s` while the loop of `tryToReadFromKcp` has `queue` before it. -/
structure Reading (s : Session) (queue : List (List UInt8)) (t : Session) : Prop where
  sessionId : t.sessionId = s.sessionId
  rcvQueue : t.kcp.rcvQueue = queue
  waitsnd : t.kcp.waitsnd = s.kcp.waitsnd
  trafficBusy : t.trafficBusy = s.trafficBusy
  sessionClose : t.sessionClose = s.sessionClose
  calls : s.calls = [] → ∀ c ∈ t.calls, c.takesNode

theorem Reading.start (s : Session) : Reading s s.kcp.rcvQueue s :=
  ⟨rfl, rfl, rfl, rfl, rfl, fun none => by simp [none]⟩

theorem Reading.recv {queue : List (List UInt8)} {message : List UInt8}
    (h : Reading s (message :: queue) t) (size : Nat) : Reading s queue (t.ikcpRecv size) := by
  refine ⟨h.sessionId, ?_, h.waitsnd, h.trafficBusy, h.sessionClose, ?_⟩
  · simp [ikcpRecv, Kcp.ikcp_recv, h.rcvQueue]
  · intro none c member
    rcases List.mem_append.mp member with old | new
    · exact h.calls none c old
    · rw [List.mem_singleton.mp new]
      rfl

theorem Reading.unseen {queue : List (List UInt8)} (h : Reading s queue t) (same : Unseen t u) :
    Reading s queue u :=
  ⟨same.sessionId.trans h.sessionId, (congrArg Kcp.rcvQueue same.kcp).trans h.rcvQueue,
    (congrArg Kcp.waitsnd same.kcp).trans h.waitsnd, same.trafficBusy.trans h.trafficBusy,
    same.sessionClose.trans h.sessionClose, fun none => same.calls ▸ h.calls none⟩

/-- The loop ends where no message is left, and keeps what each of its rounds keeps. -/
theorem readLoop_drains {S : Type} {recv : S → Nat → S} {switch : S → Packet → Option S}
    {old : Nat → List UInt8} {P : List (List UInt8) → S → Prop}
    (round : ∀ message queue s s', P (message :: queue) s → ∀ pair,
      switch (recv s message.length) pair = some s' → P queue s')
    {queue : List (List UInt8)} {s s' : S} (start : P queue s)
    (run : readLoop recv switch old queue s = some s') : ∃ rest, Drained rest ∧ P rest s' := by
  induction queue generalizing s with
  | nil =>
      cases run
      exact ⟨[], drained_nil, start⟩
  | cons message queue ih =>
      simp only [readLoop] at run
      split at run
      · cases run
        refine ⟨message :: queue, ?_, start⟩
        simpa [Drained] using List.length_eq_zero_iff.mp ‹_›
      · obtain ⟨t, switched, rest⟩ := Option.bind_eq_some_iff.mp run
        exact ih (round _ _ _ _ start _ switched) rest

/-- The messages that a session reads after an input are those it had and those that the
input completes. -/
theorem ikcpInput_rcvQueue (s : Session) (len : Int) (input : KcpInput) :
    ∀ message ∈ (s.ikcpInput len input).kcp.rcvQueue,
      message ∈ s.kcp.rcvQueue ∨ message ∈ input.arrived := by
  intro message member
  simp only [Session.ikcpInput, Kcp.ikcp_input] at member
  split at member
  · exact .inl member
  · exact List.mem_append.mp member

/-- What the end of `inputToKcp` makes of a session whose messages have been read. -/
theorem handled_resumeTraffic {len : Int} {input : KcpInput} {rest : List (List UInt8)}
    (h : Reading (s.ikcpInput len input) rest t) (drained : Drained rest)
    (unclosed : s.sessionClose = false) : Handled s t.resumeTraffic := by
  have flags : t.resumeTraffic.sessionId = t.sessionId ∧ t.resumeTraffic.kcp = t.kcp ∧
      t.resumeTraffic.calls = t.calls := by
    unfold resumeTraffic
    split <;> exact ⟨rfl, rfl, rfl⟩
  have absurd_closed {P : Prop} (closed : s.sessionClose) : P := absurd closed (by simp [unclosed])
  have flag := t.resumeTraffic_sessionClose.trans h.sessionClose
  refine ⟨flags.1.trans h.sessionId, ?_, ?_, ?_, fun none => .inl ⟨flag, ?_⟩,
    absurd_closed, absurd_closed⟩
  · intro _
    rw [flags.2.1, h.rcvQueue]
    exact drained
  · intro _
    unfold resumeTraffic
    split
    · intro busy
      cases busy
    · intro busy
      simp only [busy, Bool.true_and, decide_eq_true_eq, Nat.not_lt] at *
      assumption
  · intro _ closed
    exact absurd_closed (flag.symm.trans closed)
  · rw [flags.2.2]
    exact h.calls none

end
end Session

namespace Home
open TransparentProxyNet.Session (Handled Unseen Reading readLoop_drains)

theorem unseen_switch {s s' : Session} {pair : Packet} (switched : switchStatus s pair = some s') :
    Unseen s s' := by
  unfold switchStatus at switched
  split at switched
  · obtain ⟨q, -, rfl⟩ := Option.map_eq_some_iff.mp ((s.push_eq pair).symm.trans switched)
    exact s.unseen_setDeque q
  · cases switched
    exact .refl s

/-- A closed session takes no input; an open one reads what is complete, and goes on with
the reads of its socket if it can. -/
theorem inputToKcp_cases {s s' : Session} {len : Int} {input : KcpInput} {old : Nat → List UInt8}
    (handled : inputToKcp s len input old = some s') : (s.sessionClose = true ∧ s' = s) ∨
      s.sessionClose = false ∧ ∃ rest t, Session.Drained rest ∧
        Reading (s.ikcpInput len input) rest t ∧ s' = t.resumeTraffic := by
  unfold inputToKcp at handled
  cases flag : s.sessionClose with
  | true =>
      rw [flag, if_pos rfl] at handled
      cases handled
      exact .inl ⟨rfl, rfl⟩
  | false =>
      rw [flag, if_neg Bool.false_ne_true] at handled
      obtain ⟨t, read, rfl⟩ := Option.map_eq_some_iff.mp handled
      obtain ⟨rest, drained, reading⟩ := readLoop_drains (P := Reading (s.ikcpInput len input))
        (fun message queue u v reading pair switched => (reading.recv message.length).unseen
          (unseen_switch switched))
        (.start _) read
      exact .inr ⟨rfl, rest, t, drained, reading, rfl⟩

theorem handled_inputToKcp {s s' : Session} {len : Int} {input : KcpInput} {old : Nat → List UInt8}
    (handled : inputToKcp s len input old = some s') : Handled s s' := by
  rcases inputToKcp_cases handled with ⟨-, rfl⟩ | ⟨unclosed, rest, t, drained, reading, rfl⟩
  · exact (Unseen.refl s').handled
  · exact Session.handled_resumeTraffic reading drained unclosed

theorem handled_writeHandler {s s' : Session} {i : Nat} {ec : Bool}
    (handled : writeHandler s i ec = some s') : Handled s s' := by
  rw [writeHandler_eq] at handled
  obtain ⟨q, -, rest⟩ := Option.bind_eq_some_iff.mp handled
  cases ec with
  | true =>
      cases rest
      exact (Session.handled_closeSession _).after (s.unseen_setDeque _)
  | false =>
      obtain ⟨q', -, rfl⟩ := Option.map_eq_some_iff.mp rest
      exact (s.unseen_setDeque q').handled

theorem handled_step {s s' : Session} {e : Session.Event} (step : SessionStep s e s') :
    Handled s s' := by
  obtain ⟨enabled, handled⟩ := step
  cases e with
  | readDone i result =>
      cases handled
      exact s.handled_readDone i result enabled
  | readHandler i result =>
      cases handled
      exact s.handled_receiveHandler enabled
  | writeDone i ok =>
      cases handled
      exact (s.unseen_setDeque _).handled
  | writeHandler i ec => exact handled_writeHandler handled
  | connectDone i ok =>
      cases handled
      exact Unseen.handled ⟨rfl, rfl, rfl, rfl, rfl, id, fun _ => id⟩
  | connectHandler i ec =>
      cases handled
      exact (Unseen.refl s).handled
  | inputToKcp len input old => exact handled_inputToKcp handled
  | closeSession =>
      cases handled
      exact s.handled_closeSession

end Home

namespace Vps
open TransparentProxyNet.Session (Handled Unseen Reading readLoop_drains)

theorem unseen_switch {s s' : Session} {pair : Packet} (switched : switchStatus s pair = some s') :
    Unseen s.toSession s'.toSession := by
  unfold switchStatus at switched
  split at switched
  · split at switched
    · cases switched
      exact ⟨rfl, rfl, rfl, rfl, rfl, id, fun _ => id⟩
    · cases switched
      exact .refl _
  · split at switched
    · rw [trySend_eq] at switched
      split at switched
      · obtain ⟨q, -, rfl⟩ := Option.map_eq_some_iff.mp switched
        exact s.toSession.unseen_setDeque q
      · cases switched
        exact s.toSession.unseen_setDeque _
    · cases switched
      exact .refl _

theorem inputToKcp_cases {s s' : Session} {len : Int} {input : KcpInput} {old : Nat → List UInt8}
    (handled : inputToKcp s len input old = some s') : (s.sessionClose = true ∧ s' = s) ∨
      s.sessionClose = false ∧ ∃ rest, ∃ t : Session, TransparentProxyNet.Session.Drained rest ∧
        Reading (s.toSession.ikcpInput len input) rest t.toSession ∧
          s' = t.lift (·.resumeTraffic) := by
  unfold inputToKcp at handled
  cases flag : s.sessionClose with
  | true =>
      rw [flag, if_pos rfl] at handled
      cases handled
      exact .inl ⟨rfl, rfl⟩
  | false =>
      rw [flag, if_neg Bool.false_ne_true] at handled
      obtain ⟨t, read, rfl⟩ := Option.map_eq_some_iff.mp handled
      obtain ⟨rest, drained, reading⟩ :=
        readLoop_drains
          (P := fun queue u => Reading (s.toSession.ikcpInput len input) queue u.toSession)
          (fun message queue u v reading pair switched => (reading.recv message.length).unseen
            (unseen_switch switched))
          (.start _) read
      exact .inr ⟨rfl, rest, t, drained, reading, rfl⟩

theorem handled_inputToKcp {s s' : Session} {len : Int} {input : KcpInput} {old : Nat → List UInt8}
    (handled : inputToKcp s len input old = some s') : Handled s.toSession s'.toSession := by
  rcases inputToKcp_cases handled with ⟨-, rfl⟩ | ⟨unclosed, rest, t, drained, reading, rfl⟩
  · exact (Unseen.refl _).handled
  · exact Session.handled_resumeTraffic reading drained unclosed

theorem handled_writeHandler {s s' : Session} {i : Nat} {ec : Bool}
    (handled : writeHandler s i ec = some s') : Handled s.toSession s'.toSession := by
  rw [writeHandler_eq] at handled
  cases ec with
  | true =>
      cases handled
      exact (Session.handled_closeSession _).after (s.toSession.unseen_setDeque _)
  | false =>
      obtain ⟨q, -, rest⟩ := Option.bind_eq_some_iff.mp handled
      obtain ⟨q', -, rfl⟩ := Option.map_eq_some_iff.mp rest
      exact (s.toSession.unseen_setDeque q').handled

theorem handled_connectHandler {s s' : Session} {i : Nat} {ec : Bool}
    (handled : connectHandler s i ec = some s') : Handled s.toSession s'.toSession := by
  cases ec with
  | true =>
      cases handled
      exact Unseen.handled ⟨rfl, rfl, rfl, rfl, rfl, id, fun _ => id⟩
  | false =>
      rw [connectHandler_eq] at handled
      obtain ⟨q, -, rfl⟩ := Option.map_eq_some_iff.mp handled
      have reads := s.toSession.unseen_receiveTcpMessage
      exact Unseen.handled ⟨rfl, rfl, rfl, rfl, rfl, reads.ended, reads.spent⟩

theorem handled_step {s s' : Session} {e : TransparentProxyNet.Session.Event}
    (step : SessionStep s e s') : Handled s.toSession s'.toSession := by
  obtain ⟨enabled, handled⟩ := step
  cases e with
  | readDone i result =>
      cases handled
      exact s.toSession.handled_readDone i result enabled
  | readHandler i result =>
      cases handled
      exact s.toSession.handled_receiveHandler enabled
  | writeDone i ok =>
      cases handled
      exact (s.toSession.unseen_setDeque _).handled
  | writeHandler i ec => exact handled_writeHandler handled
  | connectDone i ok =>
      cases handled
      exact Unseen.handled ⟨rfl, rfl, rfl, rfl, rfl, id, fun _ => id⟩
  | connectHandler i ec => exact handled_connectHandler handled
  | inputToKcp len input old => exact handled_inputToKcp handled
  | closeSession =>
      cases handled
      exact s.toSession.handled_closeSession

end Vps
end TransparentProxyNet
