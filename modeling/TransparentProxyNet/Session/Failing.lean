import TransparentProxyNet.Session.Closing

/-! A failure that waits for its handler does not go away: until the session closes, every
step leaves it where it is. -/
namespace TransparentProxyNet
open Pump

namespace Session

/-- A read or a write has failed, and its handler has not run. -/
def Failing (s : Session) : Prop :=
  (∃ r ∈ s.reads, r = some .eof ∨ r = some .error) ∨
    ∃ op ∈ s.tcpDataWaitForSendDeque.pending, op.outcome = some false

instance (s : Session) : Decidable s.Failing := inferInstanceAs (Decidable (_ ∨ _))

/-- The session is closed, or will be when a handler that waits has run. -/
def Ending (s : Session) : Prop := s.sessionClose = true ∨ s.Failing

instance (s : Session) : Decidable s.Ending := inferInstanceAs (Decidable (_ ∨ _))

instance (e : Event) : Decidable (Fails e) :=
  match e with
  | .readHandler _ .eof | .readHandler _ .error => isTrue trivial
  | .writeHandler _ ec => inferInstanceAs (Decidable (ec = true))
  | .readHandler _ (.data _) | .readDone _ _ | .writeDone _ _ | .connectDone _ _
  | .connectHandler _ _ | .inputToKcp _ _ _ | .closeSession => isFalse id

section
variable {s t : Session} {i : Nat}

theorem Failing.mono (h : s.Failing) (reads : s.reads ⊆ t.reads)
    (pending : s.tcpDataWaitForSendDeque.pending ⊆ t.tcpDataWaitForSendDeque.pending) :
    t.Failing := by
  rcases h with ⟨r, member, failed⟩ | ⟨op, member, failed⟩
  · exact .inl ⟨r, reads member, failed⟩
  · exact .inr ⟨op, pending member, failed⟩

theorem receiveTcpMessage_reads (s : Session) : s.reads ⊆ s.receiveTcpMessage.reads :=
  List.subset_append_left ..

theorem Failing.checkTrafficStatus (h : s.Failing) : s.checkTrafficStatus.Failing := by
  unfold Session.checkTrafficStatus
  split
  · exact h
  · exact h.mono s.receiveTcpMessage_reads (List.Subset.refl _)

theorem Failing.resumeTraffic (h : s.Failing) : s.resumeTraffic.Failing := by
  unfold Session.resumeTraffic
  split
  · exact h.mono (receiveTcpMessage_reads { s with trafficBusy := false }) (List.Subset.refl _)
  · exact h

/-- A read ends that was in progress, so not the one that has failed. -/
theorem Failing.readDone (h : s.Failing) {result : ReadResult}
    (enabled : s.Enabled (.readDone i result)) : (s.readDone i result).Failing := by
  rcases h with ⟨r, member, failed⟩ | write
  · refine .inl ⟨r, mem_set_of_ne _ member ?_, failed⟩
    rw [enabled.1]
    rintro ⟨⟩
    simp at failed
  · exact .inr write

theorem Failing.receiveHandler (h : s.Failing) {result : ReadResult}
    (enabled : s.Enabled (.readHandler i result)) : (s.receiveHandler i result).Ending := by
  have closing := s.receiveHandler_closed i result
  cases result with
  | eof => exact .inl (closing.mpr (.inr (.inl trivial)))
  | error => exact .inl (closing.mpr (.inr (.inl trivial)))
  | data bytes =>
      have erased : Failing { s with reads := s.reads.eraseIdx i } := by
        rcases h with ⟨r, member, failed⟩ | write
        · refine .inl ⟨r, mem_eraseIdx_of_ne member ?_, failed⟩
          have there : s.reads[i]? = some (some (.data bytes)) := enabled
          rw [there]
          rintro ⟨⟩
          simp at failed
        · exact .inr write
      simp only [Session.receiveHandler]
      split
      · exact .inr erased
      · have sent : Failing { s with
            reads := s.reads.eraseIdx i
            kcp := s.kcp.ikcp_send (CmdStatus.normal.bytes ++ bytes) } :=
          erased.mono (List.Subset.refl _) (List.Subset.refl _)
        exact .inr sent.checkTrafficStatus

theorem Failing.writeDone (h : s.Failing) (i : Nat) (ok : Bool) : (s.writeDone i ok).Failing := by
  rcases h with read | ⟨op, member, failed⟩
  · exact .inl read
  · exact .inr ⟨op, Queue.mem_complete member (by rw [failed]; rfl) i ok, failed⟩

/-- The handler of a write that has succeeded. -/
theorem Failing.retire (h : s.Failing) (enabled : s.Enabled (.writeHandler i false)) :
    (s.setDeque (s.tcpDataWaitForSendDeque.retire i)).Failing := by
  rcases h with read | ⟨op, member, failed⟩
  · exact .inl read
  · refine .inr ⟨op, mem_eraseIdx_of_ne member ?_, failed⟩
    intro there
    have succeeded : (s.tcpDataWaitForSendDeque.pending[i]?).map Op.outcome = some (some true) :=
      enabled
    rw [there, Option.map_some, failed] at succeeded
    cases succeeded

end
end Session

namespace Home
open TransparentProxyNet.Session (Event Failing Ending readLoop_drains)

variable {s t : Session}

theorem failing_switch (h : s.Failing) {pair : Packet}
    (switched : switchStatus s pair = some t) : t.Failing := by
  unfold switchStatus at switched
  split at switched
  · obtain ⟨q, pushed, rfl⟩ := Option.map_eq_some_iff.mp ((s.push_eq pair).symm.trans switched)
    exact h.mono (List.Subset.refl _) (Queue.pending_subset_submit pushed)
  · cases switched
    exact h

theorem failing_inputToKcp (h : s.Failing) {len : Int} {input : KcpInput}
    {old : Nat → List UInt8} (handled : inputToKcp s len input old = some t) : t.Failing := by
  unfold inputToKcp at handled
  split at handled
  · cases handled
    exact h
  · obtain ⟨u, read, rfl⟩ := Option.map_eq_some_iff.mp handled
    obtain ⟨-, -, failing⟩ := readLoop_drains (P := fun _ u => u.Failing)
      (fun message _ u _ failing _ switched =>
        failing_switch (s := u.ikcpRecv message.length) failing switched) h read
    exact failing.resumeTraffic

theorem failing_writeHandler (h : s.Failing) {i : Nat}
    (enabled : s.Enabled (.writeHandler i false)) (handled : writeHandler s i false = some t) :
    t.Failing := by
  rw [writeHandler_eq] at handled
  obtain ⟨q, popped, rest⟩ := Option.bind_eq_some_iff.mp handled
  obtain ⟨q', resumed, rfl⟩ := Option.map_eq_some_iff.mp rest
  refine (h.retire enabled).mono (List.Subset.refl _) ?_
  have kept : (s.tcpDataWaitForSendDeque.retire i).pending =
      (if s.sessionClose then q.clear else q).pending := by
    rw [← Queue.popFront_pending popped]
    split <;> rfl
  exact kept ▸ Queue.pending_subset_resume resumed

theorem ending_step (h : s.Ending) {e : Event} (step : SessionStep s e t) : t.Ending := by
  obtain ⟨enabled, handled⟩ := step
  have closing := handle_closed handled
  rcases h with closed | failing
  · exact .inl (closing.mpr (.inl closed))
  cases e with
  | readDone i result =>
      cases handled
      exact .inr (failing.readDone enabled)
  | readHandler i result =>
      cases handled
      exact failing.receiveHandler enabled
  | writeDone i ok =>
      cases handled
      exact .inr (failing.writeDone i ok)
  | writeHandler i ec =>
      cases ec with
      | true => exact .inl (closing.mpr (.inr (.inl rfl)))
      | false => exact .inr (failing_writeHandler failing enabled handled)
  | connectDone i ok =>
      cases handled
      exact .inr failing
  | connectHandler i ec =>
      cases handled
      exact .inr failing
  | inputToKcp len input old => exact .inr (failing_inputToKcp failing handled)
  | closeSession => exact .inl (closing.mpr (.inr (.inr rfl)))

end Home

namespace Vps
open TransparentProxyNet.Session (Event Failing Ending readLoop_drains)

variable {s t : Session}

theorem failing_switch (h : s.toSession.Failing) {pair : Packet}
    (switched : switchStatus s pair = some t) : t.toSession.Failing := by
  unfold switchStatus at switched
  split at switched
  · split at switched <;> cases switched <;> exact h
  · split at switched
    · rw [trySend_eq] at switched
      split at switched
      · obtain ⟨q, pushed, rfl⟩ := Option.map_eq_some_iff.mp switched
        exact h.mono (List.Subset.refl _) (Queue.pending_subset_submit pushed)
      · cases switched
        exact h
    · cases switched
      exact h

theorem failing_inputToKcp (h : s.toSession.Failing) {len : Int} {input : KcpInput}
    {old : Nat → List UInt8} (handled : inputToKcp s len input old = some t) :
    t.toSession.Failing := by
  unfold inputToKcp at handled
  split at handled
  · cases handled
    exact h
  · obtain ⟨u, read, rfl⟩ := Option.map_eq_some_iff.mp handled
    obtain ⟨-, -, failing⟩ := readLoop_drains (P := fun _ u => u.toSession.Failing)
      (fun message _ u _ failing _ switched =>
        failing_switch (s := ikcpRecv u message.length) failing switched) h read
    exact failing.resumeTraffic

theorem failing_writeHandler (h : s.toSession.Failing) {i : Nat}
    (enabled : s.toSession.Enabled (.writeHandler i false))
    (handled : writeHandler s i false = some t) : t.toSession.Failing := by
  rw [writeHandler_eq] at handled
  obtain ⟨q, popped, rest⟩ := Option.bind_eq_some_iff.mp handled
  obtain ⟨q', resumed, rfl⟩ := Option.map_eq_some_iff.mp rest
  refine (h.retire enabled).mono (List.Subset.refl _) ?_
  have kept : q.pending = (s.tcpDataWaitForSendDeque.retire i).pending := by
    rw [Queue.popFront_pending popped]
    split <;> rfl
  exact kept ▸ Queue.pending_subset_resume resumed

theorem failing_connectHandler (h : s.toSession.Failing) {i : Nat} {ec : Bool}
    (handled : connectHandler s i ec = some t) : t.toSession.Failing := by
  cases ec with
  | true =>
      cases handled
      exact h
  | false =>
      rw [connectHandler_eq] at handled
      obtain ⟨q, resumed, rfl⟩ := Option.map_eq_some_iff.mp handled
      exact h.mono s.toSession.receiveTcpMessage_reads (Queue.pending_subset_resume resumed)

theorem ending_step (h : s.toSession.Ending) {e : Event} (step : SessionStep s e t) :
    t.toSession.Ending := by
  obtain ⟨enabled, handled⟩ := step
  have closing := handle_closed handled
  rcases h with closed | failing
  · exact .inl (closing.mpr (.inl closed))
  cases e with
  | readDone i result =>
      cases handled
      exact .inr (failing.readDone enabled)
  | readHandler i result =>
      cases handled
      exact failing.receiveHandler enabled
  | writeDone i ok =>
      cases handled
      exact .inr (failing.writeDone i ok)
  | writeHandler i ec =>
      cases ec with
      | true => exact .inl (closing.mpr (.inr (.inl rfl)))
      | false => exact .inr (failing_writeHandler failing enabled handled)
  | connectDone i ok =>
      cases handled
      exact .inr failing
  | connectHandler i ec => exact .inr (failing_connectHandler failing handled)
  | inputToKcp len input old => exact .inr (failing_inputToKcp failing handled)
  | closeSession => exact .inl (closing.mpr (.inr (.inr rfl)))

end Vps
end TransparentProxyNet
