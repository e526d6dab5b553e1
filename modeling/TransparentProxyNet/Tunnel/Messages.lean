import TransparentProxyNet.MemoryPool.SizeClass
import TransparentProxyNet.Tunnel.Integrity
import TransparentProxyNet.Worker.FlowControl

/-! The messages that the two programs send each other, and the nodes that the receiving
side asks for. A read of the socket fills at most one buffer, so every message has a class
of the pool with room for it. -/
namespace TransparentProxyNet
open Machine

namespace Session

/-- Reads bring what fits in the buffer, and every message sent is one of them or in
`header`. What the session has asked the pool for fits in a node of the largest class. -/
structure Sized (header : List (List UInt8)) (s : Session) : Prop where
  reads : ∀ result, some result ∈ s.reads → result.length ≤ bufferSize - cmdStatusSize
  sent : ∃ pieces : List (List UInt8), s.kcp.sent = header ++ pieces.map normalMessage ∧
    ∀ bytes ∈ pieces, 0 < bytes.length ∧ bytes.length ≤ bufferSize - cmdStatusSize
  asked : ∀ size, .getSharedPtrFunc size ∈ s.calls → size ≤ bufferSize

section
variable {header : List (List UInt8)} {s t : Session}

theorem Sized.of_same (h : s.Sized header) (reads : t.reads = s.reads)
    (sent : t.kcp.sent = s.kcp.sent) (calls : t.calls = s.calls) : t.Sized header := by
  refine ⟨?_, ?_, ?_⟩
  · rw [reads]
    exact h.reads
  · rw [sent]
    exact h.sent
  · rw [calls]
    exact h.asked

theorem Sized.receiveTcpMessage (h : s.Sized header) : s.receiveTcpMessage.Sized header := by
  refine ⟨?_, h.sent, h.asked⟩
  intro result member
  rcases List.mem_append.mp member with old | new
  · exact h.reads result old
  · rw [List.mem_singleton] at new
    split at new <;> cases new
    exact Nat.zero_le _

theorem Sized.eraseIdx (h : s.Sized header) (i : Nat) :
    Sized header { s with reads := s.reads.eraseIdx i } :=
  ⟨fun result member => h.reads result (List.mem_of_mem_eraseIdx member), h.sent, h.asked⟩

theorem Sized.closeSession (h : s.Sized header) : s.closeSession.Sized header := by
  have fits := ReadsFit.closeSession h.reads
  unfold Session.closeSession at fits ⊢
  split
  · exact h
  · rename_i open_
    rw [if_neg open_] at fits
    refine ⟨fits, h.sent, ?_⟩
    intro size member
    rcases List.mem_append.mp member with old | new
    · exact h.asked size old
    · cases List.mem_singleton.mp new

theorem Sized.checkTrafficStatus (h : s.Sized header) : s.checkTrafficStatus.Sized header := by
  unfold Session.checkTrafficStatus
  split
  · exact h.of_same rfl rfl rfl
  · exact h.receiveTcpMessage

/-- A read that has brought data becomes one message; an empty one becomes none. -/
theorem Sized.receiveHandler (h : s.Sized header) {i : Nat} {result : ReadResult}
    (enabled : s.Enabled (.readHandler i result)) : (s.receiveHandler i result).Sized header := by
  cases result with
  | eof => exact (h.eraseIdx i).closeSession
  | error => exact (h.eraseIdx i).closeSession
  | data bytes =>
      simp only [Session.receiveHandler]
      split
      · exact h.eraseIdx i
      · apply Sized.checkTrafficStatus
        obtain ⟨pieces, sent, small⟩ := h.sent
        refine ⟨(h.eraseIdx i).reads, ⟨pieces ++ [bytes], ?_, ?_⟩, h.asked⟩
        · simp [Kcp.ikcp_send, sent, normalMessage]
        · intro piece member
          rcases List.mem_append.mp member with old | new
          · exact small piece old
          · cases List.mem_singleton.mp new
            exact ⟨by omega, h.reads (.data bytes) (List.mem_of_getElem? enabled)⟩

theorem Sized.readDone (h : s.Sized header) {i : Nat} {result : ReadResult}
    (enabled : s.Enabled (.readDone i result)) : (s.readDone i result).Sized header := by
  refine ⟨?_, h.sent, h.asked⟩
  intro other member
  rcases List.mem_or_eq_of_mem_set member with old | new
  · exact h.reads other old
  · cases new
    exact enabled.2

theorem Sized.resumeTraffic (h : s.Sized header) : s.resumeTraffic.Sized header := by
  unfold Session.resumeTraffic
  split
  · exact Sized.receiveTcpMessage (s := { s with trafficBusy := false }) (h.of_same rfl rfl rfl)
  · exact h

theorem Sized.ikcpRecv (h : s.Sized header) {size : Nat} (small : size ≤ bufferSize) :
    (s.ikcpRecv size).Sized header := by
  refine ⟨h.reads, h.sent, ?_⟩
  intro asked member
  rcases List.mem_append.mp member with old | new
  · exact h.asked asked old
  · cases List.mem_singleton.mp new
    exact small

theorem Sized.ikcpInput (h : s.Sized header) (len : Int) (input : KcpInput) :
    (s.ikcpInput len input).Sized header := by
  refine h.of_same rfl ?_ rfl
  simp only [Session.ikcpInput, Kcp.ikcp_input]
  split <;> rfl

end
end Session

namespace Home
open TransparentProxyNet.Session (Event Sized readLoop_drains)

variable {header : List (List UInt8)} {s t : Session}

theorem sized_inputToKcp (h : s.Sized header) {len : Int} {input : KcpInput}
    {old : Nat → List UInt8} (queue : ∀ message ∈ s.kcp.rcvQueue, message.length ≤ bufferSize)
    (arrived : ∀ message ∈ input.arrived, message.length ≤ bufferSize)
    (handled : inputToKcp s len input old = some t) : t.Sized header := by
  unfold inputToKcp at handled
  split at handled
  · cases handled
    exact h
  · obtain ⟨u, read, rfl⟩ := Option.map_eq_some_iff.mp handled
    have start : ∀ message ∈ (s.ikcpInput len input).kcp.rcvQueue,
        message.length ≤ bufferSize := fun message member =>
      (s.ikcpInput_rcvQueue len input message member).elim (queue message) (arrived message)
    obtain ⟨-, -, -, sized⟩ := readLoop_drains
      (P := fun queue u => (∀ message ∈ queue, message.length ≤ bufferSize) ∧ u.Sized header)
      (by
        rintro message queue u v ⟨small, sized⟩ pair switched
        have received := sized.ikcpRecv (small message List.mem_cons_self)
        have unseen := unseen_switch switched
        refine ⟨fun m member => small m (List.mem_cons_of_mem _ member), ?_⟩
        exact received.of_same (steady_switch switched).reads (congrArg Kcp.sent unseen.kcp)
          unseen.calls)
      ⟨start, h.ikcpInput len input⟩ read
    exact sized.resumeTraffic

theorem sized_event (h : s.Sized header) {e : Event} (socket : Worker.onSocket e = true)
    (enabled : s.Enabled e) (handled : handle s e = some t) : t.Sized header := by
  cases e with
  | readDone i result =>
      cases handled
      exact h.readDone enabled
  | readHandler i result =>
      cases handled
      exact h.receiveHandler enabled
  | writeDone i ok =>
      cases handled
      exact h.of_same rfl rfl rfl
  | writeHandler i ec =>
      rw [handle, writeHandler_eq] at handled
      obtain ⟨q, -, rest⟩ := Option.bind_eq_some_iff.mp handled
      cases ec with
      | true =>
          cases rest
          exact Sized.closeSession (h.of_same rfl rfl rfl)
      | false =>
          obtain ⟨q', -, rfl⟩ := Option.map_eq_some_iff.mp rest
          exact h.of_same rfl rfl rfl
  | connectDone i ok =>
      cases handled
      exact h.of_same rfl rfl rfl
  | connectHandler i ec =>
      cases handled
      exact h
  | inputToKcp len input old => cases socket
  | closeSession => cases socket

end Home

namespace Vps
open TransparentProxyNet.Session (Event Sized readLoop_drains)

variable {header : List (List UInt8)} {s t : Session}

theorem sized_inputToKcp (h : s.toSession.Sized header) {len : Int} {input : KcpInput}
    {old : Nat → List UInt8} (queue : ∀ message ∈ s.kcp.rcvQueue, message.length ≤ bufferSize)
    (arrived : ∀ message ∈ input.arrived, message.length ≤ bufferSize)
    (handled : inputToKcp s len input old = some t) : t.toSession.Sized header := by
  unfold inputToKcp at handled
  split at handled
  · cases handled
    exact h
  · obtain ⟨u, read, rfl⟩ := Option.map_eq_some_iff.mp handled
    have start : ∀ message ∈ (s.toSession.ikcpInput len input).kcp.rcvQueue,
        message.length ≤ bufferSize := fun message member =>
      (s.toSession.ikcpInput_rcvQueue len input message member).elim (queue message)
        (arrived message)
    obtain ⟨-, -, -, sized⟩ := readLoop_drains
      (P := fun queue u =>
        (∀ message ∈ queue, message.length ≤ bufferSize) ∧ u.toSession.Sized header)
      (by
        rintro message queue u v ⟨small, sized⟩ pair switched
        have received := sized.ikcpRecv (small message List.mem_cons_self)
        have unseen := unseen_switch switched
        refine ⟨fun m member => small m (List.mem_cons_of_mem _ member), ?_⟩
        exact received.of_same (steady_switch switched).base.reads
          (congrArg Kcp.sent unseen.kcp) unseen.calls)
      ⟨start, h.ikcpInput len input⟩ read
    exact sized.resumeTraffic

theorem sized_event (h : s.toSession.Sized header) {e : Event}
    (socket : Worker.onSocket e = true) (enabled : s.toSession.Enabled e)
    (handled : handle s e = some t) : t.toSession.Sized header := by
  cases e with
  | readDone i result =>
      cases handled
      exact h.readDone enabled
  | readHandler i result =>
      cases handled
      exact h.receiveHandler enabled
  | writeDone i ok =>
      cases handled
      exact h.of_same rfl rfl rfl
  | writeHandler i ec =>
      rw [handle, writeHandler_eq] at handled
      cases ec with
      | true =>
          cases handled
          exact Sized.closeSession (h.of_same rfl rfl rfl)
      | false =>
          obtain ⟨q, -, rest⟩ := Option.bind_eq_some_iff.mp handled
          obtain ⟨q', -, rfl⟩ := Option.map_eq_some_iff.mp rest
          exact h.of_same rfl rfl rfl
  | connectDone i ok =>
      cases handled
      exact h.of_same rfl rfl rfl
  | connectHandler i ec =>
      cases ec with
      | true =>
          cases handled
          exact h.of_same rfl rfl rfl
      | false =>
          rw [handle, connectHandler_eq] at handled
          obtain ⟨q, -, rfl⟩ := Option.map_eq_some_iff.mp handled
          exact h.receiveTcpMessage.of_same rfl rfl rfl
  | inputToKcp len input old => cases socket
  | closeSession => cases socket

end Vps

namespace Tunnel
open TransparentProxyNet.Session (Sized)

/-- What the home side sends on `endpoint`'s behalf, and what the VPS answers. -/
structure Spoken (other : Int → Fin 4) (endpoint : Endpoint) (t : Tunnel) : Prop where
  home : ∃ pieces : List (List UInt8),
    t.home.kcp.sent = Session.statusAndData endpoint :: pieces.map normalMessage ∧
      ∀ bytes ∈ pieces, 0 < bytes.length ∧ bytes.length ≤ bufferSize - cmdStatusSize
  vps : ∃ pieces : List (List UInt8), t.vps.kcp.sent = pieces.map normalMessage ∧
    ∀ bytes ∈ pieces, 0 < bytes.length ∧ bytes.length ≤ bufferSize - cmdStatusSize
  /-- Every node that either side asks for has room for what was asked. -/
  homeNodes : ∀ size : Nat, .getSharedPtrFunc size ∈ t.home.calls →
    size ≤ Worker.payloadSize other size
  vpsNodes : ∀ size : Nat, .getSharedPtrFunc size ∈ t.vps.calls →
    size ≤ Worker.payloadSize other size

structure Measured (endpoint : Endpoint) (t : Tunnel) : Prop where
  joined : t.Joined endpoint
  home : t.home.Sized [Session.statusAndData endpoint]
  vps : t.vps.toSession.Sized []

variable {endpoint : Endpoint} {t t' : Tunnel}

theorem sized_short {header : List (List UInt8)} {s : Session} (h : s.Sized header)
    (opening : ∀ message ∈ header, message.length ≤ bufferSize) {messages : List (List UInt8)}
    (part : messages <+: s.kcp.sent) : ∀ message ∈ messages, message.length ≤ bufferSize := by
  obtain ⟨pieces, sent, small⟩ := h.sent
  intro message member
  rcases List.mem_append.mp (sent ▸ part.subset member) with first | later
  · exact opening message first
  · obtain ⟨bytes, inside, rfl⟩ := List.mem_map.mp later
    have fits := (small bytes inside).2
    simp only [normalMessage, List.length_append, bytes_length, bufferSize, cmdStatusSize] at *
    omega

theorem opening_short (endpoint : Endpoint) :
    ∀ message ∈ [Session.statusAndData endpoint], message.length ≤ bufferSize := by
  intro message member
  cases List.mem_singleton.mp member
  simp [Session.statusAndData, bytes_length, BigEndian.encode_length, bufferSize]

theorem Measured.step {e : Event} (h : t.Measured endpoint) (step : ClosingStep t e t') :
    t'.Measured endpoint := by
  have joined := h.joined.step step
  obtain ⟨possible, handled⟩ := step
  cases e with
  | home e =>
      obtain ⟨s, run, rfl⟩ := Option.map_eq_some_iff.mp handled
      exact ⟨joined, Home.sized_event h.home possible.1 possible.2 run, h.vps⟩
  | vps e =>
      obtain ⟨s, run, rfl⟩ := Option.map_eq_some_iff.mp handled
      exact ⟨joined, h.home, Vps.sized_event h.vps possible.1 possible.2 run⟩
  | toVps len acked arrived old =>
      obtain ⟨s, run, rfl⟩ := Option.map_eq_some_iff.mp handled
      have arrives := sized_short h.home (opening_short endpoint) possible.1
      refine ⟨joined, h.home, Vps.sized_inputToKcp h.vps ?_ ?_ run⟩
      · simp [h.joined.vpsQueue]
      · exact fun message member => arrives message (List.mem_append_right _ member)
  | toHome len acked arrived old =>
      obtain ⟨s, run, rfl⟩ := Option.map_eq_some_iff.mp handled
      have arrives := sized_short h.vps (by simp) possible.1
      refine ⟨joined, Home.sized_inputToKcp h.home ?_ ?_ run, h.vps⟩
      · simp [h.joined.homeQueue]
      · exact fun message member => arrives message (List.mem_append_right _ member)

theorem start_measured (sessionId : SessionId) (homeNext vpsNext : UInt32)
    (endpoint homeClienEndpoint : Endpoint) :
    (start sessionId homeNext vpsNext endpoint homeClienEndpoint).Measured endpoint := by
  refine ⟨start_joined .., ⟨?_, ⟨[], rfl, by simp⟩, ?_⟩, ⟨?_, ⟨[], rfl, by simp⟩, ?_⟩⟩
  · intro result member
    cases List.mem_singleton.mp member
  · intro size member
    cases List.mem_singleton.mp member
  · intro result member
    cases member
  · intro size member
    cases List.mem_singleton.mp member

/-- The two programs never send each other a message that a receiver could misread or that
its node could not hold. -/
theorem messages_spoken (other : Int → Fin 4) {sessionId : SessionId} {homeNext vpsNext : UInt32}
    {endpoint homeClienEndpoint : Endpoint} {es : List Event} {t : Tunnel}
    (run : Trace ClosingStep (start sessionId homeNext vpsNext endpoint homeClienEndpoint) es t) :
    t.Spoken other endpoint := by
  have h : t.Measured endpoint :=
    run.invariant (I := Measured endpoint) (fun _ _ _ h step => h.step step)
      (start_measured sessionId homeNext vpsNext endpoint homeClienEndpoint)
  exact ⟨h.home.sent, h.vps.sent,
    fun size asked => MemoryPool.le_payload other (h.home.asked size asked),
    fun size asked => MemoryPool.le_payload other (h.vps.asked size asked)⟩

theorem messages_spoken_cutOff :
    ∃ t, cutOff.foldlM closingNext (start (.replicate 16 0) 10 10 ⟨1, 80⟩ ⟨0, 0⟩) = some t ∧
      .getSharedPtrFunc 6 ∈ t.vps.calls ∧ t.Spoken (fun _ => 0) ⟨1, 80⟩ := by
  obtain ⟨t, run, asked⟩ :
      ∃ t, cutOff.foldlM closingNext (start (.replicate 16 0) 10 10 ⟨1, 80⟩ ⟨0, 0⟩) = some t ∧
        .getSharedPtrFunc 6 ∈ t.vps.calls := ⟨_, by rfl, by decide⟩
  exact ⟨t, run, asked,
    messages_spoken _ (.of_foldlM (fun _ _ _ => closingStep_of_next) run)⟩

end Tunnel
end TransparentProxyNet
