import TransparentProxyNet.Worker.MemorySafety

/-! How much a worker asks its pool for. A receive takes a node for each message that KCP puts
together, and all else that a worker asks for fits in one. -/
namespace TransparentProxyNet
open Machine

namespace Session

/-- All that a session has asked for is in the largest node. -/
def Modest (s : Session) : Prop := ∀ size, .getSharedPtrFunc size ∈ s.calls → size ≤ bufferSize

theorem modest_quiet {s : Session} (none : s.calls = []) : s.Modest := by
  intro size asked
  rw [none] at asked
  cases asked

/-- What a session at rest reads after an input are messages that the input has completed. -/
theorem Quiet.arrivals {s : Session} (quiet : s.Quiet) (len : Int) (input : KcpInput) :
    Drained (s.ikcpInput len input).kcp.rcvQueue ∨
      ∀ message ∈ (s.ikcpInput len input).kcp.rcvQueue, message ∈ input.arrived := by
  cases queue : s.kcp.rcvQueue with
  | nil =>
      right
      intro message member
      simpa [queue] using s.ikcpInput_rcvQueue len input message member
  | cons first rest =>
      left
      have empty : first = [] := quiet.drained first (by rw [queue]; rfl)
      have head : (s.ikcpInput len input).kcp.rcvQueue.head? = some first := by
        simp only [ikcpInput, Kcp.ikcp_input]
        split <;> simp [queue]
      intro message member
      rw [head] at member
      cases member
      exact empty

end Session

namespace Worker
variable {S α : Type} {k : Nat}

theorem Fits.of_same {w w' : Worker S α} (fits : w.Fits k) (same : w'.requests = w.requests) :
    w'.Fits k := by
  rw [Fits, same]
  exact fits

theorem Fits.asks {w w' : Worker S α} (fits : w.Fits k) {more : List Request}
    (grown : w'.requests = w.requests ++ more)
    (small : ∀ request ∈ more, request.memorySize k ≤ bufferSize) : w'.Fits k := by
  intro request member
  rw [grown] at member
  exact (List.mem_append.mp member).elim (fits request) (small request)

theorem started_fits {w : Worker S α} (started : w.Started) : w.Fits k := by
  obtain ⟨wheel, buf, -, rfl⟩ := started
  intro request member
  cases List.mem_singleton.mp member
  exact Nat.le_refl _

section
variable [Served S] {w w' : Worker S α} {this : Nat}

theorem Fits.run (fits : w.Fits k) {f : S → Option S} (ran : w.run this f = some w')
    (modest : ∀ s t, w.sessions this = some s → f s = some t → (base t).Modest) : w'.Fits k := by
  obtain ⟨s, t, timeWheel, found, handled, -, rfl⟩ := run_cases ran
  refine fits.asks rfl ?_
  intro request member
  obtain ⟨call, called, eq⟩ := List.mem_filterMap.mp member
  cases call with
  | getSharedPtrFunc size =>
      cases eq
      exact modest s t found handled size called
  | _ => cases eq

omit [Served S] in
theorem Fits.decode {A : AesGcm} {n : Nat} {calls : DecryptCalls} {out : Bytes bufferSize}
    {segment : Segment}
    {deliver : Worker S α → SessionId → Int → List UInt8 → Option (Worker S α)} {v : Worker S α}
    (found : v.segment A n calls = some (out, segment))
    (handled : v.decode A deliver n calls = some w')
    (delivers : ∀ u, deliver (v.setBuffer out) segment.sessionId segment.len segment.data = some u →
      u.Fits k) : w'.Fits k := by
  rw [decode_eq, found, Option.bind_some] at handled
  obtain ⟨u, delivered, rfl⟩ := Option.map_eq_some_iff.mp handled
  exact (delivers u delivered).of_same rfl

theorem small_task (small : k ≤ bufferSize) :
    ∀ request ∈ [Request.structTask, .buffer bufferSize], request.memorySize k ≤ bufferSize := by
  intro request member
  rcases List.mem_pair.mp member with rfl | rfl
  · exact small
  · exact Nat.le_refl _

end
end Worker

section
variable {S : Type} [Served S] {recv : S → Nat → S} {switch : S → Packet → Option S}
  {old : Nat → List UInt8}

/-- The loop takes a node for each of its messages, and nothing else. -/
theorem Reads.modest (reads : Reads recv switch) {queue : List (List UInt8)} {s t : S}
    (read : Session.readLoop recv switch old queue s = some t)
    (short : ∀ message ∈ queue, message.length ≤ bufferSize) (modest : (base s).Modest) :
    (base t).Modest := by
  obtain ⟨-, -, -, kept⟩ := Session.readLoop_drains
    (P := fun queue u => (∀ message ∈ queue, message.length ≤ bufferSize) ∧ (base u).Modest)
    (by
      rintro message queue u v ⟨short, modest⟩ pair switched
      refine ⟨fun m member => short m (List.mem_cons_of_mem _ member), fun size asked => ?_⟩
      rw [reads.quiet _ _ _ switched, reads.asked] at asked
      rcases List.mem_append.mp asked with before | now
      · exact modest size before
      · cases List.mem_singleton.mp now
        exact short message List.mem_cons_self)
    ⟨short, modest⟩ read
  exact kept

/-- The same from any session at rest, as KCP hands out what it has completed. -/
theorem Reads.modest_arrived (reads : Reads recv switch) {s t : S} {u : Session}
    {len : Int} {input : KcpInput} (quiet : u.Quiet)
    (given : base s = u.ikcpInput len input)
    (read : Session.readLoop recv switch old (base s).kcp.rcvQueue s = some t)
    (short : ∀ message ∈ input.arrived, message.length ≤ bufferSize) : (base t).Modest := by
  have none : (base s).Modest := by
    rw [given]
    exact Session.modest_quiet quiet.calls
  rcases quiet.arrivals len input with drained | arrivals
  · rw [given, Session.readLoop_drained drained] at read
    cases read
    exact none
  · refine reads.modest read (fun message member => short message (arrivals message ?_)) none
    rwa [given] at member

end

theorem Home.inputToKcp_modest {s t : Session} {len : Int} {input : KcpInput}
    {old : Nat → List UInt8} (quiet : s.Quiet)
    (short : ∀ message ∈ input.arrived, message.length ≤ bufferSize)
    (handled : inputToKcp s len input old = some t) : t.Modest := by
  unfold inputToKcp at handled
  split at handled
  · cases handled
    exact Session.modest_quiet quiet.calls
  · obtain ⟨u, read, rfl⟩ := Option.map_eq_some_iff.mp handled
    intro size asked
    rw [u.resumeTraffic_calls] at asked
    exact reads.modest_arrived quiet rfl read short size asked

theorem Vps.inputToKcp_modest {s t : Session} {len : Int} {input : KcpInput}
    {old : Nat → List UInt8} (quiet : s.toSession.Quiet)
    (short : ∀ message ∈ input.arrived, message.length ≤ bufferSize)
    (handled : inputToKcp s len input old = some t) : t.toSession.Modest := by
  unfold inputToKcp at handled
  split at handled
  · cases handled
    exact TransparentProxyNet.Session.modest_quiet quiet.calls
  · obtain ⟨u, read, rfl⟩ := Option.map_eq_some_iff.mp handled
    intro size asked
    have same : (u.lift (·.resumeTraffic)).calls = u.calls :=
      u.toSession.resumeTraffic_calls
    rw [same] at asked
    exact reads.modest_arrived quiet rfl read short size asked

/-! ### Deliveries -/

theorem Home.deliver_fits {w w' : Worker} {k : Nat} {calls : Worker.ReceiveCalls}
    {sessionId : SessionId} {len : Int} {data : List UInt8} (fits : w.Fits k)
    (delivered : deliver calls w sessionId len data = some w')
    (modest : ∀ s t, w.lookup sessionId = some s →
      inputToKcp s len (calls.ikcp data) calls.old = some t → t.Modest) : w'.Fits k := by
  unfold deliver at delivered
  split at delivered
  · rename_i this entry
    refine fits.run delivered fun s t here handled => modest s t ?_ handled
    rw [Worker.lookup, entry]
    exact here
  · cases delivered
    exact fits

theorem Vps.deliver_fits {w w' : Worker} {k : Nat} {calls : Worker.ReceiveCalls}
    {new : NewSession} {sessionId : SessionId} {len : Int} {data : List UInt8} (fits : w.Fits k)
    (small : k ≤ bufferSize) (delivered : deliver calls new w sessionId len data = some w')
    (modest : ∀ t, inputToKcp ((w.lookup sessionId).getD (.create sessionId new.homeClienEndpoint))
      len (calls.ikcp data) calls.old = some t → t.toSession.Modest) :
    w'.Fits k := by
  unfold deliver at delivered
  split at delivered
  · rename_i this entry
    refine fits.run delivered fun s t here handled => modest t ?_
    rw [Worker.lookup, entry]
    change inputToKcp ((w.sessions this).getD _) _ _ _ = _
    rw [here]
    exact handled
  · rename_i unknown
    obtain ⟨v, registering, ran⟩ := Option.bind_eq_some_iff.mp delivered
    obtain ⟨requests, -, built⟩ := register_requests registering
    have began : v.Fits k := fits.asks requests (Worker.small_task small)
    refine began.run ran fun s t here handled => modest t ?_
    cases built.symm.trans here
    rw [Worker.lookup, unknown]
    exact handled

/-! ### Receives -/

/-- No message that KCP puts together during a receive is longer than the largest node. -/
def Worker.ReceiveCalls.Short (calls : Worker.ReceiveCalls) : Prop :=
  ∀ data, ∀ message ∈ (calls.ikcp data).arrived, message.length ≤ bufferSize

theorem Worker.Holds.found_quiet {S α : Type} [Served S] {w : Worker S α} (h : w.Holds)
    {sessionId : SessionId} {s : S} (found : w.lookup sessionId = some s) : (base s).Quiet := by
  obtain ⟨this, -, here⟩ := Option.bind_eq_some_iff.mp found
  exact h.quiet this s here

theorem Home.receive_fits {A : AesGcm} {w w' : Worker} {k : Nat} {ec : Bool} {bytesHadRead : Nat}
    {calls : Worker.ReceiveCalls} (h : w.Holds) (fits : w.Fits k) (short : calls.Short)
    (handled : receiveHandler A w ec bytesHadRead calls = some w') : w'.Fits k := by
  unfold receiveHandler at handled
  split at handled
  · cases handled
    exact fits
  · obtain ⟨buf, sessionId, len, v, delivered, rfl⟩ := Worker.decode_cases handled
    have before : (w.setBuffer buf).Fits k := fits.of_same rfl
    have kept : v.Fits k := deliver_fits before delivered fun s t found fed =>
      inputToKcp_modest ((h.setBuffer buf).found_quiet found) (short _) fed
    exact kept.of_same rfl

theorem Vps.receive_fits {A : AesGcm} {w w' : Worker} {k : Nat} {ec : Bool} {bytesHadRead : Nat}
    {calls : Worker.ReceiveCalls} {new : NewSession} (h : w.Holds) (fits : w.Fits k)
    (small : k ≤ bufferSize) (short : calls.Short)
    (handled : receiveHandler A w ec bytesHadRead calls new = some w') : w'.Fits k := by
  unfold receiveHandler at handled
  split at handled
  · cases handled
    exact fits
  · split at handled
    · cases handled
      exact fits
    · obtain ⟨buf, sessionId, len, v, delivered, rfl⟩ := Worker.decode_cases handled
      have quiet : (((w.setBuffer buf).lookup sessionId).getD
          (.create sessionId new.homeClienEndpoint)).toSession.Quiet := by
        cases found : (w.setBuffer buf).lookup sessionId with
        | some s => exact (h.setBuffer buf).found_quiet found
        | none =>
            exact ⟨rfl, TransparentProxyNet.Session.drained_nil, fun busy => (by cases busy),
              fun closed => (by cases closed)⟩
      have before : (w.setBuffer buf).Fits k := fits.of_same rfl
      have kept : v.Fits k := deliver_fits before small delivered fun t fed =>
        inputToKcp_modest quiet (short _) fed
      exact kept.of_same rfl

end TransparentProxyNet
