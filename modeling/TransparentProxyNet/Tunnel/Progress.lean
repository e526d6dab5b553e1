import TransparentProxyNet.Tunnel.Transparency

/-! Everything that is read arrives. While nothing fails, each handler, each delivery and
each end of an operation brings the tunnel closer to the state in which no byte is left on
the way, in whatever order they come. -/
namespace TransparentProxyNet
open Machine Pump

namespace Session

/-- What has to happen on the socket before the session has nothing left to do. A read
that has ended counts for the message it may become as well. -/
def load (s : Session) : Nat :=
  4 * s.reads.countP Option.isSome + s.tcpDataWaitForSendDeque.load +
    (s.connects.map fun c => if c.2.isSome then 1 else 2).sum

/-- The same, with the messages that go through KCP. -/
def backlog (s : Session) : Nat := 3 * s.kcp.sent.length + s.load

/-- No operation has failed. -/
structure Clean (s : Session) : Prop where
  reads : ∀ result, some result ∈ s.reads → ∃ bytes, result = .data bytes
  writes : ∀ op ∈ s.tcpDataWaitForSendDeque.pending, op.outcome ≠ some false
  connects : ∀ c ∈ s.connects, c.2 ≠ some false

/-- A read that ends brings new bytes. -/
def Event.ends : Event → Bool
  | .readDone _ _ => true
  | _ => false

section
variable {s t : Session} {header : List (List UInt8)} {read : List UInt8}

theorem Clean.of_same (h : s.Clean) (reads : t.reads = s.reads)
    (pending : t.tcpDataWaitForSendDeque.pending = s.tcpDataWaitForSendDeque.pending)
    (connects : t.connects = s.connects) : t.Clean := by
  refine ⟨?_, ?_, ?_⟩
  · rw [reads]
    exact h.reads
  · rw [pending]
    exact h.writes
  · rw [connects]
    exact h.connects

theorem Clean.receiveTcpMessage (h : s.Clean) (unclosed : s.sessionClose = false) :
    s.receiveTcpMessage.Clean := by
  refine ⟨?_, h.writes, h.connects⟩
  intro result member
  simp only [Session.receiveTcpMessage, unclosed, Bool.false_eq_true, if_false,
    List.mem_append, List.mem_singleton, reduceCtorEq, or_false] at member
  exact h.reads result member

theorem backlog_receiveTcpMessage (unclosed : s.sessionClose = false) :
    s.receiveTcpMessage.backlog = s.backlog := by
  simp [backlog, load, receiveTcpMessage, unclosed]

/-- Reading again is no work by itself. -/
theorem goesOn_checkTrafficStatus (h : s.Clean) (unclosed : s.sessionClose = false) :
    s.checkTrafficStatus.Clean ∧ s.checkTrafficStatus.backlog = s.backlog := by
  unfold checkTrafficStatus
  split
  · exact ⟨h.of_same rfl rfl rfl, rfl⟩
  · exact ⟨h.receiveTcpMessage unclosed, backlog_receiveTcpMessage unclosed⟩

theorem goesOn_resumeTraffic (h : s.Clean) (unclosed : s.sessionClose = false) :
    s.resumeTraffic.Clean ∧ s.resumeTraffic.backlog = s.backlog := by
  unfold resumeTraffic
  split
  · have clean : Clean { s with trafficBusy := false } := h.of_same rfl rfl rfl
    exact ⟨clean.receiveTcpMessage unclosed,
      backlog_receiveTcpMessage (s := { s with trafficBusy := false }) unclosed⟩
  · exact ⟨h, rfl⟩

theorem resumeTraffic_connects (s : Session) : s.resumeTraffic.connects = s.connects := by
  unfold resumeTraffic
  split <;> rfl

/-- The handler of a read turns the bytes into a message. -/
theorem Clean.receiveHandler (h : s.Clean) (sends : Sends header read s) {i : Nat}
    {bytes : List UInt8} (enabled : s.Enabled (.readHandler i (.data bytes))) :
    (s.receiveHandler i (.data bytes)).Clean ∧
      (s.receiveHandler i (.data bytes)).backlog + 1 ≤ s.backlog := by
  obtain ⟨reads, rfl⟩ := eq_singleton sends.oneRead enabled
  have idle : s.reads.eraseIdx 0 = [] := by rw [reads]; rfl
  have before : s.backlog = 3 * s.kcp.sent.length + (4 + s.tcpDataWaitForSendDeque.load +
      (s.connects.map fun c => if c.2.isSome then 1 else 2).sum) := by
    simp [backlog, load, reads]
  simp only [Session.receiveHandler, idle]
  split
  · refine ⟨⟨by simp, h.writes, h.connects⟩, ?_⟩
    rw [before]
    simp only [backlog, load, List.countP_nil]
    omega
  · obtain ⟨t, sent⟩ : ∃ t, t = { s with
        reads := [], kcp := s.kcp.ikcp_send (CmdStatus.normal.bytes ++ bytes) } := ⟨_, rfl⟩
    have clean : t.Clean := by
      rw [sent]
      exact ⟨by simp, h.writes, h.connects⟩
    obtain ⟨clean', same⟩ := goesOn_checkTrafficStatus clean (by rw [sent]; exact sends.unclosed)
    rw [← sent]
    refine ⟨clean', ?_⟩
    rw [same, before, sent]
    simp only [backlog, load, Kcp.ikcp_send, List.countP_nil, List.length_append,
      List.length_singleton]
    omega

theorem Clean.readDone (h : s.Clean) (i : Nat) (bytes : List UInt8) :
    (s.readDone i (.data bytes)).Clean := by
  refine ⟨?_, h.writes, h.connects⟩
  intro result member
  rcases List.mem_or_eq_of_mem_set member with old | new
  · exact h.reads result old
  · cases new
    exact ⟨bytes, rfl⟩

theorem clean_resume {q q' : Queue Packet} (still : q.pending = [])
    (resumed : q.resume none = some q') : ∀ op ∈ q'.pending, op.outcome ≠ some false := by
  unfold Queue.resume Queue.start at resumed
  split at resumed
  · cases resumed
    simp [still]
  · split at resumed
    · cases resumed
    · cases resumed
      simp [still]

theorem clean_submit {q q' : Queue Packet} {pair : Packet}
    (clean : ∀ op ∈ q.pending, op.outcome ≠ some false)
    (submitted : q.submit pair none = some q') : ∀ op ∈ q'.pending, op.outcome ≠ some false := by
  unfold Queue.submit Queue.start at submitted
  split at submitted
  · split at submitted
    · cases submitted
    · cases submitted
      intro op member
      rcases List.mem_append.mp member with old | new
      · exact clean op old
      · cases List.mem_singleton.mp new
        simp
  · cases submitted
    exact clean

/-- A write that ends well. -/
theorem Clean.writeDone (h : s.Clean) (i : Nat) : (s.writeDone i true).Clean := by
  refine ⟨h.reads, ?_, h.connects⟩
  intro op member
  obtain ⟨j, at_j⟩ := List.mem_iff_getElem?.mp member
  simp only [Session.writeDone, setDeque_deque, Queue.complete, List.getElem?_modify] at at_j
  obtain ⟨old, known, rfl⟩ := Option.map_eq_some_iff.mp at_j
  have clean := h.writes old (List.mem_of_getElem? known)
  split
  · cases outcome : old.outcome with
    | none => simp
    | some ok => simpa [outcome] using clean
  · exact clean

theorem backlog_writeDone (running : s.tcpDataWaitForSendDeque.Running) {i : Nat} {ok : Bool}
    (enabled : s.Enabled (.writeDone i ok)) : (s.writeDone i ok).backlog + 1 = s.backlog := by
  have less := running.load_complete enabled ok
  simp only [backlog, load, Session.writeDone, setDeque_deque] at *
  change 3 * s.kcp.sent.length + (4 * s.reads.countP Option.isSome + _ +
    (s.connects.map _).sum) + 1 = _
  omega

/-- The handler of a write that ended well. -/
theorem Clean.writeHandler (h : s.Clean) (running : s.tcpDataWaitForSendDeque.Running) {i : Nat}
    (enabled : s.Enabled (.writeHandler i false)) {q₁ q₂ : Queue Packet}
    (popped : (s.tcpDataWaitForSendDeque.retire i).popFront = some q₁)
    (resumed : q₁.resume none = some q₂) :
    (s.setDeque q₂).Clean ∧ (s.setDeque q₂).backlog + 1 = s.backlog := by
  obtain ⟨op, run, -⟩ := Option.map_eq_some_iff.mp enabled
  obtain ⟨q, popped', -, still, -⟩ := running.finish run
  cases popped'.symm.trans popped
  refine ⟨⟨h.reads, clean_resume still resumed, h.connects⟩, ?_⟩
  have less := running.load_finish enabled popped resumed
  simp only [backlog, load, setDeque_deque]
  change 3 * s.kcp.sent.length + (4 * s.reads.countP Option.isSome + _ +
    (s.connects.map _).sum) + 1 = _
  omega

/-- Nothing can happen on the socket but that a read ends. -/
def Stuck (s : Session) : Prop := ∀ e, Faultless e → s.Enabled e → e.ends = true

theorem Clean.unsent_nil (h : s.Clean) (stuck : s.Stuck) : s.unsent = [] := by
  refine List.flatMap_eq_nil_iff.mpr ?_
  intro r member
  cases r with
  | none => rfl
  | some result =>
      obtain ⟨bytes, rfl⟩ := h.reads result member
      obtain ⟨i, at_i⟩ := List.mem_iff_getElem?.mp member
      cases stuck (.readHandler i (.data bytes)) ⟨bytes, rfl⟩ at_i

theorem Clean.items_nil (h : s.Clean) (running : s.tcpDataWaitForSendDeque.Running)
    (stuck : s.Stuck) : s.tcpDataWaitForSendDeque.items = [] := by
  rcases running.pending_eq with ⟨items, -⟩ | ⟨op, rest, -, pending⟩
  · exact items
  · cases outcome : op.outcome with
    | none => cases stuck (.writeDone 0 true) rfl (by simp [Enabled, pending, outcome])
    | some ok =>
        cases ok with
        | false => exact absurd outcome (h.writes op (by simp [pending]))
        | true => cases stuck (.writeHandler 0 false) rfl (by simp [Enabled, pending, outcome])

end
end Session

/-! ### The home side -/

namespace Home
open TransparentProxyNet.Session (Event Clean Speaks readLoop_drains)

variable {endpoint : Endpoint} {delivered : List (List UInt8)} {read : List UInt8} {s t : Session}

/-- Every event but a read that ends is work done. -/
theorem progress_event (h : Side endpoint delivered read s) (clean : s.Clean)
    (none : s.connects = []) {e : Event} (faultless : Session.Faultless e) (enabled : s.Enabled e)
    (handled : handle s e = some t) :
    t.Clean ∧ t.connects = [] ∧ (e.ends = false → t.backlog + 1 ≤ s.backlog) := by
  cases e with
  | readDone i result =>
      obtain ⟨bytes, rfl⟩ := faultless
      cases handled
      exact ⟨clean.readDone i bytes, none, fun ends => by cases ends⟩
  | readHandler i result =>
      obtain ⟨bytes, rfl⟩ := faultless
      cases handled
      obtain ⟨clean', less⟩ := clean.receiveHandler h.sends enabled
      exact ⟨clean', (h.sends.receiveHandler enabled).2.connects.trans none, fun _ => less⟩
  | writeDone i ok =>
      obtain rfl : ok = true := faultless
      cases handled
      exact ⟨clean.writeDone i, none,
        fun _ => (Session.backlog_writeDone h.running enabled).le⟩
  | writeHandler i ec =>
      obtain rfl : ec = false := faultless
      rw [handle, writeHandler_eq] at handled
      obtain ⟨q₁, popped, rest⟩ := Option.bind_eq_some_iff.mp handled
      simp only [Session.outcome, h.sends.unclosed, Bool.false_eq_true, if_false] at rest
      obtain ⟨q₂, resumed, rfl⟩ := Option.map_eq_some_iff.mp rest
      obtain ⟨clean', less⟩ := clean.writeHandler h.running enabled popped resumed
      exact ⟨clean', none, fun _ => less.le⟩
  | connectDone i ok => simp [Session.Enabled, none] at enabled
  | connectHandler i ec => simp [Session.Enabled, none] at enabled
  | inputToKcp => exact faultless.elim
  | closeSession => exact faultless.elim

/-- A message makes at most one item more. -/
theorem progress_switch {pair : Packet} (unclosed : s.sessionClose = false)
    (running : s.tcpDataWaitForSendDeque.Running) (clean : s.Clean)
    (switched : switchStatus s pair = some t) :
    t.Clean ∧ t.load ≤ s.load + 2 ∧ t.connects = s.connects := by
  unfold switchStatus at switched
  split at switched
  · obtain ⟨q, pushed, rfl⟩ := Option.map_eq_some_iff.mp ((s.push_eq pair).symm.trans switched)
    simp only [Session.outcome, unclosed, Bool.false_eq_true, if_false] at pushed
    have more := running.load_submit pushed
    refine ⟨⟨clean.reads, Session.clean_submit clean.writes pushed, clean.connects⟩, ?_, rfl⟩
    simp only [Session.load, Session.setDeque_deque, more]
    exact Nat.le_of_eq (by simp only [Session.setDeque]; omega)
  · cases switched
    exact ⟨clean, Nat.le_add_right _ _, rfl⟩

theorem progress_input (h : Side endpoint delivered read s) (clean : s.Clean)
    (none : s.connects = []) (empty : s.kcp.rcvQueue = []) {len : Int} {acked : Nat}
    {arrived : List (List UInt8)} (fits : arrived = [] ∨ 24 ≤ len) {old : Nat → List UInt8}
    (handled : inputToKcp s len ⟨acked, arrived⟩ old = some t) :
    t.Clean ∧ t.connects = [] ∧ t.backlog ≤ s.backlog + 2 * arrived.length := by
  rw [inputToKcp, if_neg (by simp [h.sends.unclosed])] at handled
  obtain ⟨u, loop, rfl⟩ := Option.map_eq_some_iff.mp handled
  obtain ⟨rcvQueue, sent⟩ := Session.ikcpInput_kcp empty acked fits
  rw [tryToReadFromKcp, rcvQueue] at loop
  have start : (s.ikcpInput len ⟨acked, arrived⟩).Clean := clean.of_same rfl rfl rfl
  obtain ⟨rest, -, going⟩ := readLoop_drains
    (P := fun queue u => u.sessionClose = false ∧ u.tcpDataWaitForSendDeque.Running ∧ u.Clean ∧
      u.connects = [] ∧ u.kcp.sent = s.kcp.sent ∧
      u.load + 2 * queue.length ≤ s.load + 2 * arrived.length)
    (by
      rintro message queue u v ⟨unclosed, running, clean, none, sent, bound⟩ pair switched
      have received : (u.ikcpRecv message.length).Clean := clean.of_same rfl rfl rfl
      obtain ⟨clean', more, connects⟩ :=
        progress_switch (s := u.ikcpRecv message.length) unclosed running received switched
      have unseen := unseen_switch switched
      obtain ⟨v', same, -, running'⟩ :=
        pumping_switch (s := u.ikcpRecv message.length) ⟨unclosed, running⟩ pair
      cases same.symm.trans switched
      refine ⟨unseen.sessionClose.trans unclosed, running', clean', connects.trans none,
        (congrArg Kcp.sent unseen.kcp).trans sent, ?_⟩
      have loaded : (u.ikcpRecv message.length).load = u.load := rfl
      rw [List.length_cons] at bound
      omega)
    ⟨h.sends.unclosed, h.running, start, none, sent, Nat.le_refl _⟩ loop
  obtain ⟨unclosed, -, clean', none', sent', bound⟩ := going
  obtain ⟨clean'', same⟩ := Session.goesOn_resumeTraffic clean' unclosed
  refine ⟨clean'', ?_, ?_⟩
  · rw [u.resumeTraffic_connects, none']
  · rw [same, Session.backlog, Session.backlog, sent']
    omega

end Home

/-! ### The VPS side -/

namespace Vps
open TransparentProxyNet.Session (Event Clean readLoop_drains)

variable {endpoint : Endpoint} {delivered : List (List UInt8)} {read : List UInt8} {s t : Session}

theorem Side.pumping (h : Side endpoint delivered read s) : Pumping s := by
  rcases h.phase with waiting | relaying
  · refine ⟨fun _ => waiting.pending, fun on => ?_, .inl waiting.pending⟩
    cases waiting.disabled.symm.trans on
  · refine ⟨fun off => ?_, fun _ _ => relaying.running, .inr relaying.running⟩
    cases off.symm.trans relaying.enabled

theorem Side.running (h : Side endpoint delivered read s) {i : Nat} {op : Op Packet}
    (run : s.tcpDataWaitForSendDeque.pending[i]? = some op) :
    s.tcpDataWaitForSendDeque.Running := h.pumping.settled.running run

theorem Side.oneConnect (h : Side endpoint delivered read s) {i : Nat} {outcome : Option Bool}
    (there : (s.connects[i]?).map Prod.snd = some outcome) :
    ∃ ep, s.connects = [(ep, outcome)] ∧ i = 0 := by
  obtain ⟨waiting, -, -⟩ := h.connecting there
  obtain ⟨⟨ep, known⟩, at_i, same⟩ := Option.map_eq_some_iff.mp there
  have short : s.connects.length ≤ 1 := by
    have size := congrArg List.length waiting.connects
    simp only [List.length_map, List.length_take] at size
    omega
  obtain ⟨connects, first⟩ := eq_singleton short at_i
  exact ⟨ep, same ▸ connects, first⟩

/-- The handler of the connect goes on with what has gathered before it. -/
theorem progress_connectHandler (h : Side endpoint delivered read s) (clean : s.toSession.Clean)
    {i : Nat} (enabled : s.toSession.Enabled (.connectHandler i false))
    (handled : connectHandler s i false = some t) :
    t.toSession.Clean ∧ t.toSession.backlog + 1 ≤ s.toSession.backlog := by
  obtain ⟨waiting, -, -⟩ := h.connecting enabled
  obtain ⟨ep, connects, rfl⟩ := h.oneConnect enabled
  have idle : s.connects.eraseIdx 0 = [] := by rw [connects]; rfl
  have going : s.outcome = none := by simp [TransparentProxyNet.Session.outcome, h.sends.unclosed]
  rw [connectHandler_eq, going] at handled
  obtain ⟨q, resumed, rfl⟩ := Option.map_eq_some_iff.mp handled
  have resting : Clean { s.toSession with
      connects := s.connects.eraseIdx 0, currentCmdStatus := .normal } :=
    ⟨clean.reads, clean.writes, by simp [idle]⟩
  have reading := resting.receiveTcpMessage h.sends.unclosed
  refine ⟨⟨reading.reads, TransparentProxyNet.Session.clean_resume waiting.pending resumed,
    reading.connects⟩, ?_⟩
  have reads : (connected { s with connects := s.connects.eraseIdx 0 }).reads = [none] := by
    simp [connected, receiveTcpFromTargetServerMessage, Session.lift,
      TransparentProxyNet.Session.receiveTcpMessage, h.sends.unclosed, waiting.reads]
  have load := Queue.load_resume waiting.pending resumed
  have after : TransparentProxyNet.Session.backlog ((connected { s with
      connects := s.connects.eraseIdx 0 }).toSession.setDeque q) =
        3 * s.kcp.sent.length + (4 * ([none] : List (Option ReadResult)).countP Option.isSome +
          q.load + ((s.connects.eraseIdx 0).map fun c => if c.2.isSome then 1 else 2).sum) := by
    rw [← reads]
    rfl
  change TransparentProxyNet.Session.backlog ((connected { s with
    connects := s.connects.eraseIdx 0 }).toSession.setDeque q) + 1 ≤ _
  rw [after, idle, load, TransparentProxyNet.Session.backlog, TransparentProxyNet.Session.load,
    connects, waiting.reads]
  simp only [Option.isSome_none, Bool.false_eq_true, not_false_eq_true, List.countP_cons_of_neg,
    List.countP_nil, List.map_nil, List.sum_nil, Bool.not_false, List.map_cons,
    Option.isSome_some, ↓reduceIte, List.sum_cons]
  omega

theorem progress_connectDone (h : Side endpoint delivered read s) (clean : s.toSession.Clean)
    {i : Nat} (enabled : s.toSession.Enabled (.connectDone i true)) :
    (s.toSession.connectDone i true).Clean ∧
      (s.toSession.connectDone i true).backlog + 1 ≤ s.toSession.backlog := by
  obtain ⟨ep, connects, rfl⟩ := h.oneConnect enabled
  have now : (s.toSession.connectDone 0 true).connects = [(ep, some true)] := by
    simp [TransparentProxyNet.Session.connectDone, connects]
  refine ⟨⟨clean.reads, clean.writes, by simp [now]⟩, ?_⟩
  simp only [TransparentProxyNet.Session.backlog, TransparentProxyNet.Session.load, now, connects]
  simp only [TransparentProxyNet.Session.connectDone, List.map_cons, Option.isSome_some,
    Option.isSome_none, Bool.false_eq_true, ↓reduceIte, List.map_nil, List.sum_cons, List.sum_nil]
  omega

theorem progress_event (h : Side endpoint delivered read s) (clean : s.toSession.Clean) {e : Event}
    (faultless : TransparentProxyNet.Session.Faultless e) (enabled : s.toSession.Enabled e)
    (handled : handle s e = some t) :
    t.toSession.Clean ∧ (e.ends = false → t.toSession.backlog + 1 ≤ s.toSession.backlog) := by
  cases e with
  | readDone i result =>
      obtain ⟨bytes, rfl⟩ := faultless
      cases handled
      exact ⟨clean.readDone i bytes, fun ends => by cases ends⟩
  | readHandler i result =>
      obtain ⟨bytes, rfl⟩ := faultless
      cases handled
      obtain ⟨clean', less⟩ := clean.receiveHandler h.sends enabled
      exact ⟨clean', fun _ => less⟩
  | writeDone i ok =>
      obtain rfl : ok = true := faultless
      cases handled
      obtain ⟨op, run, -⟩ := Option.map_eq_some_iff.mp enabled
      exact ⟨clean.writeDone i,
        fun _ => (TransparentProxyNet.Session.backlog_writeDone (h.running run) enabled).le⟩
  | writeHandler i ec =>
      obtain rfl : ec = false := faultless
      have going : s.outcome = none := by
        simp [TransparentProxyNet.Session.outcome, h.sends.unclosed]
      simp only [handle, writeHandler_eq, h.sends.unclosed, Bool.false_eq_true, if_false,
        going] at handled
      obtain ⟨q₁, popped, rest⟩ := Option.bind_eq_some_iff.mp handled
      obtain ⟨q₂, resumed, rfl⟩ := Option.map_eq_some_iff.mp rest
      obtain ⟨op, run, -⟩ := Option.map_eq_some_iff.mp enabled
      obtain ⟨clean', less⟩ := clean.writeHandler (h.running run) enabled popped resumed
      exact ⟨clean', fun _ => less.le⟩
  | connectDone i ok =>
      obtain rfl : ok = true := faultless
      cases handled
      exact (progress_connectDone h clean enabled).imp id fun less _ => less
  | connectHandler i ec =>
      obtain rfl : ec = false := faultless
      exact (progress_connectHandler h clean enabled handled).imp id fun less _ => less
  | inputToKcp => exact faultless.elim
  | closeSession => exact faultless.elim

/-- A message makes at most one item or one connect more. -/
theorem progress_switch {pair : Packet} (unclosed : s.sessionClose = false) (pumping : Pumping s)
    (clean : s.toSession.Clean) (switched : switchStatus s pair = some t) :
    t.toSession.Clean ∧ t.toSession.load ≤ s.toSession.load + 2 := by
  have going : s.outcome = none := by simp [TransparentProxyNet.Session.outcome, unclosed]
  unfold switchStatus at switched
  split at switched
  · split at switched
    · cases switched
      refine ⟨⟨clean.reads, clean.writes, ?_⟩, ?_⟩
      · intro c member
        rcases List.mem_append.mp member with old | new
        · exact clean.connects c old
        · cases List.mem_singleton.mp new
          simp [going]
      · simp only [TransparentProxyNet.Session.load, handShakeWithtargetServer, going,
          List.map_append, List.sum_append]
        simp
        omega
    · cases switched
      exact ⟨clean, Nat.le_add_right _ _⟩
  · split at switched
    · rw [trySend_eq, going] at switched
      cases enable : s.enableToSendToTargetServer with
      | false =>
          rw [enable, if_neg Bool.false_ne_true] at switched
          cases switched
          refine ⟨⟨clean.reads, clean.writes, clean.connects⟩, ?_⟩
          have more := Queue.load_pushBack (pumping.waiting enable) pair
          simp only [TransparentProxyNet.Session.load, Session.lift,
            TransparentProxyNet.Session.setDeque, more]
          omega
      | true =>
          rw [enable, if_pos rfl] at switched
          obtain ⟨q, pushed, rfl⟩ := Option.map_eq_some_iff.mp switched
          refine ⟨⟨clean.reads, TransparentProxyNet.Session.clean_submit clean.writes pushed,
            clean.connects⟩, ?_⟩
          have more := (pumping.running enable unclosed).load_submit pushed
          simp only [TransparentProxyNet.Session.load, Session.lift,
            TransparentProxyNet.Session.setDeque, more]
          omega
    · cases switched
      exact ⟨clean, Nat.le_add_right _ _⟩

theorem progress_input (h : Side endpoint delivered read s) (clean : s.toSession.Clean)
    (empty : s.kcp.rcvQueue = []) {len : Int} {acked : Nat} {arrived : List (List UInt8)}
    (fits : arrived = [] ∨ 24 ≤ len) {old : Nat → List UInt8}
    (handled : inputToKcp s len ⟨acked, arrived⟩ old = some t) :
    t.toSession.Clean ∧ t.toSession.backlog ≤ s.toSession.backlog + 2 * arrived.length := by
  rw [inputToKcp, if_neg (by simp [h.sends.unclosed])] at handled
  obtain ⟨u, loop, rfl⟩ := Option.map_eq_some_iff.mp handled
  obtain ⟨rcvQueue, sent⟩ := TransparentProxyNet.Session.ikcpInput_kcp empty acked fits
  have queue : (s.lift (·.ikcpInput len ⟨acked, arrived⟩)).kcp.rcvQueue = arrived := rcvQueue
  rw [tryToReadFromKcp, queue] at loop
  have start : (s.toSession.ikcpInput len ⟨acked, arrived⟩).Clean := clean.of_same rfl rfl rfl
  have pumped : Pumping (s.lift (·.ikcpInput len ⟨acked, arrived⟩)) :=
    h.pumping.of_same rfl rfl rfl
  obtain ⟨rest, -, going⟩ := readLoop_drains
    (P := fun queue u => u.sessionClose = false ∧ Pumping u ∧ u.toSession.Clean ∧
      u.kcp.sent = s.kcp.sent ∧
      u.toSession.load + 2 * queue.length ≤ s.toSession.load + 2 * arrived.length)
    (by
      rintro message queue u v ⟨unclosed, pumping, clean, sent, bound⟩ pair switched
      have received : (ikcpRecv u message.length).toSession.Clean := clean.of_same rfl rfl rfl
      have pumped : Pumping (ikcpRecv u message.length) := pumping.of_same rfl rfl rfl
      obtain ⟨clean', more⟩ :=
        progress_switch (s := ikcpRecv u message.length) unclosed pumped received switched
      obtain ⟨v', same, unclosed', pumping'⟩ :=
        pumping_switch (s := ikcpRecv u message.length) ⟨unclosed, pumped⟩ pair
      cases same.symm.trans switched
      have unseen := unseen_switch switched
      refine ⟨unclosed', pumping', clean', (congrArg Kcp.sent unseen.kcp).trans sent, ?_⟩
      have loaded : (ikcpRecv u message.length).toSession.load = u.toSession.load := rfl
      rw [List.length_cons] at bound
      omega)
    ⟨h.sends.unclosed, pumped, start, sent, Nat.le_refl _⟩ loop
  obtain ⟨unclosed, -, clean', sent', bound⟩ := going
  obtain ⟨clean'', same⟩ := TransparentProxyNet.Session.goesOn_resumeTraffic clean' unclosed
  refine ⟨clean'', ?_⟩
  change u.toSession.resumeTraffic.backlog ≤ _
  rw [same, TransparentProxyNet.Session.backlog, TransparentProxyNet.Session.backlog, sent']
  omega

/-- A session that has been given a message and can do nothing more is connected. -/
theorem Side.stuck_relaying (h : Side endpoint delivered read s) (clean : s.toSession.Clean)
    (stuck : s.toSession.Stuck) (opened : delivered ≠ []) : Relaying delivered s := by
  refine h.phase.resolve_left ?_
  intro waiting
  have one : s.connects.length = 1 := by
    have size := congrArg List.length waiting.connects
    have some := List.length_pos_of_ne_nil opened
    simp only [List.length_map, List.length_take] at size
    omega
  obtain ⟨⟨ep, outcome⟩, connects⟩ := List.length_eq_one_iff.mp one
  cases outcome with
  | none =>
      cases stuck (.connectDone 0 true) rfl
        (by simp [TransparentProxyNet.Session.Enabled, connects])
  | some ok =>
      cases ok with
      | false => exact absurd rfl (clean.connects _ (by rw [connects]; exact List.mem_cons_self))
      | true =>
          cases stuck (.connectHandler 0 false) rfl
            (by simp [TransparentProxyNet.Session.Enabled, connects])

end Vps

/-! ### Both -/

namespace Tunnel

/-- The end of a read, which brings new bytes into the tunnel. -/
def Event.ends : Event → Bool
  | .home e | .vps e => e.ends
  | _ => false

/-- An event on a socket, or a delivery of at least one message. -/
def Event.advances : Event → Bool
  | .home e | .vps e => !e.ends
  | .toVps _ _ arrived _ | .toHome _ _ arrived _ => !arrived.isEmpty

/-- How many such events there can still be before new bytes are read. -/
def work (t : Tunnel) : Nat :=
  t.home.backlog + t.vps.toSession.backlog - 3 * (t.toVps.length + t.toHome.length)

/-- Nothing has failed. -/
structure Healthy (endpoint : Endpoint) (t : Tunnel) : Prop where
  invariant : t.Invariant endpoint
  home : t.home.Clean
  vps : t.vps.toSession.Clean
  connects : t.home.connects = []

variable {endpoint : Endpoint} {t t' : Tunnel}

theorem Healthy.enough (h : Healthy endpoint t) :
    3 * (t.toVps.length + t.toHome.length) ≤ t.home.backlog + t.vps.toSession.backlog := by
  have up := h.invariant.toVps.length_le
  have down := h.invariant.toHome.length_le
  simp only [Session.backlog]
  omega

/-- A step that reads nothing takes work away if it advances, and adds none otherwise. -/
theorem Healthy.step {e : Event} (h : Healthy endpoint t) (step : Step t e t') :
    Healthy endpoint t' ∧
      (e.ends = false → t'.work + (if e.advances then 1 else 0) ≤ t.work) := by
  obtain ⟨u, same, invariant⟩ := h.invariant.step step.1
  cases same.symm.trans step.2
  obtain ⟨enabled, handled⟩ := step
  have before := h.enough
  cases e with
  | home e =>
      obtain ⟨s, run, rfl⟩ := Option.map_eq_some_iff.mp handled
      obtain ⟨clean, none, less⟩ :=
        Home.progress_event h.invariant.home h.home h.connects enabled.1 enabled.2 run
      have healthy : Healthy endpoint { t with home := s, homeRead := t.homeRead ++ e.bytesRead } :=
        ⟨invariant, clean, h.vps, none⟩
      refine ⟨healthy, ?_⟩
      intro (ends : e.ends = false)
      have after := healthy.enough
      have less := less ends
      simp only [work, Event.advances, ends] at *
      simp only [Bool.not_false, if_true]
      omega
  | vps e =>
      obtain ⟨s, run, rfl⟩ := Option.map_eq_some_iff.mp handled
      obtain ⟨clean, less⟩ :=
        Vps.progress_event h.invariant.vps h.vps enabled.1 enabled.2 run
      have healthy : Healthy endpoint { t with vps := s, vpsRead := t.vpsRead ++ e.bytesRead } :=
        ⟨invariant, h.home, clean, h.connects⟩
      refine ⟨healthy, ?_⟩
      intro (ends : e.ends = false)
      have after := healthy.enough
      have less := less ends
      simp only [work, Event.advances, ends] at *
      simp only [Bool.not_false, if_true]
      omega
  | toVps len acked arrived old =>
      obtain ⟨s, run, rfl⟩ := Option.map_eq_some_iff.mp handled
      obtain ⟨clean, bound⟩ :=
        Vps.progress_input h.invariant.vps h.vps h.invariant.vpsQueue enabled.2 run
      have healthy : Healthy endpoint { t with vps := s, toVps := t.toVps ++ arrived } :=
        ⟨invariant, h.home, clean, h.connects⟩
      refine ⟨healthy, fun _ => ?_⟩
      have after := healthy.enough
      simp only [work, Event.advances, List.length_append] at *
      cases arrived with
      | nil => simp at *; omega
      | cons message arrived => simp at *; omega
  | toHome len acked arrived old =>
      obtain ⟨s, run, rfl⟩ := Option.map_eq_some_iff.mp handled
      obtain ⟨clean, none, bound⟩ := Home.progress_input h.invariant.home h.home h.connects
        h.invariant.homeQueue enabled.2 run
      have healthy : Healthy endpoint { t with home := s, toHome := t.toHome ++ arrived } :=
        ⟨invariant, clean, h.vps, none⟩
      refine ⟨healthy, fun _ => ?_⟩
      have after := healthy.enough
      simp only [work, Event.advances, List.length_append] at *
      cases arrived with
      | nil => simp at *; omega
      | cons message arrived => simp at *; omega

/-- Messages that have not been delivered can be. -/
theorem delivered_all {sent delivered : List (List UInt8)} (part : delivered <+: sent)
    (none : ∀ arrived, arrived ≠ [] → ¬ Deliverable sent delivered 24 arrived) :
    delivered = sent := by
  obtain ⟨arrived, rfl⟩ := part
  cases arrived with
  | nil => exact (List.append_nil _).symm
  | cons message arrived =>
      exact absurd ⟨List.prefix_refl _, .inr (by decide)⟩
        (none _ (List.cons_ne_nil message arrived))

/-- No event that advances is possible any more. -/
def Exhausted (t : Tunnel) : Prop := ∀ e, t.Enabled e → e.advances = false

theorem Exhausted.stuck (h : t.Exhausted) : t.home.Stuck ∧ t.vps.toSession.Stuck := by
  constructor
  · intro e faultless enabled
    simpa [Event.advances] using h (.home e) ⟨faultless, enabled⟩
  · intro e faultless enabled
    simpa [Event.advances] using h (.vps e) ⟨faultless, enabled⟩

theorem Healthy.arrived (h : Healthy endpoint t) (exhausted : t.Exhausted) :
    t.vps.toSession.submitted = t.homeRead ∧ t.home.submitted = t.vpsRead := by
  obtain ⟨homeStuck, vpsStuck⟩ := exhausted.stuck
  have toVps : t.toVps = t.home.kcp.sent := by
    refine delivered_all h.invariant.toVps fun arrived some possible => ?_
    have none := exhausted (.toVps 24 0 arrived fun _ => []) possible
    exact some (by simpa [Event.advances] using none)
  have toHome : t.toHome = t.vps.kcp.sent := by
    refine delivered_all h.invariant.toHome fun arrived some possible => ?_
    have none := exhausted (.toHome 24 0 arrived fun _ => []) possible
    exact some (by simpa [Event.advances] using none)
  have opened : t.toVps ≠ [] := by
    obtain ⟨pieces, sent, -⟩ := h.invariant.home.sends.stream
    rw [toVps, sent]
    exact List.cons_ne_nil _ _
  have relaying := h.invariant.vps.stuck_relaying h.vps vpsStuck opened
  have up := carried h.invariant.home.sends (contents_statusAndData endpoint) h.invariant.toVps
    h.invariant.vps.log (running_short relaying.running).1
  have down := carried h.invariant.vps.sends rfl h.invariant.toHome h.invariant.home.log
    (running_short h.invariant.home.running).1
  exact ⟨up.whole (h.home.unsent_nil homeStuck) toVps (h.vps.items_nil relaying.running vpsStuck),
    down.whole (h.vps.unsent_nil vpsStuck) toHome
      (h.home.items_nil h.invariant.home.running homeStuck)⟩

theorem read_unless_ends {e : Event} (step : Step t e t') (ends : e.ends = false) :
    t'.homeRead = t.homeRead ∧ t'.vpsRead = t.vpsRead := by
  obtain ⟨-, handled⟩ := step
  cases e with
  | home e =>
      obtain ⟨s, -, rfl⟩ := Option.map_eq_some_iff.mp handled
      have none : e.bytesRead = [] := by
        cases e with
        | readDone i result => cases ends
        | _ => rfl
      exact ⟨by simp [none], rfl⟩
  | vps e =>
      obtain ⟨s, -, rfl⟩ := Option.map_eq_some_iff.mp handled
      have none : e.bytesRead = [] := by
        cases e with
        | readDone i result => cases ends
        | _ => rfl
      exact ⟨rfl, by simp [none]⟩
  | toVps len acked arrived old =>
      obtain ⟨s, -, rfl⟩ := Option.map_eq_some_iff.mp handled
      exact ⟨rfl, rfl⟩
  | toHome len acked arrived old =>
      obtain ⟨s, -, rfl⟩ := Option.map_eq_some_iff.mp handled
      exact ⟨rfl, rfl⟩

/-- Steps that bring no new bytes. -/
def Draining : Tunnel → Event → Tunnel → Prop := Guarded (fun _ e => e.ends = false) Step

theorem start_healthy (sessionId : SessionId) (homeNext vpsNext : UInt32)
    (endpoint homeClienEndpoint : Endpoint) :
    (start sessionId homeNext vpsNext endpoint homeClienEndpoint).Healthy endpoint := by
  refine ⟨start_invariant .., ⟨?_, ?_, ?_⟩, ⟨?_, ?_, ?_⟩, rfl⟩
  · intro result member
    cases List.mem_singleton.mp member
  all_goals
    intro x member
    cases member

/-- Whatever has been read before, once no more is read there are at most `work` events
left that advance, in any order, and when none is possible any more both applications have
been given all that the other one wrote. -/
theorem everything_arrives {sessionId : SessionId} {homeNext vpsNext : UInt32}
    {endpoint homeClienEndpoint : Endpoint} {es fs : List Event} {t u : Tunnel}
    (run : Trace Step (start sessionId homeNext vpsNext endpoint homeClienEndpoint) es t)
    (drain : Trace Draining t fs u) :
    fs.countP Event.advances ≤ t.work ∧
      (u.Exhausted → u.vps.toSession.submitted = t.homeRead ∧ u.home.submitted = t.vpsRead) := by
  have healthy : t.Healthy endpoint :=
    run.invariant (I := Healthy endpoint) (fun _ _ _ h step => (h.step step).1)
      (start_healthy sessionId homeNext vpsNext endpoint homeClienEndpoint)
  have healthy' : u.Healthy endpoint :=
    drain.invariant (I := Healthy endpoint) (fun _ _ _ h step => (h.step step.1).1) healthy
  have reads : u.homeRead = t.homeRead ∧ u.vpsRead = t.vpsRead := by
    refine drain.invariant (I := fun v => v.homeRead = t.homeRead ∧ v.vpsRead = t.vpsRead) ?_
      ⟨rfl, rfl⟩
    rintro v e v' ⟨home, vps⟩ ⟨step, ends⟩
    obtain ⟨home', vps'⟩ := read_unless_ends step ends
    exact ⟨home'.trans home, vps'.trans vps⟩
  constructor
  · have bound := drain.countP_le (I := Healthy endpoint) (f := work) (G := Event.advances)
      (fun _ _ _ h step => (h.step step.1).1) (fun _ _ _ h step => (h.step step.1).2 step.2) healthy
    omega
  · intro exhausted
    rw [← reads.1, ← reads.2]
    exact healthy'.arrived exhausted

/-- Two bytes that have been read while the VPS was connecting. -/
theorem everything_arrives_early :
    ∃ t u fs, earlyData.foldlM next (start (.replicate 16 0) 10 10 ⟨1, 80⟩ ⟨0, 0⟩) = some t ∧
      Trace Draining t fs u ∧ fs.countP Event.advances ≤ t.work ∧
      (u.Exhausted → u.vps.toSession.submitted = [7, 8] ∧ u.home.submitted = []) := by
  obtain ⟨t, run, home, vps⟩ :
      ∃ t, earlyData.foldlM next (start (.replicate 16 0) 10 10 ⟨1, 80⟩ ⟨0, 0⟩) = some t ∧
        t.homeRead = [7, 8] ∧ t.vpsRead = [] := ⟨_, by rfl, by rfl, by rfl⟩
  obtain ⟨u, written, first⟩ : ∃ u, next t (.vps (.writeDone 0 true)) = some u ∧
      Event.ends (.vps (.writeDone 0 true)) = false := by
    cases run
    exact ⟨_, by rfl, rfl⟩
  have drain : Trace Draining t [.vps (.writeDone 0 true)] u :=
    .single ⟨step_of_next written, first⟩
  have done := everything_arrives (.of_foldlM (fun _ _ _ => step_of_next) run) drain
  rw [home, vps] at done
  exact ⟨t, u, _, run, drain, done⟩

end Tunnel
end TransparentProxyNet
