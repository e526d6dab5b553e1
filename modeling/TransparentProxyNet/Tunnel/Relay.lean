import TransparentProxyNet.Session.Flow
import TransparentProxyNet.Tunnel.Model

/-! What each side of the tunnel keeps: the reading half turns what it reads into
messages, the writing half turns the messages delivered to it into writes. -/
namespace TransparentProxyNet
open Pump

theorem eq_singleton {α : Type} {xs : List α} {i : Nat} {x : α} (short : xs.length ≤ 1)
    (there : xs[i]? = some x) : xs = [x] ∧ i = 0 := by
  cases xs with
  | nil => simp at there
  | cons a rest =>
      obtain rfl : rest = [] := List.length_eq_zero_iff.mp (by simpa using short)
      rw [List.getElem?_singleton] at there
      split at there
      · cases there
        exact ⟨rfl, ‹_›⟩
      · cases there

/-! ### The writing half -/

/-- The items of the queue, started or not, are for these pieces of the stream. -/
def Logged (q : Queue Packet) (pieces : List (List UInt8)) : Prop :=
  ∃ log, q.Accounts log ∧ log.map Session.assistPoint = pieces

theorem Logged.keep {q r : Queue Packet} {pieces : List (List UInt8)} (h : Logged q pieces)
    (kept : ∀ log, q.Accounts log → r.Accounts log) : Logged r pieces := by
  obtain ⟨log, accounts, same⟩ := h
  exact ⟨log, kept log accounts, same⟩

/-- A message of status `normal` adds its own bytes. -/
theorem Logged.push {q r : Queue Packet} {delivered : List (List UInt8)} {bytes rest : List UInt8}
    (h : Logged q (contents delivered)) (kept : ∀ log, q.Accounts log →
      r.Accounts (log ++ [⟨normalMessage bytes ++ rest, (normalMessage bytes).length⟩])) :
    Logged r (contents (delivered ++ [normalMessage bytes])) := by
  obtain ⟨log, accounts, same⟩ := h
  refine ⟨_, kept log accounts, ?_⟩
  rw [List.map_append, same, List.map_singleton, assistPoint_normalMessage, contents_append,
    contents_normalMessage]

theorem Logged.submitted {s : Session} {pieces : List (List UInt8)}
    (h : Logged s.tcpDataWaitForSendDeque pieces) : s.submitted <+: pieces.flatten := by
  obtain ⟨log, accounts, rfl⟩ := h
  rw [Session.submitted, ← accounts, List.map_append, List.flatten_append]
  exact List.prefix_append _ _

theorem Logged.submitted_all {s : Session} {pieces : List (List UInt8)}
    (h : Logged s.tcpDataWaitForSendDeque pieces)
    (none : s.tcpDataWaitForSendDeque.items = []) : s.submitted = pieces.flatten := by
  obtain ⟨log, accounts, rfl⟩ := h
  rw [Session.submitted, ← accounts, none, List.drop_nil, List.append_nil]

/-! ### The reading half -/

namespace Session

/-- What a read brings fits behind `status_` in the buffer. -/
def FitBuffer (pieces : List (List UInt8)) : Prop :=
  ∀ bytes ∈ pieces, bytes.length ≤ bufferSize - cmdStatusSize

theorem FitBuffer.concat {pieces : List (List UInt8)} {bytes : List UInt8} (h : FitBuffer pieces)
    (fits : bytes.length ≤ bufferSize - cmdStatusSize) : FitBuffer (pieces ++ [bytes]) := by
  intro piece member
  rcases List.mem_append.mp member with old | new
  · exact h piece old
  · rwa [List.mem_singleton.mp new]

/-- So does what a read has brought whose handler is still to run. -/
def ReadsFit (s : Session) : Prop :=
  ∀ result, some result ∈ s.reads → result.length ≤ bufferSize - cmdStatusSize

theorem readsFit_idle {s : Session} (idle : s.reads = []) : s.ReadsFit := by
  intro result member
  rw [idle] at member
  cases member

/-- Reads that are cut off have brought nothing. -/
theorem ReadsFit.closeSession {s : Session} (h : s.ReadsFit) : s.closeSession.ReadsFit := by
  unfold Session.closeSession
  split
  · exact h
  · intro result member
    obtain ⟨r, inside, ends⟩ := List.mem_map.mp member
    cases r with
    | none =>
        cases ends
        exact Nat.zero_le _
    | some known =>
        cases ends
        exact h _ inside

/-- After `header` the session has sent what it has read, up to a read whose handler is
still to run. It reads unless the backlog is too long. -/
structure Sends (header : List (List UInt8)) (read : List UInt8) (s : Session) : Prop where
  unclosed : s.sessionClose = false
  stream : ∃ pieces : List (List UInt8), s.kcp.sent = header ++ pieces.map normalMessage ∧
    pieces.flatten ++ s.unsent = read ∧ FitBuffer pieces
  fits : s.ReadsFit
  oneRead : s.reads.length ≤ 1
  busy : s.trafficBusy = true → s.reads = []

/-- What reading may change. -/
structure OnlyReads (s t : Session) : Prop where
  same : t = { s with kcp := t.kcp, reads := t.reads, trafficBusy := t.trafficBusy }
  sent : s.kcp.sent <+: t.kcp.sent
  rcvQueue : t.kcp.rcvQueue = s.kcp.rcvQueue

section
variable {header : List (List UInt8)} {read bytes : List UInt8} {s t : Session} {i : Nat}

theorem OnlyReads.deque (h : OnlyReads s t) :
    t.tcpDataWaitForSendDeque = s.tcpDataWaitForSendDeque := by rw [h.same]

theorem OnlyReads.connects (h : OnlyReads s t) : t.connects = s.connects := by rw [h.same]

theorem Sends.of_same (h : Sends header read s) (sent : t.kcp.sent = s.kcp.sent)
    (reads : t.reads = s.reads)
    (busy : t.trafficBusy = s.trafficBusy) (unclosed : t.sessionClose = s.sessionClose) :
    Sends header read t := by
  refine ⟨unclosed.trans h.unclosed, ?_, fun result member => h.fits result (reads ▸ member),
    reads ▸ h.oneRead, fun on => reads ▸ h.busy (busy ▸ on)⟩
  rw [sent, unsent, reads]
  exact h.stream

/-- A session that does not read starts to read again. -/
theorem Sends.receive (h : Sends header read s) (idle : s.reads = [])
    (free : s.trafficBusy = false) : Sends header read s.receiveTcpMessage := by
  have reads : s.receiveTcpMessage.reads = [none] := by
    rw [receiveTcpMessage, h.unclosed, idle]
    rfl
  obtain ⟨pieces, sent, all⟩ := h.stream
  rw [unsent, idle] at all
  refine ⟨h.unclosed, ⟨pieces, sent, ?_⟩, by simp [ReadsFit, reads], by rw [reads]; rfl, ?_⟩
  · rw [unsent, reads]
    exact all
  · intro on
    cases free.symm.trans on

theorem Sends.free (h : Sends header read s) {result : Option ReadResult}
    (reads : s.reads = [result]) : s.trafficBusy = false := by
  cases busy : s.trafficBusy with
  | false => rfl
  | true => cases reads.symm.trans (h.busy busy)

theorem Sends.readDone (h : Sends header read s) (enabled : s.Enabled (.readDone i (.data bytes))) :
    Sends header (read ++ bytes) (s.readDone i (.data bytes)) := by
  obtain ⟨reads, rfl⟩ := eq_singleton h.oneRead enabled.1
  have now : (s.readDone 0 (.data bytes)).reads = [some (.data bytes)] := by
    rw [Session.readDone, reads]
    rfl
  obtain ⟨pieces, sent, all, fit⟩ := h.stream
  refine ⟨h.unclosed, ⟨pieces, sent, ?_, fit⟩, ?_, by rw [now]; rfl, ?_⟩
  · rw [← all, unsent, unsent, reads, now]
    simp [ReadResult.bytes]
  · intro result member
    rw [now, List.mem_singleton] at member
    cases member
    exact enabled.2
  · intro on
    cases (h.free reads).symm.trans on

theorem Sends.checkTrafficStatus (h : Sends header read s) (idle : s.reads = [])
    (free : s.trafficBusy = false) :
    Sends header read s.checkTrafficStatus ∧ OnlyReads s s.checkTrafficStatus := by
  unfold Session.checkTrafficStatus
  split
  · exact ⟨⟨h.unclosed, h.stream, h.fits, h.oneRead, fun _ => idle⟩, rfl, List.prefix_refl _, rfl⟩
  · exact ⟨h.receive idle free, rfl, List.prefix_refl _, rfl⟩

theorem Sends.receiveHandler (h : Sends header read s)
    (enabled : s.Enabled (.readHandler i (.data bytes))) :
    Sends header read (s.receiveHandler i (.data bytes)) ∧
      OnlyReads s (s.receiveHandler i (.data bytes)) := by
  obtain ⟨reads, rfl⟩ := eq_singleton h.oneRead enabled
  have free := h.free reads
  obtain ⟨pieces, sent, all, fit⟩ := h.stream
  have waits : s.unsent = bytes := by simp [unsent, reads, ReadResult.bytes]
  rw [waits] at all
  have idle : s.reads.eraseIdx 0 = [] := by rw [reads]; rfl
  simp only [Session.receiveHandler, idle]
  split
  · have empty : bytes = [] := List.length_eq_zero_iff.mp ‹_›
    refine ⟨⟨h.unclosed, ⟨pieces, sent, ?_, fit⟩, readsFit_idle rfl, Nat.zero_le 1, fun _ => rfl⟩,
      rfl, List.prefix_refl _, rfl⟩
    rw [← all, empty]
    rfl
  · have pushed :
        Sends header read { s with reads := [], kcp := s.kcp.ikcp_send (normalMessage bytes) } := by
      refine ⟨h.unclosed, ⟨pieces ++ [bytes], ?_, ?_, fit.concat ?_⟩, readsFit_idle rfl,
        Nat.zero_le 1, fun _ => rfl⟩
      · simp [Kcp.ikcp_send, sent]
      · simpa [unsent] using all
      · exact h.fits (.data bytes) (by simp [reads])
    obtain ⟨sends, only⟩ := pushed.checkTrafficStatus rfl free
    refine ⟨sends, only.same, ?_, only.rcvQueue⟩
    exact (List.prefix_append _ _).trans only.sent

theorem Sends.resumeTraffic (h : Sends header read s) :
    Sends header read s.resumeTraffic ∧ OnlyReads s s.resumeTraffic := by
  unfold Session.resumeTraffic
  split
  · have busy : s.trafficBusy = true := by
      rw [Bool.and_eq_true] at *
      exact And.left ‹_›
    have going : Sends header read { s with trafficBusy := false } :=
      ⟨h.unclosed, h.stream, h.fits, h.oneRead, fun off => by cases off⟩
    exact ⟨going.receive (h.busy busy) rfl, rfl, List.prefix_refl _, rfl⟩
  · exact ⟨h, rfl, List.prefix_refl _, rfl⟩

theorem Sends.all (h : Sends header read s) (opening : contents header = []) :
    (contents s.kcp.sent).flatten ++ s.unsent = read := by
  obtain ⟨pieces, sent, all, -⟩ := h.stream
  rw [sent, contents_append, opening, contents_normalMessages, List.nil_append, all]

end

/-! ### Deliveries -/

/-- The messages of a side: `header`, then what it has read. -/
def Speaks (header messages : List (List UInt8)) : Prop :=
  ∃ pieces : List (List UInt8), messages <+: header ++ pieces.map normalMessage ∧ FitBuffer pieces

theorem Speaks.mono {header xs ys : List (List UInt8)} (h : Speaks header ys) (part : xs <+: ys) :
    Speaks header xs := by
  obtain ⟨pieces, whole, fit⟩ := h
  exact ⟨pieces, part.trans whole, fit⟩

theorem Sends.speaks {header : List (List UInt8)} {read : List UInt8} {s : Session}
    (h : Sends header read s) : Speaks header s.kcp.sent := by
  obtain ⟨pieces, sent, -, fit⟩ := h.stream
  exact ⟨pieces, sent ▸ List.prefix_refl _, fit⟩

/-- The home side has no header. -/
theorem Speaks.normal {messages : List (List UInt8)} (h : Speaks [] messages) {message : List UInt8}
    (member : message ∈ messages) : ∃ bytes, message = normalMessage bytes := by
  obtain ⟨pieces, whole, -⟩ := h
  obtain ⟨bytes, -, same⟩ := List.mem_map.mp (whole.subset member)
  exact ⟨bytes, same.symm⟩

/-- The first message of the home side names the destination, and no other does. -/
theorem Speaks.opening {endpoint : Endpoint} {done queue : List (List UInt8)} {message : List UInt8}
    (h : Speaks [statusAndData endpoint] (done ++ message :: queue)) :
    (done = [] ∧ message = statusAndData endpoint) ∨
      (done ≠ [] ∧ ∃ bytes, message = normalMessage bytes) := by
  obtain ⟨pieces, whole, fit⟩ := h
  cases done with
  | nil => exact .inl ⟨rfl, (List.cons_prefix_cons.mp whole).1⟩
  | cons first done =>
      have rest : Speaks [] (done ++ message :: queue) :=
        ⟨pieces, (List.cons_prefix_cons.mp whole).2, fit⟩
      exact .inr ⟨List.cons_ne_nil _ _, rest.normal (by simp)⟩

/-- A message that is not empty and that fits in a node. -/
def Sound (message : List UInt8) : Prop := message ≠ [] ∧ message.length ≤ bufferSize

theorem sound_opening (endpoint : Endpoint) : Sound (statusAndData endpoint) := by
  have size : (statusAndData endpoint).length = 10 := by
    simp [statusAndData, bytes_length, BigEndian.encode_length]
  exact ⟨List.ne_nil_of_length_pos (by omega), by rw [size]; decide⟩

theorem sound_normalMessage {bytes : List UInt8}
    (fits : bytes.length ≤ bufferSize - cmdStatusSize) : Sound (normalMessage bytes) := by
  have size : (normalMessage bytes).length = 4 + bytes.length := by
    rw [normalMessage, List.length_append, bytes_length]
  simp only [bufferSize, cmdStatusSize] at fits
  exact ⟨List.ne_nil_of_length_pos (by omega), by rw [size, bufferSize]; omega⟩

theorem Speaks.sound {header messages : List (List UInt8)} (h : Speaks header messages)
    (opening : ∀ message ∈ header, Sound message) : ∀ message ∈ messages, Sound message := by
  obtain ⟨pieces, whole, fit⟩ := h
  intro message member
  rcases List.mem_append.mp (whole.subset member) with first | later
  · exact opening message first
  · obtain ⟨bytes, inside, rfl⟩ := List.mem_map.mp later
    exact sound_normalMessage (fit bytes inside)

/-- The loop of `tryToReadFromKcp` acts on every message, in order, until none is left. -/
theorem readLoop_delivers {S : Type} (base : S → Session) (recv : S → Nat → S)
    (switch : S → Packet → Option S) (old : Nat → List UInt8)
    (received : ∀ s size, (base (recv s size)).kcp = (base s).kcp.ikcp_recv)
    {P : List (List UInt8) → S → Prop} {target : List (List UInt8)}
    (sound : ∀ message ∈ target, Sound message)
    (round : ∀ done message queue s rest, done ++ message :: queue = target → P done s →
      ∃ s', switch (recv s message.length) ⟨message ++ rest, message.length⟩ = some s' ∧
        P (done ++ [message]) s' ∧
        (base s').kcp = (base (recv s message.length)).kcp)
    {delivered : List (List UInt8)} {s : S} (all : delivered ++ (base s).kcp.rcvQueue = target)
    (start : P delivered s) :
    ∃ s', readLoop recv switch old (base s).kcp.rcvQueue s = some s' ∧ P target s' ∧
      (base s').kcp.sent = (base s).kcp.sent ∧ (base s').kcp.rcvQueue = [] := by
  obtain ⟨s', left, run, ⟨done, cut, kept, sent, rest⟩, drained⟩ := readLoop_keeps recv switch old
    (P := fun queue t => ∃ done, done ++ queue = target ∧ P done t ∧
      (base t).kcp.sent = (base s).kcp.sent ∧
      (base t).kcp.rcvQueue = queue)
    (by
      rintro message queue t rest ⟨done, cut, kept, sent, left⟩
      rw [inNode_eq (sound message (by simp [← cut])).2]
      obtain ⟨t', switched, next, kcp⟩ := round done message queue t _ cut kept
      rw [received] at kcp
      refine ⟨t', switched, done ++ [message], by simpa using cut, next,
        by rw [kcp]; exact sent, ?_⟩
      rw [kcp, Kcp.ikcp_recv, left]
      rfl)
    ⟨delivered, all, start, rfl, rfl⟩
  cases left with
  | nil =>
      rw [List.append_nil] at cut
      exact ⟨s', run, cut ▸ kept, sent, rest⟩
  | cons message left =>
      have empty : message = [] := drained message rfl
      exact absurd empty (sound message (by simp [← cut])).1

theorem ikcpInput_kcp {s : Session} (none : s.kcp.rcvQueue = []) {len : Int} (acked : Nat)
    {arrived : List (List UInt8)} (fits : arrived = [] ∨ 24 ≤ len) :
    (s.ikcpInput len ⟨acked, arrived⟩).kcp.rcvQueue = arrived ∧
      (s.ikcpInput len ⟨acked, arrived⟩).kcp.sent = s.kcp.sent := by
  unfold ikcpInput Kcp.ikcp_input
  split
  · obtain rfl : arrived = [] := fits.resolve_right (by omega)
    exact ⟨none, rfl⟩
  · exact ⟨by simp [none], rfl⟩

theorem connectDone_targets (s : Session) (i : Nat) (ok : Bool) :
    (s.connectDone i ok).connects.map Prod.fst = s.connects.map Prod.fst := by
  refine List.ext_getElem? ?_
  intro j
  simp only [connectDone, List.getElem?_map, List.getElem?_modify]
  split <;> cases s.connects[j]? <;> rfl

end Session

/-! ### The home side -/

namespace Home
open TransparentProxyNet.Session (Event Sends Speaks Faultless)

/-- The session has read `read` and has been given the messages `delivered`. -/
structure Side (endpoint : Endpoint) (delivered : List (List UInt8)) (read : List UInt8)
    (s : Session) : Prop where
  sends : Sends [Session.statusAndData endpoint] read s
  running : s.tcpDataWaitForSendDeque.Running
  log : Logged s.tcpDataWaitForSendDeque (contents delivered)

variable {endpoint : Endpoint} {delivered : List (List UInt8)} {read : List UInt8} {s : Session}

theorem Side.event (h : Side endpoint delivered read s) {e : Event} (faultless : Faultless e)
    (enabled : s.Enabled e) :
    ∃ s', handle s e = some s' ∧ Side endpoint delivered (read ++ e.bytesRead) s' ∧
      s.kcp.sent <+: s'.kcp.sent ∧ s'.kcp.rcvQueue = s.kcp.rcvQueue := by
  cases e <;> simp only [Event.bytesRead, List.append_nil]
  case readDone i result =>
    obtain ⟨bytes, rfl⟩ := faultless
    exact ⟨_, rfl, ⟨h.sends.readDone enabled, h.running, h.log⟩, List.prefix_refl _, rfl⟩
  case readHandler i result =>
    obtain ⟨bytes, rfl⟩ := faultless
    obtain ⟨sends, only⟩ := h.sends.receiveHandler enabled
    exact ⟨_, rfl, ⟨sends, only.deque ▸ h.running, only.deque ▸ h.log⟩, only.sent, only.rcvQueue⟩
  case writeDone i ok =>
    exact ⟨_, rfl, ⟨h.sends.of_same rfl rfl rfl rfl, h.running.complete i ok,
      h.log.keep fun _ held => held.complete i ok⟩, List.prefix_refl _, rfl⟩
  case writeHandler i ec =>
    obtain rfl : ec = false := faultless
    obtain ⟨op, run, -⟩ := Option.map_eq_some_iff.mp enabled
    obtain ⟨q, popped, -, still, kept⟩ := h.running.finish run
    obtain ⟨q', resumed, running, -, kept'⟩ := resume_running still s.outcome
    refine ⟨s.setDeque q', ?_, ⟨h.sends.of_same rfl rfl rfl rfl, running, ?_⟩,
      List.prefix_refl _, rfl⟩
    · simp [writeHandler_eq, handle, popped, h.sends.unclosed, resumed]
    · exact h.log.keep fun log held => kept' log (kept log held)
  case connectDone i ok =>
    exact ⟨_, rfl, ⟨h.sends.of_same rfl rfl rfl rfl, h.running, h.log⟩, List.prefix_refl _, rfl⟩
  case connectHandler i ec => exact ⟨s, rfl, h, List.prefix_refl _, rfl⟩
  case inputToKcp => exact faultless.elim
  case closeSession => exact faultless.elim

theorem Side.switch (h : Side endpoint delivered read s) (bytes rest : List UInt8) :
    ∃ s', switchStatus s ⟨normalMessage bytes ++ rest, (normalMessage bytes).length⟩ = some s' ∧
      Side endpoint (delivered ++ [normalMessage bytes]) read s' ∧ s'.kcp = s.kcp := by
  obtain ⟨q, pushed, running, -, kept⟩ :=
    h.running.submit ⟨normalMessage bytes ++ rest, (normalMessage bytes).length⟩ s.outcome
  refine ⟨s.setDeque q, ?_, ⟨h.sends.of_same rfl rfl rfl rfl, running, h.log.push kept⟩, rfl⟩
  rw [switchStatus, if_pos (status_normalMessage bytes rest)]
  exact (s.push_eq _).trans (congrArg _ pushed)

theorem Side.input (h : Side endpoint delivered read s) (none : s.kcp.rcvQueue = []) {len : Int}
    (acked : Nat) {arrived : List (List UInt8)} (fits : arrived = [] ∨ 24 ≤ len)
    (speaks : Speaks [] (delivered ++ arrived)) (old : Nat → List UInt8) :
    ∃ s', inputToKcp s len ⟨acked, arrived⟩ old = some s' ∧
      Side endpoint (delivered ++ arrived) read s' ∧
      s.kcp.sent <+: s'.kcp.sent ∧ s'.kcp.rcvQueue = [] := by
  obtain ⟨rcvQueue, sent⟩ := Session.ikcpInput_kcp none acked fits
  have start : Side endpoint delivered read (s.ikcpInput len ⟨acked, arrived⟩) :=
    ⟨h.sends.of_same sent rfl rfl rfl, h.running, h.log⟩
  obtain ⟨t, run, side, same, left⟩ := Session.readLoop_delivers id Session.ikcpRecv
    switchStatus old
    (fun _ _ => rfl) (P := fun done t => Side endpoint done read t) (speaks.sound (by simp))
    (by
      intro done message queue t rest cut side
      have member : message ∈ delivered ++ arrived := by simp [← cut]
      obtain ⟨bytes, rfl⟩ := speaks.normal member
      have received : Side endpoint done read (t.ikcpRecv (normalMessage bytes).length) :=
        ⟨side.sends.of_same rfl rfl rfl rfl, side.running, side.log⟩
      exact received.switch bytes rest)
    (congrArg _ rcvQueue) start
  obtain ⟨sends, only⟩ := side.sends.resumeTraffic
  refine ⟨t.resumeTraffic, ?_, ⟨sends, only.deque ▸ side.running, only.deque ▸ side.log⟩, ?_,
    only.rcvQueue.trans left⟩
  · rw [inputToKcp, if_neg (by simp [h.sends.unclosed])]
    exact congrArg _ run
  · exact (same.trans sent) ▸ only.sent

end Home

/-! ### The VPS side -/

namespace Vps
open TransparentProxyNet.Session (Event Sends Speaks Faultless)

/-- Before the connect's handler has run: nothing is written and nothing is read. The
connect is to the endpoint of the first message. -/
structure Waiting (endpoint : Endpoint) (delivered : List (List UInt8)) (s : Session) : Prop where
  disabled : s.enableToSendToTargetServer = false
  reads : s.reads = []
  free : s.trafficBusy = false
  pending : s.tcpDataWaitForSendDeque.pending = []
  started : s.tcpDataWaitForSendDeque.started = []
  connects : s.connects.map Prod.fst = (delivered.take 1).map fun _ => endpoint
  asked : delivered = [] → s.currentCmdStatus = .newSession

/-- Once it has run. -/
structure Relaying (delivered : List (List UInt8)) (s : Session) : Prop where
  enabled : s.enableToSendToTargetServer = true
  running : s.tcpDataWaitForSendDeque.Running
  connects : s.connects = []
  opened : delivered ≠ []

/-- The session has read `read` and has been given the messages `delivered`. -/
structure Side (endpoint : Endpoint) (delivered : List (List UInt8)) (read : List UInt8)
    (s : Session) : Prop where
  sends : Sends [] read s.toSession
  phase : Waiting endpoint delivered s ∨ Relaying delivered s
  log : Logged s.tcpDataWaitForSendDeque (contents delivered)

variable {endpoint : Endpoint} {delivered : List (List UInt8)} {read : List UInt8} {s t : Session}

theorem Waiting.of_same (h : Waiting endpoint delivered s)
    (enable : t.enableToSendToTargetServer = s.enableToSendToTargetServer)
    (reads : t.reads = s.reads) (busy : t.trafficBusy = s.trafficBusy)
    (deque : t.tcpDataWaitForSendDeque = s.tcpDataWaitForSendDeque)
    (connects : t.connects = s.connects)
    (status : t.currentCmdStatus = s.currentCmdStatus) : Waiting endpoint delivered t :=
  ⟨enable.trans h.disabled, reads.trans h.reads, busy.trans h.free, deque ▸ h.pending,
    deque ▸ h.started,
    connects ▸ h.connects, fun first => status.trans (h.asked first)⟩

theorem Relaying.of_same (h : Relaying delivered s)
    (enable : t.enableToSendToTargetServer = s.enableToSendToTargetServer)
    (deque : t.tcpDataWaitForSendDeque = s.tcpDataWaitForSendDeque)
    (connects : t.connects = s.connects) : Relaying delivered t :=
      ⟨enable.trans h.enabled, deque ▸ h.running, connects.trans h.connects, h.opened⟩

/-- A connect whose handler can run is the only one. -/
theorem Side.connecting (h : Side endpoint delivered read s) {i : Nat} {outcome : Option Bool}
    (there : (s.connects[i]?).map Prod.snd = some outcome) :
    Waiting endpoint delivered s ∧ s.connects.eraseIdx i = [] ∧ delivered ≠ [] := by
  obtain ⟨c, there, -⟩ := Option.map_eq_some_iff.mp there
  rcases h.phase with waiting | relaying
  · have short : s.connects.length ≤ 1 := by
      have size := congrArg List.length waiting.connects
      simp only [List.length_map, List.length_take] at size
      omega
    obtain ⟨connects, rfl⟩ := eq_singleton short there
    refine ⟨waiting, by rw [connects]; rfl, ?_⟩
    rintro rfl
    have none := waiting.connects
    simp [connects] at none
  · simp [relaying.connects] at there

theorem Side.connectHandler (h : Side endpoint delivered read s) {i : Nat}
    (enabled : s.toSession.Enabled (.connectHandler i false)) :
    ∃ s', connectHandler s i false = some s' ∧ Side endpoint delivered read s' ∧
      s'.kcp = s.kcp := by
  obtain ⟨waiting, connects, opened⟩ := h.connecting enabled
  obtain ⟨q, resumed, running, -, kept⟩ := resume_running waiting.pending s.outcome
  have reading : Sends [] read (connected { s with connects := s.connects.eraseIdx i }).toSession :=
    Sends.receive
      (s := { s.toSession with connects := s.connects.eraseIdx i, currentCmdStatus := .normal })
      (h.sends.of_same rfl rfl rfl rfl) waiting.reads waiting.free
  refine ⟨(connected { s with connects := s.connects.eraseIdx i }).lift (·.setDeque q), ?_,
    ⟨reading.of_same rfl rfl rfl rfl, .inr ⟨rfl, running, connects, opened⟩, h.log.keep kept⟩, rfl⟩
  rw [connectHandler_eq, resumed]
  rfl

theorem Side.event (h : Side endpoint delivered read s) {e : Event} (faultless : Faultless e)
    (enabled : s.toSession.Enabled e) :
    ∃ s', handle s e = some s' ∧ Side endpoint delivered (read ++ e.bytesRead) s' ∧
      s.kcp.sent <+: s'.kcp.sent ∧ s'.kcp.rcvQueue = s.kcp.rcvQueue := by
  cases e <;> simp only [Event.bytesRead, List.append_nil]
  case readDone i result =>
    obtain ⟨bytes, rfl⟩ := faultless
    rcases h.phase with waiting | relaying
    · exact absurd enabled.1 (by simp [waiting.reads])
    · exact ⟨_, rfl, ⟨h.sends.readDone enabled, .inr (relaying.of_same rfl rfl rfl), h.log⟩,
        List.prefix_refl _, rfl⟩
  case readHandler i result =>
    obtain ⟨bytes, rfl⟩ := faultless
    rcases h.phase with waiting | relaying
    · exact absurd enabled (by simp [TransparentProxyNet.Session.Enabled, waiting.reads])
    · obtain ⟨sends, only⟩ := h.sends.receiveHandler enabled
      exact ⟨_, rfl, ⟨sends, .inr (relaying.of_same rfl only.deque only.connects),
        (only.deque ▸ h.log :)⟩, only.sent,
        only.rcvQueue⟩
  case writeDone i ok =>
    refine ⟨_, rfl,
      ⟨h.sends.of_same rfl rfl rfl rfl, ?_, h.log.keep fun _ held => held.complete i ok⟩,
      List.prefix_refl _, rfl⟩
    rcases h.phase with waiting | relaying
    · simp [TransparentProxyNet.Session.Enabled, waiting.pending] at enabled
    · exact .inr ⟨relaying.enabled, relaying.running.complete i ok, relaying.connects,
        relaying.opened⟩
  case writeHandler i ec =>
    obtain rfl : ec = false := faultless
    obtain ⟨op, run, -⟩ := Option.map_eq_some_iff.mp enabled
    rcases h.phase with waiting | relaying
    · simp [waiting.pending] at run
    · obtain ⟨q, popped, -, still, kept⟩ := relaying.running.finish run
      obtain ⟨q', resumed, running, -, kept'⟩ := resume_running still s.outcome
      refine ⟨s.lift (·.setDeque q'), ?_, ⟨h.sends.of_same rfl rfl rfl rfl, .inr ?_, ?_⟩,
        List.prefix_refl _, rfl⟩
      · simp [writeHandler_eq, handle, popped, h.sends.unclosed, resumed]
      · exact ⟨relaying.enabled, running, relaying.connects, relaying.opened⟩
      · exact h.log.keep fun log held => kept' log (kept log held)
  case connectDone i ok =>
    obtain ⟨waiting, -, -⟩ := h.connecting enabled
    refine ⟨_, rfl, ⟨h.sends.of_same rfl rfl rfl rfl, .inl ?_, h.log⟩, List.prefix_refl _, rfl⟩
    refine ⟨waiting.disabled, waiting.reads, waiting.free, waiting.pending, waiting.started, ?_,
      waiting.asked⟩
    rw [← waiting.connects]
    exact s.toSession.connectDone_targets i ok
  case connectHandler i ec =>
    obtain rfl : ec = false := faultless
    obtain ⟨s', handled, side, kcp⟩ := h.connectHandler enabled
    exact ⟨s', handled, side, kcp ▸ List.prefix_refl _, kcp ▸ rfl⟩
  case inputToKcp => exact faultless.elim
  case closeSession => exact faultless.elim

/-- The first message starts the connect. -/
theorem Side.switch_opening (h : Side endpoint [] read s) (rest : List UInt8) (len : Int) :
    ∃ s', switchStatus s ⟨TransparentProxyNet.Session.statusAndData endpoint ++ rest, len⟩ =
      some s' ∧
      Side endpoint [TransparentProxyNet.Session.statusAndData endpoint] read s' ∧
        s'.kcp = s.kcp := by
  have waiting : Waiting endpoint [] s := h.phase.resolve_right fun relaying => relaying.opened rfl
  have none : s.connects = [] := List.map_eq_nil_iff.mp waiting.connects
  refine ⟨handShakeWithtargetServer s endpoint, ?_, ⟨h.sends.of_same rfl rfl rfl rfl, .inl ?_, ?_⟩,
    rfl⟩
  · rw [switchStatus, if_pos (status_statusAndData endpoint rest), if_pos (waiting.asked rfl),
      ipAndPort_statusAndData]
  · refine ⟨waiting.disabled, waiting.reads, waiting.free, waiting.pending, waiting.started, ?_, ?_⟩
    · simp [handShakeWithtargetServer, none]
    · intro first
      cases first
  · rw [contents_statusAndData]
    exact h.log

/-- Every later one is for the target server; until the connect's handler has run it
waits. -/
theorem Side.switch_normal (h : Side endpoint delivered read s) (opened : delivered ≠ [])
    (bytes rest : List UInt8) :
    ∃ s', switchStatus s ⟨normalMessage bytes ++ rest, (normalMessage bytes).length⟩ = some s' ∧
      Side endpoint (delivered ++ [normalMessage bytes]) read s' ∧ s'.kcp = s.kcp := by
  have normal := status_normalMessage bytes rest
  have other : CmdStatus.normal.code ≠ CmdStatus.newSession.code := by decide
  obtain ⟨pair, shape⟩ :
      ∃ pair : Packet, ⟨normalMessage bytes ++ rest, (normalMessage bytes).length⟩ = pair :=
    ⟨_, rfl⟩
  have branch : switchStatus s pair = trySendTcpToTargetServerMessage s pair := by
    rw [switchStatus, if_neg (by rw [← shape, normal]; exact other),
      if_pos (by rw [← shape, normal])]
  rw [shape, branch, trySend_eq]
  rcases h.phase with waiting | relaying
  · rw [if_neg (by simp [waiting.disabled])]
    refine ⟨_, rfl, ⟨h.sends.of_same rfl rfl rfl rfl, .inl ?_, ?_⟩, rfl⟩
    · refine ⟨waiting.disabled, waiting.reads, waiting.free, waiting.pending,
        waiting.started, ?_, ?_⟩
      · rw [List.take_append_of_le_length (List.length_pos_of_ne_nil opened)]
        exact waiting.connects
      · intro first
        simp at first
    · subst shape
      exact h.log.push fun log held => held.pushBack waiting.pending _
  · obtain ⟨q, pushed, running, -, kept⟩ := relaying.running.submit pair s.outcome
    refine ⟨s.lift (·.setDeque q), by rw [if_pos relaying.enabled, pushed]; rfl,
      ⟨h.sends.of_same rfl rfl rfl rfl,
        .inr ⟨relaying.enabled, running, relaying.connects, by simp⟩, ?_⟩, rfl⟩
    subst shape
    exact h.log.push kept

theorem Side.recv (h : Side endpoint delivered read s) (size : Nat) :
    Side endpoint delivered read (ikcpRecv s size) :=
  ⟨h.sends.of_same rfl rfl rfl rfl,
    h.phase.imp (·.of_same rfl rfl rfl rfl rfl rfl) (·.of_same rfl rfl rfl), h.log⟩

theorem Side.input (h : Side endpoint delivered read s) (none : s.kcp.rcvQueue = []) {len : Int}
    (acked : Nat) {arrived : List (List UInt8)} (fits : arrived = [] ∨ 24 ≤ len)
    (speaks : Speaks [TransparentProxyNet.Session.statusAndData endpoint] (delivered ++ arrived))
    (old : Nat → List UInt8) :
    ∃ s', inputToKcp s len ⟨acked, arrived⟩ old = some s' ∧
      Side endpoint (delivered ++ arrived) read s' ∧
      s.kcp.sent <+: s'.kcp.sent ∧ s'.kcp.rcvQueue = [] := by
  obtain ⟨rcvQueue, sent⟩ := TransparentProxyNet.Session.ikcpInput_kcp none acked fits
  have start : Side endpoint delivered read (s.lift (·.ikcpInput len ⟨acked, arrived⟩)) :=
    ⟨h.sends.of_same sent rfl rfl rfl,
      h.phase.imp (·.of_same rfl rfl rfl rfl rfl rfl) (·.of_same rfl rfl rfl), h.log⟩
  obtain ⟨t, run, side, same, left⟩ := TransparentProxyNet.Session.readLoop_delivers
    Session.toSession ikcpRecv
    switchStatus old (fun _ _ => rfl) (P := fun done t => Side endpoint done read t)
    (speaks.sound (by simp [TransparentProxyNet.Session.sound_opening]))
    (by
      intro done message queue t rest cut side
      rcases (cut ▸ speaks).opening with ⟨rfl, rfl⟩ | ⟨opened, bytes, rfl⟩
      · exact (side.recv _).switch_opening rest _
      · exact (side.recv _).switch_normal opened bytes rest)
    (congrArg _ rcvQueue) start
  obtain ⟨sends, only⟩ := side.sends.resumeTraffic
  refine ⟨t.lift (·.resumeTraffic), ?_, ⟨sends, ?_, (only.deque ▸ side.log :)⟩, ?_,
    only.rcvQueue.trans left⟩
  · rw [inputToKcp, if_neg (by simp [h.sends.unclosed])]
    exact congrArg _ run
  · refine side.phase.imp ?_ (·.of_same rfl only.deque only.connects)
    intro waiting
    have idle : t.resumeTraffic = t.toSession := by
      simp [TransparentProxyNet.Session.resumeTraffic, waiting.free]
    exact waiting.of_same rfl (congrArg _ idle) (congrArg _ idle) (congrArg _ idle)
      (congrArg _ idle)
      (congrArg _ idle)
  · exact (same.trans sent) ▸ only.sent

/-! The connect's handler opens the gate, and nothing else does. -/

theorem switchStatus_gate {pair : Packet} (switched : switchStatus s pair = some t) :
    t.enableToSendToTargetServer = s.enableToSendToTargetServer := by
  unfold switchStatus at switched
  split at switched
  · split at switched <;> cases switched <;> rfl
  · split at switched
    · rw [trySend_eq] at switched
      split at switched
      · obtain ⟨q, -, rfl⟩ := Option.map_eq_some_iff.mp switched
        rfl
      · cases switched
        rfl
    · cases switched
      rfl

theorem inputToKcp_gate {len : Int} {input : KcpInput} {old : Nat → List UInt8}
    (handled : inputToKcp s len input old = some t) :
    t.enableToSendToTargetServer = s.enableToSendToTargetServer := by
  unfold inputToKcp at handled
  split at handled
  · cases handled
    rfl
  · obtain ⟨u, read, rfl⟩ := Option.map_eq_some_iff.mp handled
    obtain ⟨-, -, gate⟩ := TransparentProxyNet.Session.readLoop_drains
      (P := fun _ u => u.enableToSendToTargetServer = s.enableToSendToTargetServer)
      (fun message queue u v same pair switched => (switchStatus_gate switched).trans same) rfl read
    exact gate

theorem handle_gate {e : Event} (handled : handle s e = some t) :
    t.enableToSendToTargetServer = true ↔
      s.enableToSendToTargetServer = true ∨ ∃ i, e = .connectHandler i false := by
  cases e with
  | writeHandler i ec =>
      rw [handle, writeHandler_eq] at handled
      cases ec with
      | true =>
          cases handled
          simp [Session.lift]
      | false =>
          obtain ⟨q, -, rest⟩ := Option.bind_eq_some_iff.mp handled
          obtain ⟨q', -, rfl⟩ := Option.map_eq_some_iff.mp rest
          simp [Session.lift]
  | connectHandler i ec =>
      cases ec with
      | true =>
          cases handled
          simp
      | false =>
          rw [handle, connectHandler_eq] at handled
          obtain ⟨q, -, rfl⟩ := Option.map_eq_some_iff.mp handled
          simp [Session.lift, connected, receiveTcpFromTargetServerMessage]
  | inputToKcp len input old => simp [inputToKcp_gate handled]
  | _ =>
      cases handled
      simp [Session.lift]

end Vps
end TransparentProxyNet
