import TransparentProxyNet.MemoryPool.SizeClass
import TransparentProxyNet.Session.WriteQueue

/-! What the parsing of a KCP message takes from the message, and what from the pool node
that the message is copied into. The node has been used before, and the code reads from it
without a look at the length of the message. -/
namespace TransparentProxyNet
open Pump MemoryPool

/-- `sizeof(statusAndData)`. -/
def statusAndDataSize : Nat := 10

namespace Session

/-- The length and the bytes that `async_write` is given for a queue element. -/
def written (pair : Packet) : Int × List UInt8 := (pair.len - cmdStatusSize, assistPoint pair)

/-- `node` with a message copied to its front, and the length of the message. -/
def filled (message node : List UInt8) : Packet where
  buffer := message ++ node.drop message.length
  len := message.length

/-- The node after `ikcp_recv`, or `none` where the message goes on behind it. -/
def received (message node : List UInt8) : Option Packet :=
  if message.length ≤ node.length then some (filled message node) else none

/-- One round of the loop of `tryToReadFromKcp`, which takes `message` into `node`. -/
def round {S : Type} (recv : S → Nat → S) (switch : S → Packet → Option S) (s : S)
    (message node : List UInt8) : Option S :=
  (received message node).bind (switch (recv s message.length))

section
variable {S : Type} {recv : S → Nat → S} {switch : S → Packet → Option S} {s : S}
  {message node : List UInt8}

theorem round_eq (fits : message.length ≤ node.length) :
    round recv switch s message node = switch (recv s message.length) (filled message node) := by
  rw [round, received, if_pos fits, Option.bind_some]

theorem round_overruns (long : ¬ message.length ≤ node.length) :
    round recv switch s message node = none := by
  rw [round, received, if_neg long, Option.bind_none]

/-- The loop goes round by round, as long as every message fits in its node. -/
theorem readLoop_cons {old : Nat → List UInt8} {queue : List (List UInt8)}
    (full : message ≠ []) (fits : message.length ≤ (old queue.length).length)
    (node : (old queue.length).length ≤ bufferSize) : readLoop recv switch old (message :: queue) s =
      (round recv switch s message (old queue.length)).bind (readLoop recv switch old queue) := by
  have whole : inNode message ((old queue.length).drop message.length) =
      message ++ (old queue.length).drop message.length := by
    rw [inNode, List.take_of_length_le]
    rw [List.length_append, List.length_drop]
    omega
  rw [readLoop, if_neg (mt List.length_eq_zero_iff.mp full), round_eq fits]
  simp only [whole]
  rfl

end

/-- The reaction to a message depends on nothing but the message: there is one, whatever the
node held, an incomplete message is ignored, and what is queued is the message without its
status. `view` is what the rest of the program can see of a session. -/
structure ParsesMessage {S V : Type} {n : Nat} (view : S → V) (deque : S → Queue Packet)
    (unread : S) (message : List UInt8) (incomplete : Prop) (react : Bytes n → Option S) :
    Prop where
  same : ∃ reaction, ∀ node, (react node).map view = some reaction
  ignored : incomplete → ∀ node, react node = some unread
  queued : ∀ node t, react node = some t → (deque t).items = (deque unread).items ∨
    0 ≤ (message.length : Int) - cmdStatusSize ∧
    ∃ pair, (deque t).items = (deque unread).items ++ [pair] ∧
      written pair = ((message.length : Int) - cmdStatusSize, message.drop cmdStatusSize)

/-- A message that is ignored, whatever the node held. -/
theorem ParsesMessage.of_ignored {S V : Type} {n : Nat} {view : S → V} {deque : S → Queue Packet}
    {unread : S} {message : List UInt8} {incomplete : Prop} {react : Bytes n → Option S}
    (ignored : ∀ node, react node = some unread) :
    ParsesMessage view deque unread message incomplete react := by
  constructor
  · refine ⟨view unread, fun node => ?_⟩
    rw [ignored]
    rfl
  · exact fun _ => ignored
  · intro node t reacted
    cases (ignored node).symm.trans reacted
    exact .inl rfl

/-- There is no reaction where every node is too small. -/
theorem fits_of_same {S V : Type} {n : Nat} {view : S → V} {message : List UInt8}
    {react : Bytes n → Option S} (same : ∃ reaction, ∀ node, (react node).map view = some reaction)
    (overruns : ¬ message.length ≤ n → ∀ node, react node = none) : message.length ≤ n := by
  by_contra long
  obtain ⟨reaction, same⟩ := same
  have none := same (.replicate n 0)
  rw [overruns long, Option.map_none] at none
  cases none

/-- A message too short for a status, that a node can complete to one. -/
def ShortZeros (message : List UInt8) : Prop :=
  message.length < cmdStatusSize ∧ ∀ b ∈ message, b = 0

section
variable {message : List UInt8}

theorem status_filled (complete : cmdStatusSize ≤ message.length) (node : List UInt8) :
    status (filled message node).buffer = status message := by
  have complete : 4 ≤ message.length := complete
  rw [filled, status, List.take_append_of_le_length complete]
  rfl

theorem ipAndPort_filled (complete : statusAndDataSize ≤ message.length) (node : List UInt8) :
    ipAndPort (filled message node).buffer = ipAndPort message := by
  simp only [statusAndDataSize] at complete
  have ip : 4 ≤ (message.drop 4).length := by
    rw [List.length_drop]
    omega
  have port : 2 ≤ (message.drop 8).length := by
    rw [List.length_drop]
    omega
  rw [filled, ipAndPort, List.drop_append_of_le_length (by omega),
    List.drop_append_of_le_length (by omega), List.take_append_of_le_length ip,
    List.take_append_of_le_length port]
  rfl

theorem written_filled (complete : cmdStatusSize ≤ message.length) (node : List UInt8) :
    written (filled message node) =
      ((message.length : Int) - cmdStatusSize, message.drop cmdStatusSize) := by
  have size : ((message.length : Int) - cmdStatusSize).toNat =
      (message.drop cmdStatusSize).length := by
    rw [List.length_drop]
    omega
  simp only [written, assistPoint, filled, List.drop_append_of_le_length complete, size,
    List.take_left]

/-- A status that is known has three zeros in front. -/
theorem zeros_of_status {point : List UInt8} (long : cmdStatusSize ≤ point.length)
    (known : status point < 256) : ∀ b ∈ point.take 3, b = 0 := by
  match point, long with
  | a :: b :: c :: d :: rest, _ =>
      have digits : ((a.toNat * 256 + b.toNat) * 256 + c.toNat) * 256 + d.toNat < 256 := by
        simpa [status, BigEndian.decode] using known
      have zero (x : UInt8) (none : x.toNat = 0) : x = 0 := UInt8.toNat_inj.mp none
      intro x member
      simp only [List.take_succ_cons, List.take_zero, List.mem_cons, List.not_mem_nil,
        or_false] at member
      rcases member with rfl | rfl | rfl
      · exact zero _ (by omega)
      · exact zero _ (by omega)
      · exact zero _ (by omega)

/-- Without three zeros in front no node makes a known status of a short message. -/
theorem status_of_not_shortZeros (short : message.length < cmdStatusSize)
    (other : ¬ ShortZeros message) {n : Nat} (large : statusAndDataSize ≤ n) (node : Bytes n) :
    256 ≤ status (filled message node.toList).buffer := by
  simp only [cmdStatusSize, statusAndDataSize] at short large
  by_contra known
  apply other
  refine ⟨short, fun b member => zeros_of_status ?_ (not_le.mp known) b ?_⟩
  · rw [filled, List.length_append, List.length_drop, node.toList_length, cmdStatusSize]
    omega
  · rw [filled, List.take_append]
    exact List.mem_append_left _ (by rwa [List.take_of_length_le (by omega)])

end

/-- A node whose first bytes are the status `normal`. -/
def normalNode (n : Nat) : List UInt8 := CmdStatus.normal.bytes ++ List.replicate (n - 4) 0

theorem normalNode_length {n : Nat} (large : 4 ≤ n) : (normalNode n).length = n := by
  rw [normalNode, List.length_append, CmdStatus.bytes, BigEndian.encode_length,
    List.length_replicate]
  omega

/-- It completes a few zeros to that status. -/
theorem status_shortZeros {message : List UInt8} (zeros : ShortZeros message) (n : Nat) :
    status (filled message (normalNode n)).buffer = CmdStatus.normal.code := by
  obtain ⟨short, zero⟩ := zeros
  have front : message = (normalNode n).take message.length := by
    match message, short with
    | [], _ => rfl
    | [a], _ => simp [zero a, normalNode, CmdStatus.bytes, BigEndian.encode, CmdStatus.code]
    | [a, b], _ =>
        simp [zero a, zero b, normalNode, CmdStatus.bytes, BigEndian.encode, CmdStatus.code]
    | [a, b, c], _ =>
        simp [zero a, zero b, zero c, normalNode, CmdStatus.bytes, BigEndian.encode, CmdStatus.code]
  have whole := List.take_append_drop message.length (normalNode n)
  rw [← front] at whole
  rw [filled, whole]
  rfl

end Session

namespace Home
open TransparentProxyNet.Session (ParsesMessage ShortZeros written round status)

/-- What the rest of the program can see of a session: of a queue element, what is
written. -/
def view (s : Session) : Session × Queue (Int × List UInt8) :=
  (s.setDeque .idle, s.tcpDataWaitForSendDeque.map written)

section
variable {s : Session} {message : List UInt8}

theorem view_trySend (s : Session) (pair : Packet) :
    (trySendTcpToWifiClientMessage s pair).map view =
      ((s.tcpDataWaitForSendDeque.map written).submit (written pair) s.outcome).map fun q =>
        (s.setDeque .idle, q) := by
  rw [← Queue.map_submit, Option.map_map]
  refine (congrArg (Option.map view) (s.push_eq pair)).trans ?_
  rw [Option.map_map]
  rfl

/-- Of a message that is queued nothing counts but what is written of it. -/
theorem trySend_determined (s : Session) (whole : Int × List UInt8) : ∃ reaction,
    ∀ pair, written pair = whole →
      (trySendTcpToWifiClientMessage s pair).map view = some reaction := by
  obtain ⟨q, submitted⟩ := (s.tcpDataWaitForSendDeque.map written).submit_total whole s.outcome
  refine ⟨(s.setDeque .idle, q), ?_⟩
  rintro pair rfl
  rw [view_trySend, submitted]
  rfl

theorem switch_other (s : Session) {pair : Packet}
    (other : status pair.buffer ≠ CmdStatus.normal.code) :
    switchStatus s pair = some s := if_neg other

theorem switch_normal (s : Session) {pair : Packet}
    (normal : status pair.buffer = CmdStatus.normal.code) : ∃ t, switchStatus s pair = some t ∧
      t.tcpDataWaitForSendDeque.items = s.tcpDataWaitForSendDeque.items ++ [pair] := by
  obtain ⟨q, pushed⟩ := s.tcpDataWaitForSendDeque.submit_total pair s.outcome
  refine ⟨s.setDeque q, ?_, Queue.submit_items pushed⟩
  rw [switchStatus, if_pos normal]
  exact (s.push_eq pair).trans (by rw [pushed]; rfl)

/-- The reaction of a session to a message, given what the node of the message held. -/
def react (s : Session) (message : List UInt8) {n : Nat} (node : Bytes n) : Option Session :=
  round Session.ikcpRecv switchStatus s message node.toList

theorem react_eq {n : Nat} (fits : message.length ≤ n) {node : Bytes n} :
    react s message node =
      switchStatus (s.ikcpRecv message.length) (Session.filled message node.toList) :=
  Session.round_eq (by rwa [node.toList_length])

abbrev Parses (s : Session) (message : List UInt8) (n : Nat) : Prop :=
  ParsesMessage view Session.tcpDataWaitForSendDeque (s.ikcpRecv message.length) message
    (message.length < cmdStatusSize) (react (n := n) s message)

/-- A message with its status, of the kind that is queued. -/
theorem parses_normal (complete : cmdStatusSize ≤ message.length)
    (normal : status message = CmdStatus.normal.code) {n : Nat} (fits : message.length ≤ n) :
    Parses s message n := by
  have statuses (node : Bytes n) :
      status (Session.filled message node.toList).buffer = CmdStatus.normal.code := by
    rw [Session.status_filled complete, normal]
  have reacts (node : Bytes n) : react s message node =
      trySendTcpToWifiClientMessage (s.ikcpRecv message.length)
        (Session.filled message node.toList) := by
    rw [react_eq fits, switchStatus, if_pos (statuses node)]
  constructor
  · obtain ⟨reaction, same⟩ := trySend_determined (s.ikcpRecv message.length)
      ((message.length : Int) - cmdStatusSize, message.drop cmdStatusSize)
    refine ⟨reaction, fun node => ?_⟩
    rw [reacts]
    exact same _ (Session.written_filled complete node.toList)
  · intro short
    exact absurd short (not_lt.mpr complete)
  · intro node t reacted
    obtain ⟨u, same, items⟩ := switch_normal (s.ikcpRecv message.length) (statuses node)
    rw [react_eq fits] at reacted
    cases same.symm.trans reacted
    exact .inr ⟨by omega, _, items, Session.written_filled complete node.toList⟩

theorem parses_iff (message : List UInt8) {n : Nat} (large : statusAndDataSize ≤ n) :
    Parses s message n ↔ message.length ≤ n ∧ ¬ ShortZeros message := by
  constructor
  · intro parses
    have fits : message.length ≤ n := Session.fits_of_same parses.same fun long node =>
      Session.round_overruns (by rwa [node.toList_length])
    refine ⟨fits, fun zeros => ?_⟩
    have four : 4 ≤ n := Nat.le_trans (by decide) large
    obtain ⟨t, reacted, items⟩ :=
      switch_normal (s.ikcpRecv message.length) (Session.status_shortZeros zeros n)
    have ignored := (react_eq fits).symm.trans
      (parses.ignored zeros.1 ⟨_, Session.normalNode_length four⟩)
    cases reacted.symm.trans ignored
    simp at items
  · rintro ⟨fits, other⟩
    by_cases complete : cmdStatusSize ≤ message.length
    · by_cases normal : status message = CmdStatus.normal.code
      · exact parses_normal complete normal fits
      · refine .of_ignored fun node => ?_
        rw [react_eq fits]
        apply switch_other
        rwa [Session.status_filled complete]
    · refine .of_ignored fun node => ?_
      rw [react_eq fits]
      apply switch_other
      intro normal
      have unknown := Session.status_of_not_shortZeros (not_le.mp complete) other large node
      rw [normal] at unknown
      exact absurd unknown (by decide)

end
end Home

namespace Vps
open TransparentProxyNet.Session (ParsesMessage ShortZeros written filled round status ipAndPort)

def view (s : Session) : Session × Queue (Int × List UInt8) :=
  (s.lift (·.setDeque .idle), s.tcpDataWaitForSendDeque.map written)

/-- What the code needs of a message before it acts on it. -/
def Incomplete (message : List UInt8) : Prop :=
  message.length < cmdStatusSize ∨
    status message = CmdStatus.newSession.code ∧ message.length < statusAndDataSize

/-- A message that starts a connect to an address that it brings only in part. -/
def ShortAddress (s : Session) (message : List UInt8) : Prop :=
  cmdStatusSize ≤ message.length ∧ message.length < statusAndDataSize ∧
    status message = CmdStatus.newSession.code ∧ s.currentCmdStatus = .newSession

section
variable {s : Session} {message : List UInt8} {pair : Packet}

theorem view_trySend (s : Session) (pair : Packet) :
    (trySendTcpToTargetServerMessage s pair).map view =
      if s.enableToSendToTargetServer then
        ((s.tcpDataWaitForSendDeque.map written).submit (written pair) s.outcome).map fun q =>
          (s.lift (·.setDeque .idle), q)
      else some (s.lift (·.setDeque .idle),
        (s.tcpDataWaitForSendDeque.map written).pushBack (written pair)) := by
  rw [trySend_eq, ← Queue.map_submit, ← Queue.map_pushBack]
  split
  · rw [Option.map_map, Option.map_map]
    rfl
  · rfl

theorem trySend_determined (s : Session) (whole : Int × List UInt8) : ∃ reaction,
    ∀ pair, written pair = whole →
      (trySendTcpToTargetServerMessage s pair).map view = some reaction := by
  by_cases enabled : s.enableToSendToTargetServer
  · obtain ⟨q, submitted⟩ := (s.tcpDataWaitForSendDeque.map written).submit_total whole s.outcome
    refine ⟨(s.lift (·.setDeque .idle), q), ?_⟩
    rintro pair rfl
    rw [view_trySend, if_pos enabled, submitted]
    rfl
  · refine ⟨(s.lift (·.setDeque .idle), (s.tcpDataWaitForSendDeque.map written).pushBack whole), ?_⟩
    rintro pair rfl
    rw [view_trySend, if_neg enabled]

theorem switch_newSession (new : status pair.buffer = CmdStatus.newSession.code)
    (waiting : s.currentCmdStatus = .newSession) :
    switchStatus s pair = some (handShakeWithtargetServer s (ipAndPort pair.buffer)) := by
  rw [switchStatus, if_pos new, if_pos waiting]

theorem switch_normal (normal : status pair.buffer = CmdStatus.normal.code) :
    switchStatus s pair = trySendTcpToTargetServerMessage s pair := by
  rw [switchStatus, if_neg (by rw [normal]; decide), if_pos normal]

theorem switch_other
    (late : status pair.buffer = CmdStatus.newSession.code → s.currentCmdStatus ≠ .newSession)
    (other : status pair.buffer ≠ CmdStatus.normal.code) : switchStatus s pair = some s := by
  by_cases new : status pair.buffer = CmdStatus.newSession.code
  · rw [switchStatus, if_pos new, if_neg (late new)]
  · rw [switchStatus, if_neg new, if_neg other]

theorem trySend_items (s : Session) (pair : Packet) :
    ∃ t, trySendTcpToTargetServerMessage s pair = some t ∧
      t.tcpDataWaitForSendDeque.items = s.tcpDataWaitForSendDeque.items ++ [pair] := by
  rw [trySend_eq]
  split
  · obtain ⟨q, pushed⟩ := s.tcpDataWaitForSendDeque.submit_total pair s.outcome
    exact ⟨_, by rw [pushed]; rfl, Queue.submit_items pushed⟩
  · exact ⟨_, rfl, rfl⟩

/-- The reaction of a session to a message, given what the node of the message held. -/
def react (s : Session) (message : List UInt8) {n : Nat} (node : Bytes n) : Option Session :=
  round ikcpRecv switchStatus s message node.toList

theorem react_eq {n : Nat} (fits : message.length ≤ n) {node : Bytes n} :
    react s message node =
      switchStatus (ikcpRecv s message.length) (filled message node.toList) :=
  TransparentProxyNet.Session.round_eq (by rwa [node.toList_length])

abbrev Parses (s : Session) (message : List UInt8) (n : Nat) : Prop :=
  ParsesMessage view (·.tcpDataWaitForSendDeque) (ikcpRecv s message.length) message
    (Incomplete message) (react (n := n) s message)

/-- A message with its status, of the kind that is queued. -/
theorem parses_normal (complete : cmdStatusSize ≤ message.length)
    (normal : status message = CmdStatus.normal.code) {n : Nat} (fits : message.length ≤ n) :
    Parses s message n := by
  have reacts (node : Bytes n) : react s message node =
      trySendTcpToTargetServerMessage (ikcpRecv s message.length)
        (filled message node.toList) := by
    rw [react_eq fits]
    apply switch_normal
    rw [TransparentProxyNet.Session.status_filled complete, normal]
  constructor
  · obtain ⟨reaction, same⟩ := trySend_determined (ikcpRecv s message.length)
      ((message.length : Int) - cmdStatusSize, message.drop cmdStatusSize)
    refine ⟨reaction, fun node => ?_⟩
    rw [reacts]
    exact same _ (TransparentProxyNet.Session.written_filled complete node.toList)
  · rintro (short | ⟨new, -⟩)
    · exact absurd short (not_lt.mpr complete)
    · rw [normal] at new
      cases new
  · intro node t reacted
    rw [reacts] at reacted
    obtain ⟨u, same, items⟩ :=
      trySend_items (ikcpRecv s message.length) (filled message node.toList)
    cases same.symm.trans reacted
    exact .inr ⟨by omega, _, items,
      TransparentProxyNet.Session.written_filled complete node.toList⟩

/-- A message with its address, for a session that waits for one. -/
theorem parses_newSession (complete : statusAndDataSize ≤ message.length)
    (new : status message = CmdStatus.newSession.code) (waiting : s.currentCmdStatus = .newSession)
    {n : Nat} (fits : message.length ≤ n) : Parses s message n := by
  have four : cmdStatusSize ≤ message.length := Nat.le_trans (by decide) complete
  have reacts (node : Bytes n) : react s message node =
      some (handShakeWithtargetServer (ikcpRecv s message.length) (ipAndPort message)) := by
    rw [react_eq fits, ← TransparentProxyNet.Session.ipAndPort_filled complete node.toList]
    apply switch_newSession
    · rw [TransparentProxyNet.Session.status_filled four, new]
    · exact waiting
  constructor
  · refine ⟨view (handShakeWithtargetServer (ikcpRecv s message.length) (ipAndPort message)),
      fun node => ?_⟩
    rw [reacts, Option.map_some]
  · rintro (short | ⟨-, short⟩)
    · exact absurd short (not_lt.mpr four)
    · exact absurd short (not_lt.mpr complete)
  · intro node t reacted
    cases (reacts node).symm.trans reacted
    exact .inl rfl

theorem parses_iff (s : Session) (message : List UInt8) {n : Nat} (large : statusAndDataSize ≤ n) :
    Parses s message n ↔
      message.length ≤ n ∧ ¬ ShortZeros message ∧ ¬ ShortAddress s message := by
  constructor
  · intro parses
    have fits : message.length ≤ n :=
      TransparentProxyNet.Session.fits_of_same parses.same fun long node =>
        TransparentProxyNet.Session.round_overruns (by rwa [node.toList_length])
    refine ⟨fits, ?_, ?_⟩
    · intro zeros
      have four : 4 ≤ n := Nat.le_trans (by decide) large
      have normal := TransparentProxyNet.Session.status_shortZeros zeros n
      obtain ⟨t, reacted, items⟩ :=
        trySend_items (ikcpRecv s message.length) (filled message (Session.normalNode n))
      have ignored := (react_eq fits).symm.trans
        (parses.ignored (.inl zeros.1) ⟨_, TransparentProxyNet.Session.normalNode_length four⟩)
      cases ((switch_normal normal).trans reacted).symm.trans ignored
      simp at items
    · rintro ⟨complete, short, new, waiting⟩
      obtain ⟨node, -⟩ : ∃ node : Bytes n, node = .replicate n 0 := ⟨_, rfl⟩
      have ignored := parses.ignored (.inr ⟨new, short⟩) node
      rw [← TransparentProxyNet.Session.status_filled complete node.toList] at new
      have started := switch_newSession (s := ikcpRecv s message.length) new waiting
      rw [react_eq fits] at ignored
      have same :=
        congrArg (·.map fun t : Session => t.connects.length) (started.symm.trans ignored)
      simp [handShakeWithtargetServer, ikcpRecv] at same
  · rintro ⟨fits, zeros, address⟩
    by_cases complete : cmdStatusSize ≤ message.length
    · have statuses (node : Bytes n) :=
        TransparentProxyNet.Session.status_filled complete node.toList
      by_cases normal : status message = CmdStatus.normal.code
      · exact parses_normal complete normal fits
      · by_cases opens : status message = CmdStatus.newSession.code ∧
          s.currentCmdStatus = .newSession
        · refine parses_newSession ?_ opens.1 opens.2 fits
          by_contra short
          exact address ⟨complete, not_le.mp short, opens⟩
        · refine .of_ignored fun node => (react_eq fits).trans (switch_other ?_ ?_)
          · rw [statuses]
            exact fun new waiting => opens ⟨new, waiting⟩
          · rw [statuses]
            exact normal
    · refine .of_ignored fun node => ?_
      have unknown :=
        TransparentProxyNet.Session.status_of_not_shortZeros (not_le.mp complete) zeros large node
      rw [react_eq fits]
      apply switch_other
      · intro new
        rw [new] at unknown
        exact absurd unknown (by decide)
      · intro normal
        rw [normal] at unknown
        exact absurd unknown (by decide)

end
end Vps

/-- A session parses a message by the message alone, except for one that is longer than the
node it is given, and for one that is too short for what the code reads of it while the bytes
that are there let it go on: one to three zeros, and on the VPS side, before the connect, also
a `newSession` without its whole address. -/
theorem parses_message_iff (other : Int → Fin 4) :
    (∀ (s : Home.Session) message, 1 ≤ message.length →
      (Home.Parses s message (payload (sizeClass other message.length)) ↔
        message.length ≤ 2048 ∧ ¬ Session.ShortZeros message)) ∧
    (∀ (s : Vps.Session) message, 1 ≤ message.length →
      (Vps.Parses s message (payload (sizeClass other message.length)) ↔
        message.length ≤ 2048 ∧ ¬ Session.ShortZeros message ∧ ¬ Vps.ShortAddress s message)) := by
  have large (i : Fin 4) : statusAndDataSize ≤ payload i :=
    Nat.le_trans (by decide) (payload_bounds i).1
  have fits (message : List UInt8) (full : 1 ≤ message.length) :
      message.length ≤ payload (sizeClass other message.length) ↔ message.length ≤ 2048 := by
    have table := le_payload_iff other (by omega : (1 : Int) ≤ message.length)
    omega
  constructor
  · intro s message full
    rw [Home.parses_iff message (large _), fits message full]
  · intro s message full
    rw [Vps.parses_iff s message (large _), fits message full]

/-- A message of one byte: whether it is queued for the client, with a length of `-3`, is
up to what its node held before. -/
theorem one_byte_parsed_by_node :
    ¬ ∀ (other : Int → Fin 4) (s : Home.Session) message, 1 ≤ message.length →
      Home.Parses s message (payload (sizeClass other message.length)) := by
  intro always
  have parses := always (fun _ => 0) (.create (.replicate 16 0)) [0] (Nat.le_refl 1)
  have large : statusAndDataSize ≤ payload (sizeClass (fun _ => 0) ([0] : List UInt8).length) := by
    decide
  exact ((Home.parses_iff [0] large).mp parses).2 ⟨by decide, by simp⟩

end TransparentProxyNet
