import Mathlib.Tactic.Abel
import TransparentProxyNet.Worker.Memory
import TransparentProxyNet.Worker.Sessions

/-! The handlers of a session keep count of the nodes of their deque: as many as it has
elements. -/
namespace TransparentProxyNet
open Allocation Machine
open MemoryPool (capacity)

namespace Pointers
variable {o : Pointers} {this k : Nat}

/-- The elements of one deque apart from the other nodes. -/
theorem owned_setTcp (member : this ∈ o.sessions) : ∃ rest : Multiset Node,
    o.owned k = ↑(o.tcpDataWaitForSendDeque this) + rest ∧
      ∀ nodes : List Node, (o.setTcp this nodes).owned k = ↑nodes + rest := by
  refine ⟨⟨o.udpReceiveBuffer, bufferSize⟩ ::ₘ (o.fixed k this +
    ∑ p ∈ o.sessions.erase this, (o.fixed k p + ↑(o.tcpDataWaitForSendDeque p)) +
      ↑o.udpSocketWaitForSendDeque), ?_, fun nodes => ?_⟩
  · rw [owned, ← Finset.add_sum_erase _ _ member]
    simp only [← Multiset.singleton_add]
    abel
  · have others : ∀ p ∈ o.sessions.erase this,
        (o.setTcp this nodes).fixed k p + ↑((o.setTcp this nodes).tcpDataWaitForSendDeque p) =
          o.fixed k p + ↑(o.tcpDataWaitForSendDeque p) := by
      intro p other
      rw [setTcp_other o (Finset.ne_of_mem_erase other)]
      rfl
    rw [owned, ← Finset.add_sum_erase _ _ (show this ∈ (o.setTcp this nodes).sessions from member),
      show (o.setTcp this nodes).sessions = o.sessions from rfl, Finset.sum_congr rfl others,
      setTcp_self]
    simp only [← Multiset.singleton_add, setTcp, fixed]
    abel

theorem owned_setUdp (o : Pointers) (k : Nat) : ∃ rest : Multiset Node,
    o.owned k = ↑o.udpSocketWaitForSendDeque + rest ∧
      ∀ nodes : List Node, (o.setUdp nodes).owned k = ↑nodes + rest := by
  refine ⟨⟨o.udpReceiveBuffer, bufferSize⟩ ::ₘ
    ∑ p ∈ o.sessions, (o.fixed k p + ↑(o.tcpDataWaitForSendDeque p)), ?_, fun nodes => ?_⟩
  · rw [owned]
    simp only [← Multiset.singleton_add]
    abel
  · rw [owned]
    simp only [← Multiset.singleton_add, setUdp, fixed]
    abel

/-- A new session adds its task and its buffer. -/
theorem owned_build (new : this ∉ o.sessions) (buffer : Nat) : (o.build this buffer).owned k =
    ⟨buffer, bufferSize⟩ ::ₘ ⟨this - assistStructSize, k⟩ ::ₘ o.owned k := by
  have others : ∀ p ∈ o.sessions,
      (o.build this buffer).fixed k p + ↑((o.build this buffer).tcpDataWaitForSendDeque p) =
        o.fixed k p + ↑(o.tcpDataWaitForSendDeque p) := by
    intro p old
    have apart : p ≠ this := fun same => new (same ▸ old)
    simp only [build, fixed, Function.update_of_ne apart]
  have own : (o.build this buffer).fixed k this +
      ↑((o.build this buffer).tcpDataWaitForSendDeque this) =
        ({⟨this - assistStructSize, k⟩, ⟨buffer, bufferSize⟩} : Multiset Node) := by
    simp [build, fixed]
  rw [owned, show (o.build this buffer).sessions = insert this o.sessions from rfl,
    Finset.sum_insert new, own, Finset.sum_congr rfl others, owned]
  simp only [← Multiset.singleton_add, Multiset.insert_eq_cons, build]
  abel

theorem mem_owned_fixed (member : this ∈ o.sessions) {node : Node} (own : node ∈ o.fixed k this) :
    node ∈ o.owned k := by
  refine Multiset.mem_cons_of_mem (Multiset.mem_add.mpr (.inl ?_))
  exact Multiset.mem_sum.mpr ⟨this, member, Multiset.mem_add.mpr (.inl own)⟩

theorem mem_owned_task (member : this ∈ o.sessions) : ⟨this - assistStructSize, k⟩ ∈ o.owned k :=
  mem_owned_fixed member (by simp [fixed])

theorem mem_owned_buffer (member : this ∈ o.sessions) :
    ⟨o.socketBuffer this, bufferSize⟩ ∈ o.owned k :=
  mem_owned_fixed member (by simp [fixed])

end Pointers

/-! ### Deques -/

/-- `n` nodes are left in a deque, and nothing else is. -/
def Leaves (n : Nat) (nodes : List Node) (owned : Multiset Node) : Prop :=
  owned = ↑nodes ∧ nodes.length = n

section
variable {other : Int → Fin 4} {nodes : List Node}

theorem capacity_room {size : Nat} (fits : size ≤ bufferSize) : size ≤ capacity other size :=
  MemoryPool.le_payload other fits

theorem frameSize_le (len : Nat) : Worker.frameSize len ≤ len + bufferPaddingSize := by
  simp only [Worker.frameSize, keyAndIvOffSet, sessionIdSize, FastAesGcm.GCM_TAG_SIZE,
    FastAesGcm.PADDINGSIZE, bufferPaddingSize]
  omega

/-- So many bytes are what `kcpCallBack` writes: a frame takes all of them, and whatever EVP
answers, what is behind them in the node stays as it is. -/
theorem frameSize_sealFrame (A : AesGcm) (key : Bytes 32) (iv : Bytes 12) (sessionId : SessionId)
    (buf : List UInt8) : (FastAesGcm.sealFrame A key iv (sessionId.toList ++ buf)).length =
      Worker.frameSize buf.length := by
  rw [FastAesGcm.sealFrame_length, List.length_append, List.Vector.toList_length]
  simp only [Worker.frameSize, keyAndIvOffSet, sessionIdSize, FastAesGcm.GCM_TAG_SIZE,
    FastAesGcm.PADDINGSIZE]
  omega

theorem buildFrame_drop {A : AesGcm} {calls : EncryptCalls} {sessionId : SessionId} {n : Nat}
    {node : Bytes n} {buf : List UInt8} {pair : Packet} (short : buf.length ≤ 1250)
    (built : Worker.buildFrame A calls sessionId node buf = some pair) :
    pair.buffer.drop (Worker.frameSize buf.length) =
      node.toList.drop (Worker.frameSize buf.length) := by
  simp only [Worker.buildFrame, Option.bind_eq_bind, Option.bind_eq_some_iff] at built
  obtain ⟨node₁, write₁, node₂, write₂, ⟨out, len⟩, encrypted, result⟩ := built
  have dataSize : (UInt32.ofNat (buf.length + sessionIdSize)).toNat = buf.length + 16 :=
    UInt32.toNat_ofNat_of_lt' (by simp only [UInt32.size, sessionIdSize]; omega)
  have size : Worker.frameSize buf.length = buf.length + 84 := by
    simp only [Worker.frameSize, keyAndIvOffSet, sessionIdSize, FastAesGcm.GCM_TAG_SIZE,
      FastAesGcm.PADDINGSIZE]
    omega
  rw [size]
  have same₁ := Buffer.write_drop write₁ (k := buf.length + 84)
    (by simp only [List.Vector.toList_length, keyAndIvOffSet]; omega)
  have same₂ := Buffer.write_drop write₂ (k := buf.length + 84)
    (by simp only [keyAndIvOffSet, sessionIdSize]; omega)
  have same₃ := FastAesGcm.doEncrypt_drop A encrypted (k := buf.length + 84) (by omega) (by omega)
  cases len with
  | error text => cases result
  | ok len =>
      cases result
      exact same₃.trans (same₂.trans same₁)

theorem popFront_balanced (other : Int → Fin 4) (nodes : List Node) :
    Balanced (capacity other) (popFrontNodes nodes) ↑nodes (Leaves (nodes.length - 1)) := by
  cases nodes with
  | nil => exact ⟨rfl, rfl⟩
  | cons node nodes => exact ⟨node.size, ↑nodes, rfl, rfl, rfl⟩

theorem clear_balanced (other : Int → Fin 4) (nodes : List Node) :
    Balanced (capacity other) (clearNodes nodes) ↑nodes (Leaves 0) := by
  induction nodes with
  | nil => exact ⟨rfl, rfl⟩
  | cons node nodes ih => exact ⟨node.size, ↑nodes, rfl, ih⟩

theorem Session.closeSession_items (s : Session) :
    s.closeSession.tcpDataWaitForSendDeque.items = s.tcpDataWaitForSendDeque.items := by
  rw [closeSession_deque]
  split <;> rfl

theorem Home.writeHandler_balanced {s t : Session} {i : Nat} {ec : Bool}
    (handled : writeHandler s i ec = some t)
    (length : nodes.length = s.tcpDataWaitForSendDeque.items.length) :
    Balanced (capacity other) (writeHandlerNodes s ec nodes) ↑nodes
      (Leaves t.tcpDataWaitForSendDeque.items.length) := by
  rw [writeHandler_eq] at handled
  obtain ⟨q, popped, rest⟩ := Option.bind_eq_some_iff.mp handled
  have items : t.tcpDataWaitForSendDeque.items =
      if s.sessionClose then [] else s.tcpDataWaitForSendDeque.items.tail := by
    have front := Pump.Queue.popFront_items popped
    change q.items = s.tcpDataWaitForSendDeque.items.tail at front
    rw [← front]
    cases ec with
    | true =>
        cases rest
        rw [Session.closeSession_items]
        cases s.sessionClose <;> rfl
    | false =>
        obtain ⟨q', resumed, rfl⟩ := Option.map_eq_some_iff.mp rest
        rw [Session.setDeque_deque, Pump.Queue.resume_items resumed]
        cases s.sessionClose <;> rfl
  rw [items]
  refine (popFront_balanced other nodes).bind ?_
  rintro left _ ⟨rfl, popped⟩
  cases s.sessionClose with
  | true => exact clear_balanced other left
  | false =>
      refine ⟨rfl, ?_⟩
      rw [popped, length, if_neg Bool.false_ne_true, List.length_tail]

theorem Vps.writeHandler_balanced {s t : Session} {i : Nat} {ec : Bool}
    (handled : writeHandler s i ec = some t)
    (length : nodes.length = s.tcpDataWaitForSendDeque.items.length) :
    Balanced (capacity other) (writeHandlerNodes s ec nodes) ↑nodes
      (Leaves t.tcpDataWaitForSendDeque.items.length) := by
  obtain ⟨q, cleared⟩ : ∃ q, q = if s.sessionClose then
    (s.tcpDataWaitForSendDeque.retire i).clear else s.tcpDataWaitForSendDeque.retire i := ⟨_, rfl⟩
  have first : Balanced (capacity other)
      (if s.sessionClose then clearNodes nodes else .done nodes) ↑nodes (Leaves q.items.length) := by
    rw [cleared]
    cases s.sessionClose with
    | true => exact clear_balanced other nodes
    | false => exact ⟨rfl, length⟩
  rw [writeHandler_eq, ← cleared] at handled
  refine first.bind ?_
  rintro left _ ⟨rfl, left_length⟩
  cases ec with
  | true =>
      cases handled
      refine ⟨rfl, ?_⟩
      change left.length = (Session.closeSession _).tcpDataWaitForSendDeque.items.length
      rw [TransparentProxyNet.Session.closeSession_items]
      exact left_length
  | false =>
      obtain ⟨q', popped, rest⟩ := Option.bind_eq_some_iff.mp handled
      obtain ⟨q'', resumed, rfl⟩ := Option.map_eq_some_iff.mp rest
      have items : q''.items = q.items.tail :=
        (Pump.Queue.resume_items resumed).trans (Pump.Queue.popFront_items popped)
      refine (popFront_balanced other left).mono ?_
      rintro left' owned ⟨own, popped_length⟩
      refine ⟨own, ?_⟩
      change left'.length = q''.items.length
      rw [popped_length, left_length, items, List.length_tail]

end

/-! ### The loop that reads from KCP -/

section
variable {S : Type} [Served S] {other : Int → Fin 4} {recv : S → Nat → S}
  {switch : S → Packet → Option S} {old : Nat → List UInt8}

/-- What the two loops do with the deque and with the calls. -/
structure Reads (recv : S → Nat → S) (switch : S → Packet → Option S) : Prop where
  received : ∀ s size,
    (base (recv s size)).tcpDataWaitForSendDeque = (base s).tcpDataWaitForSendDeque
  asked : ∀ s size, (base (recv s size)).calls = (base s).calls ++ [.getSharedPtrFunc size]
  quiet : ∀ s pair t, switch s pair = some t → (base t).calls = (base s).calls
  pushes : ∀ s pair t, switch s pair = some t →
    (base t).tcpDataWaitForSendDeque.items.length =
      (base s).tcpDataWaitForSendDeque.items.length +
        if Session.status pair.buffer = CmdStatus.normal.code then 1 else 0

theorem Reads.calls (reads : Reads recv switch) {queue : List (List UInt8)} {s t : S}
    (read : Session.readLoop recv switch old queue s = some t) : (base s).calls ⊆ (base t).calls := by
  induction queue generalizing s with
  | nil =>
      cases read
      exact List.Subset.refl _
  | cons message queue ih =>
      simp only [Session.readLoop] at read
      split at read
      · cases read
        exact List.Subset.refl _
      · obtain ⟨u, switched, rest⟩ := Option.bind_eq_some_iff.mp read
        refine List.Subset.trans ?_ (ih rest)
        rw [reads.quiet _ _ _ switched, reads.asked]
        exact List.subset_append_left ..

/-- One node for each message of the loop, as long as no message is longer than a node. -/
theorem Reads.balanced (reads : Reads recv switch) {queue : List (List UInt8)} {s t : S}
    {nodes : List Node} (read : Session.readLoop recv switch old queue s = some t)
    (fits : ∀ size, .getSharedPtrFunc size ∈ (base t).calls → size ≤ bufferSize)
    (length : nodes.length = (base s).tcpDataWaitForSendDeque.items.length) :
    Balanced (capacity other) (Session.readNodes old queue nodes) ↑nodes
      (Leaves (base t).tcpDataWaitForSendDeque.items.length) := by
  induction queue generalizing s nodes with
  | nil =>
      cases read
      exact ⟨rfl, length⟩
  | cons message queue ih =>
      simp only [Session.readLoop] at read
      simp only [Session.readNodes]
      split at read
      · rename_i empty
        cases read
        rw [if_pos empty]
        exact ⟨rfl, length⟩
      · rename_i filled
        obtain ⟨u, switched, rest⟩ := Option.bind_eq_some_iff.mp read
        have asked : Call.getSharedPtrFunc message.length ∈ (base u).calls := by
          rw [reads.quiet _ _ _ switched, reads.asked]
          exact List.mem_append_right _ (List.mem_singleton_self _)
        have room := fits _ (reads.calls rest asked)
        have pushed := reads.pushes _ _ _ switched
        rw [reads.received, ← length] at pushed
        rw [Session.status_inNode] at pushed
        rw [if_neg filled]
        refine fun p _ => ⟨message.length, Multiset.mem_cons_self _ _, capacity_room room, ?_⟩
        split
        · rename_i normal
          rw [if_pos normal] at pushed
          have longer : (nodes ++ [Node.mk p message.length]).length =
              (base u).tcpDataWaitForSendDeque.items.length := by
            rw [List.length_append, pushed]
            rfl
          have more := ih rest longer
          rwa [← Multiset.coe_add, Multiset.coe_singleton, add_comm,
            Multiset.singleton_add] at more
        · rename_i other
          rw [if_neg other] at pushed
          exact ⟨message.length, ↑nodes, rfl, ih rest pushed.symm⟩

end

theorem Session.resumeTraffic_calls (s : Session) : s.resumeTraffic.calls = s.calls := by
  unfold resumeTraffic
  split <;> rfl

namespace Home

theorem reads : Reads (S := Session) Session.ikcpRecv switchStatus := by
  refine ⟨fun _ _ => rfl, fun _ _ => rfl, fun s pair t switched => ?_, fun s pair t switched => ?_⟩
  all_goals
    unfold switchStatus at switched
    split at switched
  · obtain ⟨q, -, rfl⟩ := Option.map_eq_some_iff.mp ((s.push_eq pair).symm.trans switched)
    rfl
  · cases switched
    rfl
  · obtain ⟨q, pushed, rfl⟩ := Option.map_eq_some_iff.mp ((s.push_eq pair).symm.trans switched)
    rw [if_pos ‹_›]
    change q.items.length = _
    rw [Pump.Queue.submit_items pushed, List.length_append]
    rfl
  · cases switched
    rw [if_neg ‹_›]
    rfl

theorem inputToKcp_balanced {other : Int → Fin 4} {nodes : List Node} {s t : Session} {len : Int}
    {input : KcpInput} {old : Nat → List UInt8} (handled : inputToKcp s len input old = some t)
    (fits : ∀ size, .getSharedPtrFunc size ∈ t.calls → size ≤ bufferSize)
    (length : nodes.length = s.tcpDataWaitForSendDeque.items.length) :
    Balanced (capacity other) (Session.inputToKcpNodes s len input old nodes) ↑nodes
      (Leaves t.tcpDataWaitForSendDeque.items.length) := by
  unfold inputToKcp at handled
  unfold Session.inputToKcpNodes
  split at handled
  · cases handled
    rw [if_pos ‹_›]
    exact ⟨rfl, length⟩
  · obtain ⟨u, read, rfl⟩ := Option.map_eq_some_iff.mp handled
    rw [Session.resumeTraffic_calls] at fits
    rw [if_neg ‹_›, Session.resumeTraffic_deque]
    exact reads.balanced read fits length

/-- The other handlers of a session leave its deque as it is. -/
theorem handle_items {s t : Session} {e : Session.Event} (handled : handle s e = some t)
    (socket : Worker.onSocket e) (other : ∀ i ec, e ≠ .writeHandler i ec) :
    t.tcpDataWaitForSendDeque.items.length = s.tcpDataWaitForSendDeque.items.length := by
  cases e with
  | readDone i result =>
      cases handled
      rfl
  | readHandler i result =>
      cases handled
      rcases Session.receiveHandler_cases s i result with closed | ⟨deque, -⟩
      · rw [closed, Session.closeSession_items]
      · rw [deque]
  | writeDone i ok =>
      cases handled
      rfl
  | writeHandler i ec => exact absurd rfl (other i ec)
  | connectDone i ok =>
      cases handled
      rfl
  | connectHandler i ec =>
      cases handled
      rfl
  | inputToKcp len input old => cases socket
  | closeSession => cases socket

end Home

namespace Vps

theorem reads : Reads ikcpRecv switchStatus := by
  refine ⟨fun _ _ => rfl, fun _ _ => rfl, fun s pair t switched => ?_, fun s pair t switched => ?_⟩
  all_goals
    unfold switchStatus at switched
    split at switched
  · split at switched
    · cases switched
      rfl
    · cases switched
      rfl
  · split at switched
    · rw [trySend_eq] at switched
      split at switched
      · obtain ⟨q, -, rfl⟩ := Option.map_eq_some_iff.mp switched
        rfl
      · cases switched
        rfl
    · cases switched
      rfl
  · rename_i opening
    have other : TransparentProxyNet.Session.status pair.buffer ≠ CmdStatus.normal.code := by
      rw [opening]
      decide
    rw [if_neg other]
    split at switched
    · cases switched
      rfl
    · cases switched
      rfl
  · split at switched
    · rename_i normal
      rw [if_pos normal]
      rw [trySend_eq] at switched
      split at switched
      · obtain ⟨q, pushed, rfl⟩ := Option.map_eq_some_iff.mp switched
        change q.items.length = _
        rw [Pump.Queue.submit_items pushed, List.length_append]
        rfl
      · cases switched
        exact List.length_append
    · cases switched
      rw [if_neg ‹_›]
      rfl

theorem inputToKcp_balanced {other : Int → Fin 4} {nodes : List Node} {s t : Session} {len : Int}
    {input : KcpInput} {old : Nat → List UInt8} (handled : inputToKcp s len input old = some t)
    (fits : ∀ size, .getSharedPtrFunc size ∈ t.calls → size ≤ bufferSize)
    (length : nodes.length = s.tcpDataWaitForSendDeque.items.length) :
    Balanced (capacity other) (s.toSession.inputToKcpNodes len input old nodes) ↑nodes
      (Leaves t.tcpDataWaitForSendDeque.items.length) := by
  unfold inputToKcp at handled
  unfold TransparentProxyNet.Session.inputToKcpNodes
  split at handled
  · cases handled
    rw [if_pos ‹_›]
    exact ⟨rfl, length⟩
  · obtain ⟨u, read, rfl⟩ := Option.map_eq_some_iff.mp handled
    have asked : u.toSession.resumeTraffic.calls = u.calls := u.toSession.resumeTraffic_calls
    rw [if_neg ‹_›]
    change Balanced _ _ _ (Leaves u.toSession.resumeTraffic.tcpDataWaitForSendDeque.items.length)
    rw [TransparentProxyNet.Session.resumeTraffic_deque]
    exact reads.balanced read (fun size member => fits size (asked ▸ member)) length

theorem handle_items {s t : Session} {e : TransparentProxyNet.Session.Event}
    (handled : handle s e = some t) (socket : Worker.onSocket e)
    (other : ∀ i ec, e ≠ .writeHandler i ec) :
    t.tcpDataWaitForSendDeque.items.length = s.tcpDataWaitForSendDeque.items.length := by
  cases e with
  | readDone i result =>
      cases handled
      rfl
  | readHandler i result =>
      cases handled
      change (s.toSession.receiveHandler i result).tcpDataWaitForSendDeque.items.length = _
      rcases s.toSession.receiveHandler_cases i result with closed | ⟨deque, -⟩
      · rw [closed, TransparentProxyNet.Session.closeSession_items]
      · rw [deque]
  | writeDone i ok =>
      cases handled
      rfl
  | writeHandler i ec => exact absurd rfl (other i ec)
  | connectDone i ok =>
      cases handled
      rfl
  | connectHandler i ec =>
      cases ec with
      | true =>
          cases handled
          rfl
      | false =>
          rw [handle, connectHandler_eq] at handled
          obtain ⟨q, resumed, rfl⟩ := Option.map_eq_some_iff.mp handled
          exact congrArg List.length (Pump.Queue.resume_items resumed)
  | inputToKcp len input old => cases socket
  | closeSession => cases socket

end Vps
end TransparentProxyNet
