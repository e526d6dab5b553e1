import Mathlib.Data.List.Nodup
import TransparentProxyNet.Udp.SendQueue

/-! Who owns the pool nodes of a worker's datagrams. `kcpCallBack` takes a node as a
`shared_ptr` of its own and puts a copy into the queue, and `pop_front` destroys that copy;
a send has only the address. The deleter gives a node back to the pool when the last owner
is gone. -/
namespace TransparentProxyNet.Udp
open Machine Pump

/-- A datagram, and the address of the node it stands in. -/
structure Shared (α : Type) where
  node : Nat
  datagram : α

/-- `inUse` are the nodes that have not been given back. `accepted` records the datagrams
that came when the queue was not full. -/
structure Sender (α : Type) where
  queue : Queue (Shared α)
  inUse : List Nat
  accepted : List (Shared α)

variable {α : Type}

/-- The nodes that elements of the queue own. -/
def nodes (q : Queue (Shared α)) : List Nat := q.items.map Shared.node

namespace Sender

def idle : Sender α := ⟨.idle, [], []⟩

/-- At the end of a handler only elements of the queue are owners. -/
def release (s : Sender α) : Sender α :=
  { s with inUse := s.inUse.filter fun node => node ∈ nodes s.queue }

/-- `getSharedPtrFunc` takes the node, the datagram is built in it and handed to the queue. -/
def enqueue (s : Sender α) (node : Nat) (datagram : α) : Option (Sender α) := do
  let inUse := node :: s.inUse
  let queue ← tryTosendUdpMessageToRemoteServer s.queue ⟨node, datagram⟩
  let accepted :=
    if s.queue.items.length > 2048 then s.accepted else s.accepted ++ [⟨node, datagram⟩]
  return release ⟨queue, inUse, accepted⟩

def sendHandler (s : Sender α) (i : Nat) (ec : Bool) : Option (Sender α) := do
  let queue ← Udp.sendHandler s.queue i ec
  return release { s with queue }

inductive Event (α : Type) where
  | enqueue (node : Nat) (datagram : α)
  | sent (i : Nat) (ec : Bool)

/-- The pool gives out no node that is in use. -/
inductive Step : Sender α → Event α → Sender α → Prop
  | enqueue {s node datagram s'} : node ∉ s.inUse → s.enqueue node datagram = some s' →
      Step s (.enqueue node datagram) s'
  | sent {s i op ec s'} : s.queue.pending[i]? = some op → s.sendHandler i ec = some s' →
      Step s (.sent i ec) s'

/-- The queue is in order, and the nodes in use are those of its elements, each of which has
its own. -/
structure Holds (s : Sender α) : Prop where
  settled : s.queue.Settled
  accounts : s.queue.Accounts s.accepted
  inUse : ∀ node, node ∈ s.inUse ↔ node ∈ nodes s.queue
  distinct : (nodes s.queue).Nodup

end Sender

/-! ### The queue, whether or not it is pumped -/

theorem settled_enqueue {q : Queue α} (h : q.Settled) (room : ¬ q.items.length > 2048) (pair : α) :
    ∃ q', tryTosendUdpMessageToRemoteServer q pair = some q' ∧ q'.Settled ∧
      q'.items = q.items ++ [pair] ∧ ∀ log, q.Accounts log → q'.Accounts (log ++ [pair]) := by
  rw [tryTosend_eq, if_neg room]
  by_cases stalled : q.pending = [] ∧ q.items ≠ []
  · obtain ⟨still, waiting⟩ := stalled
    refine ⟨q.pushBack pair, ?_, .inl still, rfl, fun log accounts => accounts.pushBack still pair⟩
    simp [Queue.submit, waiting]
  · have running : q.Running := by
      rcases h with still | running
      · have empty : q.items = [] := by
          by_contra waiting
          exact stalled ⟨still, waiting⟩
        simp [Queue.Running, still, empty]
      · exact running
    obtain ⟨q', pushed, running', items, accounts⟩ := running.submit pair none
    exact ⟨q', pushed, .inr running', items, accounts⟩

/-- The handler finds its datagram at the front; after an error nothing is pending. -/
theorem settled_sent {q : Queue α} (h : q.Settled) {i : Nat} {op : Op α}
    (run : q.pending[i]? = some op) (ec : Bool) :
    ∃ q', sendHandler q i ec = some q' ∧ q'.Settled ∧ q.items = op.item :: q'.items ∧
      ∀ log, q.Accounts log → q'.Accounts log := by
  obtain ⟨mid, popped, items, still, accounts⟩ := (h.running run).finish run
  rw [sendHandler_eq, popped]
  cases ec with
  | true => exact ⟨mid, rfl, .inl still, items, accounts⟩
  | false =>
      obtain ⟨q', resumed, running, same, goes⟩ := resume_running still none
      refine ⟨q', resumed, .inr running, same ▸ items, fun log => ?_⟩
      exact goes log ∘ accounts log

namespace Sender
variable {s s' : Sender α}

theorem mem_release {node : Nat} :
    node ∈ s.release.inUse ↔ node ∈ s.inUse ∧ node ∈ nodes s.queue := by
  simp [release]

theorem release_holds (settled : s.queue.Settled) (accounts : s.queue.Accounts s.accepted)
    (covers : ∀ node ∈ nodes s.queue, node ∈ s.inUse) (distinct : (nodes s.queue).Nodup) :
    s.release.Holds where
  settled
  accounts
  inUse node := mem_release.trans ⟨And.right, fun owned => ⟨covers node owned, owned⟩⟩
  distinct

theorem idle_holds : (idle : Sender α).Holds where
  settled := .inl rfl
  accounts := rfl
  inUse node := by simp [idle, nodes, Queue.idle]
  distinct := List.nodup_nil

/-- What becomes of a datagram: it is accepted, or the queue is full and its node goes back
at once. -/
inductive Handed (s : Sender α) (node : Nat) (datagram : α) (s' : Sender α) : Prop
  | accepted : s.queue.items.length ≤ 2048 →
      s'.queue.items = s.queue.items ++ [⟨node, datagram⟩] →
      s'.accepted = s.accepted ++ [⟨node, datagram⟩] → node ∈ s'.inUse → Handed s node datagram s'
  | refused : 2048 < s.queue.items.length → s'.queue = s.queue → s'.accepted = s.accepted →
      node ∉ s'.inUse → Handed s node datagram s'

theorem enqueue_total (h : s.Holds) {node : Nat} (fresh : node ∉ s.inUse) (datagram : α) :
    ∃ s', s.enqueue node datagram = some s' ∧ s'.Holds ∧ Handed s node datagram s' := by
  have unowned : node ∉ nodes s.queue := fun owned => fresh ((h.inUse node).mpr owned)
  by_cases full : s.queue.items.length > 2048
  · have refused : tryTosendUdpMessageToRemoteServer s.queue ⟨node, datagram⟩ = some s.queue := by
      rw [tryTosend_eq, if_pos full]
    refine ⟨release ⟨s.queue, node :: s.inUse, s.accepted⟩, ?_, ?_, .refused full rfl rfl ?_⟩
    · rw [enqueue, refused, if_pos full]
      rfl
    · refine release_holds h.settled h.accounts ?_ h.distinct
      exact fun other owned => List.mem_cons_of_mem node ((h.inUse other).mpr owned)
    · exact fun member => unowned (mem_release.mp member).2
  · obtain ⟨q, pushed, settled, items, accounts⟩ :=
      settled_enqueue h.settled full (⟨node, datagram⟩ : Shared α)
    have owners : nodes q = nodes s.queue ++ [node] := by
      rw [nodes, items, List.map_append]
      rfl
    refine ⟨release ⟨q, node :: s.inUse, s.accepted ++ [⟨node, datagram⟩]⟩, ?_, ?_,
      .accepted (not_lt.mp full) items rfl ?_⟩
    · rw [enqueue, pushed, if_neg full]
      rfl
    · refine release_holds settled (accounts _ h.accounts) ?_ ?_
      · intro other owned
        rw [owners, List.mem_append, List.mem_singleton] at owned
        rcases owned with old | rfl
        · exact List.mem_cons_of_mem node ((h.inUse other).mpr old)
        · exact List.mem_cons_self
      · rw [owners, List.nodup_append]
        refine ⟨h.distinct, List.nodup_singleton node, ?_⟩
        rintro other old _ new rfl
        exact unowned (List.mem_singleton.mp new ▸ old)
    · exact mem_release.mpr ⟨List.mem_cons_self, by simp [owners]⟩

/-- A completion takes the front datagram out of the queue, and its node goes back. -/
theorem sent_total (h : s.Holds) {i : Nat} {op : Op (Shared α)}
    (run : s.queue.pending[i]? = some op) (ec : Bool) :
    ∃ s', s.sendHandler i ec = some s' ∧ s'.Holds ∧ s'.accepted = s.accepted ∧
      s.queue.items = op.item :: s'.queue.items ∧ op.item.node ∉ s'.inUse := by
  obtain ⟨q, handled, settled, items, accounts⟩ := settled_sent h.settled run ec
  have owners : nodes s.queue = op.item.node :: nodes q := by
    rw [nodes, items, List.map_cons]
    rfl
  have distinct := h.distinct
  rw [owners, List.nodup_cons] at distinct
  refine ⟨release { s with queue := q }, ?_, ?_, rfl, items, ?_⟩
  · rw [sendHandler, handled]
    rfl
  · refine release_holds settled (accounts _ h.accounts) ?_ distinct.2
    intro node owned
    exact (h.inUse node).mpr (owners ▸ List.mem_cons_of_mem _ owned)
  · exact fun member => distinct.1 (mem_release.mp member).2

theorem handed_of_step (h : s.Holds) {node : Nat} {datagram : α}
    (step : Step s (.enqueue node datagram) s') : Handed s node datagram s' := by
  cases step with
  | enqueue fresh handed =>
      obtain ⟨t, same, -, outcome⟩ := enqueue_total h fresh datagram
      cases same.symm.trans handed
      exact outcome

theorem holds_step {e : Event α} (h : s.Holds) (step : Step s e s') : s'.Holds := by
  cases step with
  | enqueue fresh handed =>
      obtain ⟨t, same, holds, -⟩ := enqueue_total h fresh _
      cases same.symm.trans handed
      exact holds
  | sent run handled =>
      obtain ⟨t, same, holds, -⟩ := sent_total h run _
      cases same.symm.trans handled
      exact holds

theorem reachable_holds (reachable : Reachable Step (· = idle) s) : s.Holds :=
  reachable.invariant (I := Holds) (fun _ init => init ▸ idle_holds) fun _ _ _ => holds_step

/-- At most one send is outstanding, for the datagram at the front, whose node is in use and
owned by no other element; and the socket has been given, in order, what has been accepted. -/
structure InOrder (s : Sender α) : Prop where
  single : s.queue.pending.length ≤ 1
  front : ∀ op ∈ s.queue.pending, s.queue.items.head? = some op.item
  owned : ∀ op ∈ s.queue.pending, op.item.node ∈ s.inUse
  unshared : (nodes s.queue).Nodup
  submitted : s.queue.started <+: s.accepted
  waiting : s.queue.started ++ s.queue.items.drop s.queue.pending.length = s.accepted

theorem Holds.inOrder (h : s.Holds) : s.InOrder := by
  have front : ∀ op ∈ s.queue.pending, s.queue.items.head? = some op.item := by
    intro op member
    obtain ⟨i, run⟩ := List.getElem?_of_mem member
    obtain ⟨-, -, rest, items⟩ := (h.settled.running run).handler run
    rw [items, List.head?_cons]
  refine ⟨?_, front, ?_, h.distinct, ⟨_, h.accounts⟩, h.accounts⟩
  · rcases h.settled with still | running
    · simp [still]
    · rcases running.pending_eq with ⟨-, pending⟩ | ⟨op, rest, -, pending⟩ <;> simp [pending]
  · intro op member
    exact (h.inUse _).mpr (List.mem_map_of_mem (List.mem_of_mem_head? (front op member)))

/-- A node goes back to the pool only when the send of its datagram completes. -/
theorem holds_until_sent {e : Event α} (h : s.Holds) (step : Step s e s') {node : Nat}
    (held : node ∈ s.inUse) : node ∈ s'.inUse ∨
      ∃ i ec op, e = .sent i ec ∧ s.queue.pending[i]? = some op ∧ op.item.node = node := by
  have owned := (h.inUse node).mp held
  have holds := holds_step h step
  cases step with
  | enqueue fresh handed =>
      obtain ⟨t, same, -, outcome⟩ := enqueue_total h fresh _
      cases same.symm.trans handed
      left
      apply (holds.inUse node).mpr
      cases outcome with
      | accepted _ items _ _ =>
          rw [nodes, items, List.map_append]
          exact List.mem_append_left _ owned
      | refused _ queue _ _ => rwa [queue]
  | @sent i op ec _ run handled =>
      obtain ⟨t, same, -, -, items, -⟩ := sent_total h run ec
      cases same.symm.trans handled
      rw [nodes, items, List.map_cons, List.mem_cons] at owned
      rcases owned with rfl | still
      · exact .inr ⟨i, ec, op, rfl, run, rfl⟩
      · exact .inl ((holds.inUse node).mpr still)

/-! ### The same queue without the nodes -/

def Event.plain : Event α → Udp.Event α
  | .enqueue _ datagram => .enqueue datagram
  | .sent i ec => .sent i ec

/-- A sender runs the queue of its datagrams. -/
theorem step_plain {e : Event α} (step : Step s e s') :
    Udp.Step tryTosendUdpMessageToRemoteServer Udp.sendHandler
      (s.queue.map Shared.datagram) e.plain (s'.queue.map Shared.datagram) := by
  cases step with
  | @enqueue node datagram _ _ handed =>
      simp only [enqueue, Option.bind_eq_bind, Option.bind_eq_some_iff] at handed
      obtain ⟨q, pushed, eq⟩ := handed
      cases eq
      refine .enqueue ?_
      have plain := tryTosend_map Shared.datagram s.queue ⟨node, datagram⟩
      rw [pushed] at plain
      exact plain.symm
  | @sent i op ec _ run handled =>
      simp only [sendHandler, Option.bind_eq_bind, Option.bind_eq_some_iff] at handled
      obtain ⟨q, sent, eq⟩ := handled
      cases eq
      have pending : (s.queue.map Shared.datagram).pending[i]? =
          some ⟨op.item.datagram, op.outcome⟩ := by
        simp [Queue.map, run]
      refine .sent pending ?_
      have plain := sendHandler_map Shared.datagram s.queue i ec
      rw [sent] at plain
      exact plain.symm

/-- What a sender does in a state. Neither handler gets stuck, and a node that is in use
stays so until the send of its datagram completes. -/
structure Sends (s : Sender α) : Prop where
  inOrder : s.InOrder
  enqueues : ∀ node datagram, node ∉ s.inUse →
    ∃ s', Step s (.enqueue node datagram) s' ∧ Handed s node datagram s'
  handed : ∀ node datagram s', Step s (.enqueue node datagram) s' → Handed s node datagram s'
  completes : ∀ i op, s.queue.pending[i]? = some op → ∀ ec, ∃ s', Step s (.sent i ec) s' ∧
    s'.accepted = s.accepted ∧ s.queue.items = op.item :: s'.queue.items ∧
    op.item.node ∉ s'.inUse
  kept : ∀ e s', Step s e s' → ∀ node ∈ s.inUse, node ∈ s'.inUse ∨
    ∃ i ec op, e = .sent i ec ∧ s.queue.pending[i]? = some op ∧ op.item.node = node

theorem Holds.sends (h : s.Holds) : s.Sends := by
  refine ⟨h.inOrder, ?_, fun _ _ _ => handed_of_step h, ?_,
    fun _ _ step _ => holds_until_sent h step⟩
  · intro node datagram fresh
    obtain ⟨s', handed, -, outcome⟩ := enqueue_total h fresh datagram
    exact ⟨s', .enqueue fresh handed, outcome⟩
  · intro i op run ec
    obtain ⟨s', handled, -, rest⟩ := sent_total h run ec
    exact ⟨s', .sent run handled, rest⟩

end Sender

/-- Both workers send what they have accepted, in order and once, from nodes that stay in the
queue until then, and refuse a datagram only when the queue is full. -/
theorem sent_in_order :
    (∀ s : Sender Packet, Reachable Sender.Step (· = .idle) s → s.Sends) ∧
    (∀ s : Sender (Endpoint × Packet), Reachable Sender.Step (· = .idle) s → s.Sends) :=
  ⟨fun _ reachable => (Sender.reachable_holds reachable).sends,
    fun _ reachable => (Sender.reachable_holds reachable).sends⟩

/-- Three datagrams, the first of which has been sent: its node is free again. -/
theorem sent_in_order_three : ∃ s : Sender Packet, s.queue.pending.length = 1 ∧
    s.queue.items.length = 2 ∧ s.inUse = [3, 2] ∧ s.Sends := by
  have run : Trace Sender.Step (Sender.idle : Sender Packet) [.enqueue 1 ⟨[1], 1⟩,
      .enqueue 2 ⟨[2], 1⟩, .enqueue 3 ⟨[3], 1⟩, .sent 0 false] _ :=
    .cons (.enqueue (by decide) rfl) (.cons (.enqueue (by decide) rfl)
      (.cons (.enqueue (by decide) rfl) (.single (.sent rfl rfl))))
  exact ⟨_, rfl, rfl, rfl, sent_in_order.1 _ ⟨_, _, rfl, run⟩⟩

end TransparentProxyNet.Udp
