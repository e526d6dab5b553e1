import TransparentProxyNet.Worker.Nodes

/-! A worker keeps the contract of its memory pool. What its pointers lead to is what the
pool has given out and not got back, from one handler to the next. -/
namespace TransparentProxyNet
open Allocation Machine
open MemoryPool (capacity)

def Request.memorySize (structTaskSize : Nat) : Request → Nat
  | .structTask => structTaskSize
  | .buffer memorySize => memorySize

namespace Worker
variable {S α : Type} [Served S]

/-- The worker has never asked for more than the largest node has room for. -/
def Fits (structTaskSize : Nat) (w : Worker S α) : Prop :=
  ∀ request ∈ w.requests, request.memorySize structTaskSize ≤ bufferSize

/-- The pointers are those of the worker's fields: a session for each task, and a node for
each element of a deque. -/
structure Linked (w : Worker S α) (o : Pointers) : Prop where
  sessions : ∀ this, this ∈ o.sessions ↔ ∃ s, w.sessions this = some s
  tasks : ∀ this ∈ o.sessions, assistStructSize ≤ this
  tcp : ∀ this s, w.sessions this = some s →
    (o.tcpDataWaitForSendDeque this).length = (base s).tcpDataWaitForSendDeque.items.length
  udp : o.udpSocketWaitForSendDeque.length = w.udpSocketWaitForSendDeque.items.length

/-- What is true after a handler: the ledger is that of the pointers. -/
def Kept (structTaskSize : Nat) (w : Worker S α) (o : Pointers) (owned : Multiset Node) : Prop :=
  owned = o.owned structTaskSize ∧ w.Linked o

section
variable {w w' : Worker S α} {o : Pointers} {this k : Nat} {s t : S} {other : Int → Fin 4}

theorem Linked.member (linked : w.Linked o) (found : w.sessions this = some s) :
    this ∈ o.sessions := (linked.sessions this).mpr ⟨s, found⟩

theorem Linked.of_same (linked : w.Linked o) (sessions : w'.sessions = w.sessions)
    (udp : w'.udpSocketWaitForSendDeque = w.udpSocketWaitForSendDeque) : w'.Linked o := by
  refine ⟨?_, linked.tasks, ?_, ?_⟩
  · rw [sessions]
    exact linked.sessions
  · rw [sessions]
    exact linked.tcp
  · rw [udp]
    exact linked.udp

theorem Linked.settle (linked : w.Linked o) (found : w.sessions this = some s)
    {timeWheel : TimeWheel Nat} {nodes : List Node}
    (length : nodes.length = (base t).tcpDataWaitForSendDeque.items.length) :
    (w.settle this t timeWheel).Linked (o.setTcp this nodes) := by
  refine ⟨?_, linked.tasks, ?_, linked.udp⟩
  · intro p
    by_cases here : p = this
    · subst here
      exact iff_of_true (linked.member found) ⟨_, settle_self⟩
    · rw [settle_other here]
      exact linked.sessions p
  · intro p u found'
    by_cases here : p = this
    · subst here
      cases settle_self.symm.trans found'
      rw [o.setTcp_self, length, base_lift]
    · rw [settle_other here] at found'
      rw [o.setTcp_other here]
      exact linked.tcp p u found'

/-- A handler that leaves the deque as it is. -/
theorem Linked.settle_same (linked : w.Linked o) (found : w.sessions this = some s)
    {timeWheel : TimeWheel Nat} (length : (base t).tcpDataWaitForSendDeque.items.length =
      (base s).tcpDataWaitForSendDeque.items.length) : (w.settle this t timeWheel).Linked o := by
  rw [← o.setTcp_same this]
  exact linked.settle found ((linked.tcp this s found).trans length.symm)

/-- A function that runs for a session, and what it does with the nodes of its deque. -/
theorem Linked.run (linked : w.Linked o) {f : S → Option S} (ran : w.run this f = some w')
    (fits : w'.Fits k) {g : S → List Node → Script (List Node)}
    (balanced : ∀ s t nodes, f s = some t →
      (∀ size, .getSharedPtrFunc size ∈ (base t).calls → size ≤ bufferSize) →
      nodes.length = (base s).tcpDataWaitForSendDeque.items.length →
      Balanced (capacity other) (g s nodes) ↑nodes
        (Leaves (base t).tcpDataWaitForSendDeque.items.length)) :
    Balanced (capacity other) (w.runNodes this g o) (o.owned k) (Kept k w') := by
  obtain ⟨s, t, timeWheel, found, handled, -, rfl⟩ := run_cases ran
  have small : ∀ size, .getSharedPtrFunc size ∈ (base t).calls → size ≤ bufferSize := by
    intro size member
    exact fits (.buffer size)
      (List.mem_append_right _ (List.mem_filterMap.mpr ⟨_, member, rfl⟩))
  obtain ⟨rest, split, after⟩ := Pointers.owned_setTcp (k := k) (linked.member found)
  have own := balanced s t _ handled small (linked.tcp this s found)
  rw [runNodes, found, split]
  refine (own.frame rest).map ?_
  rintro nodes owned ⟨left, rfl, rfl, length⟩
  exact ⟨(after nodes).symm, linked.settle found length⟩

variable {A : AesGcm} {handle : S → Session.Event → Option S} {addressed : S → Packet → α}

theorem Linked.setUdp (linked : w.Linked o) {q : Pump.Queue α} {requests : List Request}
    {nodes : List Node} (length : nodes.length = q.items.length) :
    Linked { w with udpSocketWaitForSendDeque := q, requests } (o.setUdp nodes) :=
  ⟨linked.sessions, linked.tasks, linked.tcp, length⟩

/-- The segment's node goes into the deque, or back to the pool. -/
theorem Linked.kcpCallBack (linked : w.Linked o) {calls : EncryptCalls} {n : Nat}
    {node : Bytes n} {buf : List UInt8}
    (called : w.kcpCallBack A addressed calls this node buf = some w') (fits : w'.Fits k) :
    Balanced (capacity other) ((kcpCallBackNodes buf.length o.udpSocketWaitForSendDeque).map
      o.setUdp) (o.owned k) (Kept k w') := by
  simp only [Worker.kcpCallBack, Option.bind_eq_bind, Option.bind_eq_some_iff] at called
  obtain ⟨s, -, pair, -, q, queued, eq⟩ := called
  cases eq
  have small : buf.length + bufferPaddingSize ≤ bufferSize :=
    fits (.buffer _) (List.mem_append_right _ (List.mem_singleton_self _))
  have room : frameSize buf.length ≤ capacity other (buf.length + bufferPaddingSize) :=
    Nat.le_trans (frameSize_le buf.length) (capacity_room small)
  obtain ⟨rest, split, after⟩ := o.owned_setUdp k
  rw [split]
  rw [Udp.tryTosend_eq] at queued
  refine Balanced.map (Q := fun (nodes : List Node) (owned : Multiset Node) =>
    owned = ↑nodes + rest ∧ nodes.length = q.items.length) ?_ ?_
  · refine fun p _ => ⟨_, Multiset.mem_cons_self _ _, room, ?_⟩
    rw [linked.udp]
    split
    · rw [if_pos ‹_›] at queued
      cases queued
      exact ⟨_, _, rfl, rfl, linked.udp⟩
    · rw [if_neg ‹_›] at queued
      refine ⟨?_, ?_⟩
      · rw [← Multiset.coe_add, Multiset.coe_singleton, ← Multiset.singleton_add]
        abel
      · rw [Pump.Queue.submit_items queued, List.length_append, List.length_append, linked.udp]
        rfl
  · rintro nodes owned ⟨rfl, length⟩
    exact ⟨(after nodes).symm, linked.setUdp length⟩

theorem Linked.sent (linked : w.Linked o) {q : Pump.Queue α} {i : Nat} {ec : Bool}
    (handled : Udp.sendHandler w.udpSocketWaitForSendDeque i ec = some q) :
    Balanced (capacity other) ((popFrontNodes o.udpSocketWaitForSendDeque).map o.setUdp)
      (o.owned k) (Kept k { w with udpSocketWaitForSendDeque := q }) := by
  rw [Udp.sendHandler_eq] at handled
  obtain ⟨q', popped, rest⟩ := Option.bind_eq_some_iff.mp handled
  have items : q.items = w.udpSocketWaitForSendDeque.items.tail := by
    have front := Pump.Queue.popFront_items popped
    cases ec with
    | true =>
        cases rest
        exact front
    | false => exact (Pump.Queue.resume_items rest).trans front
  obtain ⟨others, split, after⟩ := o.owned_setUdp k
  rw [split]
  refine ((popFront_balanced other o.udpSocketWaitForSendDeque).frame others).map ?_
  rintro nodes owned ⟨left, rfl, rfl, length⟩
  refine ⟨(after nodes).symm, linked.setUdp ?_⟩
  rw [length, linked.udp, items, List.length_tail]

/-- The step lemma, for the steps that both programs have. -/
theorem Linked.common {e : Event} {writeHandlerNodes : S → Bool → List Node → Script (List Node)}
    (linked : w.Linked o) (step : CommonStep A other handle addressed w e w') (fits : w'.Fits k)
    (items : ∀ s e t, handle s e = some t → onSocket e → (∀ i ec, e ≠ .writeHandler i ec) →
      (base t).tcpDataWaitForSendDeque.items.length =
        (base s).tcpDataWaitForSendDeque.items.length)
    (writes : ∀ s t i ec nodes, handle s (.writeHandler i ec) = some t →
      nodes.length = (base s).tcpDataWaitForSendDeque.items.length →
        Balanced (capacity other) (writeHandlerNodes s ec nodes) ↑nodes
          (Leaves (base t).tcpDataWaitForSendDeque.items.length)) :
    Balanced (capacity other) (w.commonNodes writeHandlerNodes o e) (o.owned k) (Kept k w') := by
  cases step with
  | @session this s e _ socket found enabled ran =>
      have same (other : ∀ i ec, e ≠ .writeHandler i ec) : w'.Linked o := by
        obtain ⟨s', t, timeWheel, found', handled, -, rfl⟩ := run_cases ran
        cases found.symm.trans found'
        exact linked.settle_same found (items s e t handled socket other)
      cases e with
      | readDone i result =>
          have small : cmdStatusSize + result.length ≤ bufferSize := by
            have bound : result.length ≤ bufferSize - cmdStatusSize := enabled.2
            simp only [bufferSize, cmdStatusSize] at *
            omega
          exact ⟨bufferSize, Pointers.mem_owned_buffer (linked.member found),
            small.trans (capacity_room (Nat.le_refl _)), rfl, same (by simp)⟩
      | writeHandler i ec =>
          exact linked.run ran fits fun s t nodes handled _ length => writes s t i ec nodes handled
            length
      | readHandler i result => exact ⟨rfl, same (by simp)⟩
      | writeDone i ok => exact ⟨rfl, same (by simp)⟩
      | connectDone i ok => exact ⟨rfl, same (by simp)⟩
      | connectHandler i ec => exact ⟨rfl, same (by simp)⟩
      | inputToKcp len input old => cases socket
      | closeSession => cases socket
  | kcpCallBack node called => exact linked.kcpCallBack called fits
  | sent _ handled => exact linked.sent handled
  | doCurrentTimeWheel tick => exact ⟨rfl, linked.of_same rfl rfl⟩

/-! ### Building a session -/

/-- The pool gives no task that is in use. -/
theorem build_balanced (small : k ≤ bufferSize) :
    Balanced (capacity other) (buildNodes k o) (o.owned k) fun r owned =>
      r.1 ∉ o.sessions ∧ assistStructSize ≤ r.1 ∧ ∃ buffer, r.2 = o.build r.1 buffer ∧
        owned = r.2.owned k := by
  refine fun p fresh => ⟨k, Multiset.mem_cons_self _ _, capacity_room small, fun buffer _ => ?_⟩
  have new : p + assistStructSize ∉ o.sessions := by
    intro member
    apply fresh _ (Pointers.mem_owned_task member)
    exact Nat.add_sub_cancel ..
  refine ⟨new, Nat.le_add_left .., buffer, rfl, ?_⟩
  rw [Pointers.owned_build new, Nat.add_sub_cancel]

theorem Linked.build (linked : w.Linked o) (new : this ∉ o.sessions)
    (behind : assistStructSize ≤ this) (buffer : Nat)
    (sessions : w'.sessions = Function.update w.sessions this (some s))
    (empty : (base s).tcpDataWaitForSendDeque.items = [])
    (udp : w'.udpSocketWaitForSendDeque = w.udpSocketWaitForSendDeque) :
    w'.Linked (o.build this buffer) := by
  refine ⟨?_, ?_, ?_, udp ▸ linked.udp⟩
  · intro p
    rw [sessions]
    by_cases here : p = this
    · subst here
      rw [Function.update_self]
      exact iff_of_true (Finset.mem_insert_self ..) ⟨s, rfl⟩
    · rw [Function.update_of_ne here, ← linked.sessions p]
      exact Finset.mem_insert.trans (or_iff_right here)
  · intro p member
    rcases Finset.mem_insert.mp member with rfl | old
    · exact behind
    · exact linked.tasks p old
  · intro p t found
    rw [sessions] at found
    by_cases here : p = this
    · subst here
      rw [Function.update_self] at found
      cases found
      rw [empty, o.build_tcp_self]
      rfl
    · rw [Function.update_of_ne here] at found
      rw [o.build_tcp_other here]
      exact linked.tcp p t found

/-- What is left of the registration of a session is that it has been started. -/
theorem register_cases {f : S → Option S} {sessionId : SessionId}
    (registering : ((w.construct this s).emplace sessionId this).run this f = some w') :
    ∃ t timeWheel, f s = some t ∧
      w' = ((w.construct this s).emplace sessionId this).settle this t timeWheel := by
  obtain ⟨u, t, timeWheel, found, started, -, rfl⟩ := run_cases registering
  have own : ((w.construct this s).emplace sessionId this).sessions this = some s :=
    Function.update_self ..
  cases own.symm.trans found
  exact ⟨t, timeWheel, started, rfl⟩

/-- What the script of a handler ends with. If the task of a new session is the one that the
pool has given, then the handler is a step of the worker; and with that task there is one. -/
def Follows (k : Nat) (Step : Worker S α → Event → Worker S α → Prop) (Handles : Handling S α)
    (calls : ReceiveCalls) (built : Option Nat) (w : Worker S α) (e : Event) (w' : Worker S α)
    (r : Option Nat × Pointers) (owned : Multiset Node) : Prop :=
  (r.1 = built → Step w e w' ∧ Kept k w' r.2 owned) ∧
    ∃ e' v, e.Alike e' ∧ Handles calls r.1 w e' v ∧ v.requests = w'.requests

theorem Event.Alike.refl (e : Event) : e.Alike e := by
  cases e <;> rfl

theorem Linked.unused (linked : w.Linked o) (new : this ∉ o.sessions) :
    w.sessions this = none := by
  by_contra used
  obtain ⟨s, found⟩ := Option.ne_none_iff_exists'.mp used
  exact new (linked.member found)

end
end Worker

namespace Home

variable {A : AesGcm} {other : Int → Fin 4} {calls : Worker.ReceiveCalls} {w w' : Worker}
  {o : Pointers} {k : Nat}

theorem deliver_balanced {segment : Worker.Segment} (linked : w.Linked o)
    (delivered : deliver calls w segment.sessionId segment.len segment.data = some w')
    (fits : w'.Fits k) : Balanced (capacity other) (deliverNodes calls w o segment) (o.owned k)
      fun r owned => r.1 = none ∧ Worker.Kept k w' r.2 owned := by
  unfold deliver at delivered
  split at delivered
  · rename_i this found
    simp only [deliverNodes, found]
    refine (linked.run delivered fits ?_).map fun o owned kept => ⟨rfl, kept⟩
    exact fun s t nodes handled small length => inputToKcp_balanced handled small length
  · rename_i unknown
    cases delivered
    simp only [deliverNodes, unknown]
    exact ⟨rfl, rfl, linked⟩

theorem register_requests {this : Nat} {randomId sessionId : SessionId} {nextTime : UInt32}
    {endpoint : Endpoint} (registering : registerSession (w.construct this (.create sessionId))
      randomId this nextTime endpoint = some w') :
    w'.requests = w.requests ++ [.structTask, .buffer bufferSize] ∧
      w'.udpSocketWaitForSendDeque = w.udpSocketWaitForSendDeque := by
  obtain ⟨t, timeWheel, started, rfl⟩ := Worker.register_cases registering
  cases started
  refine ⟨?_, rfl⟩
  change ((w.requests ++ [.structTask]) ++ [.buffer bufferSize]) ++ [] = _
  rw [List.append_nil, List.append_assoc]
  rfl

/-- The step lemma: a handler keeps the ledger, and finds the task of a new session unused. -/
theorem nodes_balanced {built : Option Nat} {e : Worker.Event} (h : w.Holds) (linked : w.Linked o)
    (handles : Handles A other calls built w e w') (fits : w'.Fits k) :
    Balanced (capacity other) (nodes A k calls w o e) (o.owned k)
      (Worker.Follows k (Step A other) (Handles A other) calls built w e w') := by
  cases handles with
  | common step =>
      have alike : nodes A k calls w o e =
          (w.commonNodes writeHandlerNodes o e).map fun o => (none, o) := by cases step <;> rfl
      rw [alike]
      refine (linked.common step fits (fun _ _ _ => handle_items) fun _ _ _ _ _ =>
        writeHandler_balanced).map ?_
      exact fun o owned kept => ⟨fun _ => ⟨.common step, kept⟩, e, w', .refl e, .common step, rfl⟩
  | @receive _ v _ datagram outstanding arrived received =>
      have step : Step A other w (.receive false datagram) w' :=
        .receive outstanding arrived received
      have handles : Handles A other calls none w (.receive false datagram) w' :=
        .receive outstanding arrived received
      obtain ⟨buf, -, rfl⟩ := Option.map_eq_some_iff.mp arrived
      rw [receiveHandler, if_neg Bool.false_ne_true, Worker.decode_eq] at received
      obtain ⟨⟨buf', segment⟩, found, done⟩ := Option.bind_eq_some_iff.mp received
      obtain ⟨u, delivered, rfl⟩ := Option.map_eq_some_iff.mp done
      have linked' : (Worker.setBuffer { w.setBuffer buf with receives := w.receives - 1 }
          buf').Linked o := linked.of_same rfl rfl
      simp only [nodes, arrived, Worker.receiveNodes, found]
      refine ⟨bufferSize, Multiset.mem_cons_self _ _, capacity_room (Nat.le_refl _), ?_⟩
      refine (deliver_balanced linked' delivered fits).mono ?_
      rintro ⟨built, o'⟩ owned ⟨rfl, eq, kept⟩
      exact ⟨fun _ => ⟨step, eq, kept.of_same rfl rfl⟩, _, _, .refl _, handles, rfl⟩
  | receiveError outstanding received =>
      have step : Step A other w (.receive true []) w' := .receiveError outstanding received
      have handles : Handles A other calls none w (.receive true []) w' :=
        .receiveError outstanding received
      cases received
      exact ⟨fun _ => ⟨step, rfl, linked.of_same rfl rfl⟩, _, _, .refl _, handles, rfl⟩
  | @registerSession _ this randomId sessionId nextTime endpoint _ unknown registering =>
      obtain ⟨requests, udp⟩ := register_requests registering
      have small : k ≤ bufferSize := by
        apply fits .structTask
        rw [requests]
        exact List.mem_append_right _ List.mem_cons_self
      refine (Worker.build_balanced small).map ?_
      rintro ⟨p, o'⟩ owned ⟨new, behind, buffer, built, eq⟩
      dsimp only at built
      subst built
      have unused := linked.unused new
      obtain ⟨v, registered, -, sessions, -⟩ :=
        registerSession_eq h unused unknown sessionId nextTime endpoint
      refine ⟨?_, .registerSession p randomId, v, rfl, .registerSession unknown registered, ?_⟩
      · intro same
        cases same
        cases registered.symm.trans registering
        exact ⟨.registerSession unused unknown registering, eq,
          linked.build new behind buffer sessions rfl udp⟩
      · rw [requests, (register_requests registered).1]

theorem handles_of_step {e : Worker.Event} (step : Step A other w e w') :
    ∃ calls built, Handles A other calls built w e w' := by
  have quiet : Worker.ReceiveCalls := ⟨.success, fun _ => ⟨0, []⟩, fun _ => []⟩
  cases step with
  | common step => exact ⟨quiet, none, .common step⟩
  | receive outstanding arrived received => exact ⟨_, none, .receive outstanding arrived received⟩
  | receiveError outstanding received => exact ⟨_, none, .receiveError outstanding received⟩
  | registerSession _ unknown registering =>
      exact ⟨quiet, _, .registerSession unknown registering⟩

theorem nodes_alike {e e' : Worker.Event} (alike : e.Alike e') :
    nodes A k calls w o e' = nodes A k calls w o e := by
  cases e with
  | registerSession this randomId =>
      cases e' with
      | registerSession this' randomId' => rfl
      | _ => cases alike
  | _ =>
      cases alike
      rfl

end Home

namespace Vps

variable {A : AesGcm} {other : Int → Fin 4} {calls : Worker.ReceiveCalls} {new : NewSession}
  {w v w' : Worker} {o : Pointers} {k : Nat}

theorem register_requests {sessionId : SessionId} (registering : registerSession
      (w.construct new.this (.create new.sessionId new.homeClienEndpoint)) sessionId new.this
        new.nextTime = some v) :
    v.requests = w.requests ++ [.structTask, .buffer bufferSize] ∧
      v.udpSocketWaitForSendDeque = w.udpSocketWaitForSendDeque ∧
      v.sessions new.this = some (registered new sessionId) := by
  obtain ⟨t, timeWheel, started, rfl⟩ := Worker.register_cases registering
  cases started
  refine ⟨?_, rfl, Worker.settle_self⟩
  change ((w.requests ++ [.structTask]) ++ [.buffer bufferSize]) ++ [] = _
  rw [List.append_nil, List.append_assoc]
  rfl

/-- A delivery that builds a session does the same with any task that is not in use. -/
theorem deliver_elsewhere {p : Nat} {sessionId : SessionId} {len : Int} {data : List UInt8}
    {t : Session} (h : w.Holds) (unknown : w.sessionMap sessionId = none)
    (unused : w.sessions p = none)
    (handled : inputToKcp (registered new sessionId) len (calls.ikcp data) calls.old = some t) :
    ∃ w', deliver calls { new with this := p } w sessionId len data = some w' ∧ w'.requests =
      (w.requests ++ [.structTask, .buffer bufferSize]) ++ t.calls.filterMap Call.request := by
  obtain ⟨v, registering, holds, -⟩ :=
    @registerSession_eq w { new with this := p } sessionId h unused unknown
  obtain ⟨requests, -, found⟩ := register_requests registering
  obtain ⟨timeWheel, called, -⟩ := holds.handled found (handled_inputToKcp handled)
  refine ⟨v.settle p t timeWheel, ?_, ?_⟩
  · rw [deliver, unknown]
    simp only [Option.bind_eq_bind, registering, Option.bind_some]
    exact Worker.run_eq found handled called
  · rw [← requests]
    rfl

/-- What a delivery does with the ledger. If the task of a new session is the one that the
pool has given, then it was not in use; and with that task the delivery can be made. -/
theorem deliver_balanced {segment : Worker.Segment} (h : w.Holds) (linked : w.Linked o)
    (delivered : deliver calls new w segment.sessionId segment.len segment.data = some w')
    (fits : w'.Fits k) : Balanced (capacity other) (deliverNodes k calls w o segment) (o.owned k)
      fun r owned =>
        ((∀ this ∈ r.1, new.this = this) →
          (∃ new', w.sessions new'.this = none ∧
            deliver calls new' w segment.sessionId segment.len segment.data = some w') ∧
          Worker.Kept k w' r.2 owned) ∧
        ∃ new' v, (∀ this ∈ r.1, new'.this = this) ∧
          deliver calls new' w segment.sessionId segment.len segment.data = some v ∧
          v.requests = w'.requests := by
  cases found : w.sessionMap segment.sessionId with
  | some this =>
      obtain ⟨free, unused⟩ := Infinite.exists_notMem_finset o.sessions
      have same (new' : NewSession) :
          deliver calls new' w segment.sessionId segment.len segment.data = some w' := by
        simp only [deliver, found] at delivered ⊢
        exact delivered
      have ran := same new
      simp only [deliver, found] at ran
      rw [deliverNodes, found]
      refine (linked.run ran fits ?_).map fun o owned kept => ⟨fun _ => ⟨?_, kept⟩, ?_⟩
      · exact fun s t nodes handled small length => inputToKcp_balanced handled small length
      · exact ⟨{ new with this := free }, linked.unused unused, same _⟩
      · exact ⟨new, w', by simp, delivered, rfl⟩
  | none =>
      have made := delivered
      simp only [deliver, found, Option.bind_eq_bind] at delivered
      obtain ⟨v, registering, ran⟩ := Option.bind_eq_some_iff.mp delivered
      obtain ⟨requests, udp, built⟩ := register_requests registering
      obtain ⟨s, t, timeWheel, found', handled, -, settled⟩ := Worker.run_cases ran
      cases built.symm.trans found'
      have asked : w'.requests = (w.requests ++ [.structTask, .buffer bufferSize]) ++
          t.calls.filterMap Call.request := by
        rw [settled, ← requests]
        rfl
      have small : k ≤ bufferSize := by
        apply fits .structTask
        rw [asked]
        simp
      have sizes : ∀ size, .getSharedPtrFunc size ∈ t.calls → size ≤ bufferSize := by
        intro size member
        apply fits (.buffer size)
        rw [asked]
        exact List.mem_append_right _ (List.mem_filterMap.mpr ⟨_, member, rfl⟩)
      have input : Balanced (capacity other) (TransparentProxyNet.Session.inputToKcpNodes
          (.create segment.sessionId) segment.len (calls.ikcp segment.data) calls.old []) ↑([] :
            List Node) (Leaves t.tcpDataWaitForSendDeque.items.length) :=
        inputToKcp_balanced handled sizes rfl
      rw [deliverNodes, found]
      refine (Worker.build_balanced small).bind ?_
      rintro ⟨p, o'⟩ owned ⟨unusedP, behind, buffer, built', rfl⟩
      dsimp only at built' unusedP behind ⊢
      subst built'
      obtain ⟨rest, split, after⟩ := Pointers.owned_setTcp (k := k) (o := o.build p buffer)
        (Finset.mem_insert_self ..)
      rw [split, o.build_tcp_self]
      refine (input.frame rest).map ?_
      rintro nodes owned ⟨left, rfl, rfl, length⟩
      have unused := linked.unused unusedP
      constructor
      · intro same
        cases same p rfl
        obtain ⟨v', again, -, sessions, -⟩ := registerSession_eq h unused found
        cases again.symm.trans registering
        refine ⟨⟨new, unused, made⟩, (after nodes).symm, ?_⟩
        rw [settled]
        exact (linked.build unusedP behind buffer sessions rfl udp).settle found' length
      · obtain ⟨u, elsewhere, asked'⟩ := deliver_elsewhere h found unused handled
        refine ⟨{ new with this := p }, u, ?_, elsewhere, asked'.trans asked.symm⟩
        rintro _ ⟨⟩
        rfl

/-- The step lemma: a handler keeps the ledger, and finds the task of a new session unused. -/
theorem nodes_balanced {built : Option Nat} {e : Worker.Event} (h : w.Holds) (linked : w.Linked o)
    (handles : Handles A other calls built w e w') (fits : w'.Fits k) :
    Balanced (capacity other) (nodes A k calls w o e) (o.owned k)
      (Worker.Follows k (Step A other) (Handles A other) calls built w e w') := by
  cases handles with
  | common step =>
      have alike : nodes A k calls w o e =
          (w.commonNodes writeHandlerNodes o e).map fun o => (none, o) := by cases step <;> rfl
      rw [alike]
      refine (linked.common step fits (fun _ _ _ => handle_items) fun _ _ _ _ _ =>
        writeHandler_balanced).map ?_
      exact fun o owned kept => ⟨fun _ => ⟨.common step, kept⟩, e, w', .refl e, .common step, rfl⟩
  | @receive _ v new _ _ datagram outstanding arrived received address =>
      have arrive := h.arrive arrived
      simp only [nodes, arrived]
      have receives {new' : NewSession} {built : Option Nat} {u : Worker}
          (done : receiveHandler A v false (datagram.take bufferSize).length calls new' = some u)
          (own : ∀ this ∈ built, new'.this = this) :
          Handles A other calls built w (.receive false datagram) u :=
        .receive outstanding arrived done own
      obtain ⟨buf, -, rfl⟩ := Option.map_eq_some_iff.mp arrived
      split
      · rename_i empty
        obtain ⟨free, unused⟩ := Infinite.exists_notMem_finset o.sessions
        have still (new' : NewSession) :
            receiveHandler A { w.setBuffer buf with receives := w.receives - 1 } false
              (datagram.take bufferSize).length calls new' = some w' := by
          rw [receiveHandler, if_neg Bool.false_ne_true, if_pos empty] at received ⊢
          exact received
        have step := @Step.receive A other w _ _ datagram calls { new with this := free }
          outstanding arrived (linked.unused unused) (still _)
        refine ⟨fun _ => ⟨step, rfl, ?_⟩, _, _, .refl _, receives (still new) (by simp), rfl⟩
        rw [receiveHandler, if_neg Bool.false_ne_true, if_pos empty] at received
        cases received
        exact linked.of_same rfl rfl
      · rename_i filled
        have decoded (new' : NewSession) (buf' : Bytes bufferSize) (segment : Worker.Segment)
            (found : Worker.segment A { w.setBuffer buf with receives := w.receives - 1 }
              (datagram.take bufferSize).length calls.decrypt = some (buf', segment)) :
            receiveHandler A { w.setBuffer buf with receives := w.receives - 1 } false
              (datagram.take bufferSize).length calls new' =
                (deliver calls new' (Worker.setBuffer { w.setBuffer buf with
                  receives := w.receives - 1 } buf') segment.sessionId segment.len
                    segment.data).map Worker.rearm := by
          rw [receiveHandler, if_neg Bool.false_ne_true, if_neg filled, Worker.decode_eq, found]
          rfl
        have made := received
        rw [receiveHandler, if_neg Bool.false_ne_true, if_neg filled, Worker.decode_eq] at made
        obtain ⟨⟨buf', segment⟩, found, done⟩ := Option.bind_eq_some_iff.mp made
        obtain ⟨u, delivered, rfl⟩ := Option.map_eq_some_iff.mp done
        have linked' : (Worker.setBuffer { w.setBuffer buf with receives := w.receives - 1 }
            buf').Linked o := linked.of_same rfl rfl
        simp only [Worker.receiveNodes, found]
        refine ⟨bufferSize, Multiset.mem_cons_self _ _, capacity_room (Nat.le_refl _), ?_⟩
        refine (deliver_balanced (arrive.setBuffer buf') linked' delivered fits).mono ?_
        rintro ⟨taken, o'⟩ owned ⟨follows, new', v', own, elsewhere, asked⟩
        constructor
        · intro same
          cases same
          obtain ⟨⟨new'', unused, delivered'⟩, eq, kept⟩ := follows address
          have again := decoded new'' buf' segment found
          rw [delivered'] at again
          exact ⟨.receive outstanding arrived unused again, eq, kept.of_same rfl rfl⟩
        · have again := decoded new' buf' segment found
          rw [elsewhere] at again
          exact ⟨_, _, .refl _, receives again own, asked⟩
  | receiveError outstanding received =>
      have step : Step A other w (.receive true []) w' := .receiveError outstanding received
      have handles : Handles A other calls none w (.receive true []) w' :=
        .receiveError outstanding received
      cases received
      exact ⟨fun _ => ⟨step, rfl, linked.of_same rfl rfl⟩, _, _, .refl _, handles, rfl⟩

theorem handles_of_step {e : Worker.Event} (step : Step A other w e w') :
    ∃ calls built, Handles A other calls built w e w' := by
  have quiet : Worker.ReceiveCalls := ⟨.success, fun _ => ⟨0, []⟩, fun _ => []⟩
  cases step with
  | common step => exact ⟨quiet, none, .common step⟩
  | receive outstanding arrived _ received =>
      exact ⟨_, none, .receive outstanding arrived received (by simp)⟩
  | receiveError outstanding received => exact ⟨_, none, .receiveError outstanding received⟩

theorem nodes_alike {e e' : Worker.Event} (alike : e.Alike e') :
    nodes A k calls w o e' = nodes A k calls w o e := by
  cases e with
  | registerSession this randomId =>
      cases e' with
      | registerSession this' randomId' => rfl
      | _ => cases alike
  | _ =>
      cases alike
      rfl

end Vps

/-! ### Runs -/

namespace Worker.Housed
variable {S α : Type} [Served S] {S₀ : MemoryPool.Setting} {other : Int → Fin 4} {k : Nat}
  {Step₀ : Worker S α → Event → Worker S α → Prop} {Handles : Handling S α} {nodes : Using S α}
  {st st' : Housed S α}

/-- A worker and its pool between two handlers. -/
structure Safe (S₀ : MemoryPool.Setting) (other : Int → Fin 4) (k : Nat)
    (Step₀ : Worker S α → Event → Worker S α → Prop) (Handles : Handling S α) (nodes : Using S α)
    (st : Housed S α) : Prop where
  worker : Reachable Step₀ Worker.Started st.worker
  accounted : MemoryPool.Accounted S₀ other st.pool (st.pointers.owned k)
  distinct : ((st.pointers.owned k).map Node.address).Nodup
  apart : ∀ a ∈ st.pointers.owned k, ∀ b ∈ st.pointers.owned k, a ≠ b →
    Heap.Apart (a.address, capacity other a.size) (b.address, capacity other b.size)
  linked : st.worker.Linked st.pointers
  goes : ∀ e w', Step₀ st.worker e w' → w'.Fits k →
    ∃ calls, (MemoryPool.allocator other).Succeeds (nodes calls st.worker st.pointers e) st.pool
      fun r pool => ∃ e' v, e.Alike e' ∧ v.requests = w'.requests ∧
        Step other Handles nodes st (e', calls) ⟨v, r.2, pool⟩

/-- What the run lemma carries along. -/
structure Sound (S₀ : MemoryPool.Setting) (other : Int → Fin 4) (k : Nat)
    (Step₀ : Worker S α → Event → Worker S α → Prop) (st : Housed S α) : Prop where
  worker : Reachable Step₀ Worker.Started st.worker
  holds : ((MemoryPool.contract S₀ other).distinct).Holds st.pool (st.pointers.owned k)
  linked : st.worker.Linked st.pointers

/-- The receive buffer is the first node. -/
theorem start_balanced : Balanced (capacity other)
    (.take bufferSize fun p => .done (Pointers.start p)) 0 fun o owned =>
      owned = o.owned k ∧ ∃ p, o = .start p := by
  intro p _
  refine ⟨?_, p, rfl⟩
  simp [Pointers.start, Pointers.owned]

theorem built_accounted {pool : MemoryPool} (built : MemoryPool.Built S₀ ⟨pool, fun _ => []⟩) :
    ((MemoryPool.contract S₀ other).distinct).Holds pool 0 :=
  ⟨⟨_, .init built, fun _ => rfl⟩, Multiset.nodup_zero⟩

theorem started_sound (started : st.Started S₀ other) : st.Sound S₀ other k Step₀ := by
  obtain ⟨new, pool, built, runs⟩ := started
  obtain ⟨owned, holds, eq, p, start⟩ :=
    (((MemoryPool.contract S₀ other).distinct).succeeds (built_accounted built)
      start_balanced).ends runs
  refine ⟨.init new, eq ▸ holds, ?_⟩
  obtain ⟨wheel, buf, -, worker⟩ := new
  rw [start, worker]
  exact ⟨fun this => by simp [Pointers.start], by simp [Pointers.start], by simp, rfl⟩

omit [Served S] in
/-- Any worker that has just started, in a new pool. -/
theorem exists_started {w : Worker S α} (new : w.Started) (other : Int → Fin 4) :
    ∃ st : Housed S α, st.worker = w ∧ st.Started MemoryPool.megabytes other := by
  obtain ⟨⟨pool, live⟩, built, empty, -⟩ := MemoryPool.exists_built
  cases empty
  obtain ⟨o, pool', runs⟩ := ((MemoryPool.contract MemoryPool.megabytes other).distinct.succeeds
    (built_accounted built) (start_balanced (k := 0))).exists_run
  exact ⟨⟨w, o, pool'⟩, rfl, new, pool, built, runs⟩

/-- What the two programs have to show. -/
structure Keeping (other : Int → Fin 4) (k : Nat) (Step₀ : Worker S α → Event → Worker S α → Prop)
    (Handles : Handling S α) (nodes : Using S α) : Prop where
  holds : ∀ {w}, Reachable Step₀ Worker.Started w → w.Holds
  balanced : ∀ {calls built w e w' o}, w.Holds → w.Linked o → Handles calls built w e w' →
    w'.Fits k → Balanced (capacity other) (nodes calls w o e) (o.owned k)
      (Follows k Step₀ Handles calls built w e w')
  handles : ∀ {w e w'}, Step₀ w e w' → ∃ calls built, Handles calls built w e w'
  alike : ∀ {calls w o e e'}, e.Alike e' → nodes calls w o e' = nodes calls w o e

/-- A handler in the memory of the pool is one of the worker. -/
theorem Keeping.follows (keeping : Keeping other k Step₀ Handles nodes)
    (sound : st.Sound S₀ other k Step₀) {e : Event × ReceiveCalls}
    (step : Step other Handles nodes st e st') (fits : st'.worker.Fits k) :
    Step₀ st.worker e.1 st'.worker ∧ st'.Sound S₀ other k Step₀ := by
  obtain ⟨built, handles, runs⟩ := step
  have balanced := keeping.balanced (keeping.holds sound.worker) sound.linked handles fits
  obtain ⟨owned, holds, follows, -⟩ :=
    (((MemoryPool.contract S₀ other).distinct).succeeds sound.holds balanced).ends runs
  obtain ⟨taken, rfl, linked⟩ := follows rfl
  exact ⟨taken, sound.worker.trace (.single taken), holds, linked⟩

theorem Keeping.safe (keeping : Keeping other k Step₀ Handles nodes)
    (sound : st.Sound S₀ other k Step₀) : st.Safe S₀ other k Step₀ Handles nodes := by
  obtain ⟨worker, ⟨accounted, distinct⟩, linked⟩ := sound
  refine ⟨worker, accounted, distinct, fun a ma b mb ne => ?_, linked, fun e w' step fits => ?_⟩
  · exact accounted.apart ma mb fun same =>
      ne (Multiset.inj_on_of_nodup_map distinct a ma b mb same)
  · obtain ⟨calls, built, handles⟩ := keeping.handles step
    have balanced := keeping.balanced (keeping.holds worker) linked handles fits
    refine ⟨calls, ((MemoryPool.contract S₀ other).succeeds accounted balanced).along.mono ?_⟩
    rintro ⟨taken, o⟩ pool ⟨runs, owned, -, -, e', v, alike, again, requests⟩
    refine ⟨e', v, alike, requests, taken, again, ?_⟩
    rw [keeping.alike alike]
    exact runs

theorem Keeping.sound (keeping : Keeping other k Step₀ Handles nodes)
    (reachable : Reachable (Staying (fun st => st.worker.Fits k) (Step other Handles nodes))
      (Started S₀ other) st) : st.Sound S₀ other k Step₀ := by
  refine reachable.invariant (I := Sound S₀ other k Step₀) ?_ ?_
  · exact fun st => started_sound
  · exact fun st e st' sound step => (keeping.follows sound step.1 step.2).2

end Worker.Housed

theorem Home.keeping (A : AesGcm) (other : Int → Fin 4) (k : Nat) :
    Worker.Housed.Keeping other k (Step A other) (Handles A other) (nodes A k) :=
  ⟨reachable_holds, nodes_balanced, handles_of_step, nodes_alike⟩

theorem Vps.keeping (A : AesGcm) (other : Int → Fin 4) (k : Nat) :
    Worker.Housed.Keeping other k (Step A other) (Handles A other) (nodes A k) :=
  ⟨reachable_holds, nodes_balanced, handles_of_step, nodes_alike⟩

/-- A worker that has just started accepts its first connection, wherever its session lies. -/
theorem Home.exists_accepted (A : AesGcm) {other : Int → Fin 4} {k : Nat}
    {S : MemoryPool.Setting} {st : Worker.Housed Session Packet} (started : st.Started S other)
    (small : k ≤ bufferSize) (randomId : SessionId) :
    ∃ p calls st', Worker.Housed.Step other (Handles A other) (nodes A k) st
      (.registerSession p randomId, calls) st' ∧
      st'.worker.requests = [.buffer bufferSize, .structTask, .buffer bufferSize] ∧
      st'.worker.sessionMap randomId = some p ∧
      ∃ endpoint, st'.worker.sessions p = some (registered randomId endpoint) := by
  have sound : st.Sound S other k (Step A other) := Worker.Housed.started_sound started
  obtain ⟨wheel, buf, -, eq⟩ := started.1
  have unused : st.worker.sessions 7 = none := by rw [eq]
  have unknown : st.worker.sessionMap randomId = none := by rw [eq]
  obtain ⟨v, registering, -⟩ := registerSession_eq (Worker.started_holds started.1) unused unknown
    (.replicate 16 0) 10 ⟨1, 80⟩
  have requests : v.requests = [.buffer bufferSize, .structTask, .buffer bufferSize] := by
    rw [(register_requests registering).1, eq]
    rfl
  have fits : v.Fits k := by
    rw [Worker.Fits, requests]
    simpa [Request.memorySize] using small
  obtain ⟨calls, succeeds⟩ := ((Home.keeping A other k).safe sound).goes _ v
    (.registerSession unused unknown registering) fits
  obtain ⟨r, pool, runs⟩ := succeeds.exists_run
  obtain ⟨e, u, alike, same, step⟩ := succeeds.ends runs
  cases e with
  | registerSession p id =>
      cases alike
      obtain ⟨built, handles, ran⟩ := step
      cases handles with
      | common step => cases step
      | @registerSession _ _ _ sessionId nextTime endpoint _ free registered =>
          obtain ⟨v', again, -, sessions, map⟩ := registerSession_eq
            (Worker.started_holds started.1) (by rw [eq]) free sessionId nextTime endpoint
          cases again.symm.trans registered
          refine ⟨p, calls, _, ⟨_, .registerSession free registered, ran⟩, same.trans requests, ?_,
            endpoint, ?_⟩
          · rw [show u.sessionMap = _ from map, Function.update_self]
          · rw [show u.sessions = _ from sessions, Function.update_self]
  | _ => cases alike

/-- Either worker in the memory of its pool, as long as it asks for no more than the largest
node: the pool is only used as it should be, its nodes in use are exactly those that the
worker's pointers lead to, no two of them meet, a new session never gets a task that is in
use, and whatever the pool answers every handler goes through. -/
theorem memory_safe (A : AesGcm) (S₀ : MemoryPool.Setting) (other : Int → Fin 4)
    (structTaskSize : Nat) :
    (∀ st, Reachable (Staying (fun st => st.worker.Fits structTaskSize)
        (Worker.Housed.Step other (Home.Handles A other) (Home.nodes A structTaskSize)))
        (Worker.Housed.Started S₀ other) st →
      st.Safe S₀ other structTaskSize (Home.Step A other) (Home.Handles A other)
        (Home.nodes A structTaskSize)) ∧
    (∀ st, Reachable (Staying (fun st => st.worker.Fits structTaskSize)
        (Worker.Housed.Step other (Vps.Handles A other) (Vps.nodes A structTaskSize)))
        (Worker.Housed.Started S₀ other) st →
      st.Safe S₀ other structTaskSize (Vps.Step A other) (Vps.Handles A other)
        (Vps.nodes A structTaskSize)) :=
  ⟨fun _ reachable => (Home.keeping A other structTaskSize).safe
      ((Home.keeping A other structTaskSize).sound reachable),
    fun _ reachable => (Vps.keeping A other structTaskSize).safe
      ((Vps.keeping A other structTaskSize).sound reachable)⟩

/-- A connection is accepted: its session lies where the pool says. -/
theorem memory_safe_registered : ∃ st : Worker.Housed Home.Session Packet,
    st.worker.requests = [.buffer bufferSize, .structTask, .buffer bufferSize] ∧
      st.Safe MemoryPool.megabytes (fun _ => 0) 400 (Home.Step .sample fun _ => 0)
        (Home.Handles .sample fun _ => 0) (Home.nodes .sample 400) := by
  obtain ⟨w, new, -⟩ := Worker.exists_started (S := Session) (α := Packet)
  obtain ⟨st, -, started⟩ := Worker.Housed.exists_started new fun _ => 0
  obtain ⟨p, calls, st', step, requests, -⟩ :=
    Home.exists_accepted .sample (k := 400) started (by decide) (.replicate 16 1)
  have fits : st'.worker.Fits 400 := by
    rw [Worker.Fits, requests]
    decide
  exact ⟨st', requests, (memory_safe .sample MemoryPool.megabytes (fun _ => 0) 400).1 _
    ((Reachable.init started).trace (.single ⟨step, fits⟩))⟩

end TransparentProxyNet
