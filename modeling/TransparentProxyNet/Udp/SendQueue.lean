import TransparentProxyNet.Lib.Machine
import TransparentProxyNet.Lib.Pump

/-! The queue of datagrams in front of a worker's UDP socket, `udpSocketWaitForSendDeque_`.
Both programs have the same three functions; on the VPS every datagram carries its
own destination. -/
namespace TransparentProxyNet
open Machine

/-- An IPv4 endpoint, in host byte order. -/
structure Endpoint where
  ip : UInt32
  port : UInt16
  deriving DecidableEq

/-- `std::pair<std::shared_ptr<std::array<uint8_t,2048>>,int>`: a pool node and the
length recorded for it. -/
structure Packet where
  buffer : List UInt8
  len : Int
  deriving DecidableEq

namespace Udp
variable {α : Type}

def sendUdpMessageToRemoteServer (q : Pump.Queue α) : Option (Pump.Queue α) := q.start none

def tryTosendUdpMessageToRemoteServer (q : Pump.Queue α) (pair : α) : Option (Pump.Queue α) :=
  if q.items.length > 2048 then some q
  else
    let isEmpty := q.items.isEmpty
    let q := q.pushBack pair
    if isEmpty then sendUdpMessageToRemoteServer q else some q

/-- The completion handler of the `i`-th outstanding `async_send`. -/
def sendHandler (q : Pump.Queue α) (i : Nat) (ec : Bool) : Option (Pump.Queue α) := do
  let q ← (q.retire i).popFront
  if ec then return q
  if !q.items.isEmpty then sendUdpMessageToRemoteServer q else return q

inductive Event (α : Type) where
  | enqueue (pair : α)
  | sent (i : Nat) (ec : Bool)

/-- Sessions enqueue datagrams, outstanding sends complete. -/
inductive Step (tryTosend : Pump.Queue α → α → Option (Pump.Queue α))
    (handler : Pump.Queue α → Nat → Bool → Option (Pump.Queue α)) :
    Pump.Queue α → Event α → Pump.Queue α → Prop
  | enqueue {q pair q'} : tryTosend q pair = some q' → Step tryTosend handler q (.enqueue pair) q'
  | sent {q i op ec q'} : q.pending[i]? = some op → handler q i ec = some q' →
      Step tryTosend handler q (.sent i ec) q'

end Udp

namespace Home

def tryTosendUdpMessageToRemoteServer : Pump.Queue Packet → Packet → Option (Pump.Queue Packet) :=
  Udp.tryTosendUdpMessageToRemoteServer

def sendHandler : Pump.Queue Packet → Nat → Bool → Option (Pump.Queue Packet) := Udp.sendHandler

def UdpStep : Pump.Queue Packet → Udp.Event Packet → Pump.Queue Packet → Prop :=
  Udp.Step tryTosendUdpMessageToRemoteServer sendHandler

end Home

namespace Vps

def tryTosendUdpMessageToRemoteServer :
    Pump.Queue (Endpoint × Packet) → Endpoint × Packet → Option (Pump.Queue (Endpoint × Packet)) :=
  Udp.tryTosendUdpMessageToRemoteServer

def sendHandler : Pump.Queue (Endpoint × Packet) → Nat → Bool →
    Option (Pump.Queue (Endpoint × Packet)) :=
  Udp.sendHandler

def UdpStep :
    Pump.Queue (Endpoint × Packet) → Udp.Event (Endpoint × Packet) →
      Pump.Queue (Endpoint × Packet) → Prop :=
  Udp.Step tryTosendUdpMessageToRemoteServer sendHandler

end Vps

namespace Udp
variable {α : Type}

theorem tryTosend_eq (q : Pump.Queue α) (pair : α) :
    tryTosendUdpMessageToRemoteServer q pair =
      if q.items.length > 2048 then some q else q.submit pair none := by
  simp [tryTosendUdpMessageToRemoteServer, Pump.Queue.submit, sendUdpMessageToRemoteServer]

theorem sendHandler_eq (q : Pump.Queue α) (i : Nat) (ec : Bool) :
    sendHandler q i ec =
      (q.retire i).popFront.bind fun q => if ec then some q else q.resume none := by
  unfold sendHandler
  congr 1
  funext q
  cases ec with
  | true => rfl
  | false => cases items : q.items <;> simp [Pump.Queue.resume, sendUdpMessageToRemoteServer, items]

/-- The functions look at no datagram. -/
theorem tryTosend_map {β : Type} (f : α → β) (q : Pump.Queue α) (pair : α) :
    (tryTosendUdpMessageToRemoteServer q pair).map (Pump.Queue.map f) =
      tryTosendUdpMessageToRemoteServer (q.map f) (f pair) := by
  have length : (q.map f).items.length = q.items.length := List.length_map f
  rw [tryTosend_eq, tryTosend_eq, length]
  split
  · rfl
  · exact Pump.Queue.map_submit f q pair none

theorem sendHandler_map {β : Type} (f : α → β) (q : Pump.Queue α) (i : Nat) (ec : Bool) :
    (sendHandler q i ec).map (Pump.Queue.map f) = sendHandler (q.map f) i ec := by
  rw [sendHandler_eq, sendHandler_eq, ← Pump.Queue.map_retire, ← Pump.Queue.map_popFront,
    Option.map_bind, Option.bind_map]
  congr 1
  funext mid
  cases ec with
  | true => rfl
  | false => exact Pump.Queue.map_resume f mid none

/-- The queue is non-empty exactly when one `async_send` is outstanding. -/
def Alive (q : Pump.Queue α) : Prop := q.items ≠ [] ↔ q.pending.length = 1

/-- No send fails while further datagrams wait behind the one it was for. -/
def NoErrorBeforeBacklog (q : Pump.Queue α) : Event α → Prop
  | .enqueue _ => True
  | .sent _ ec => ec = true → q.items.length ≤ 1

theorem running_enqueue {q : Pump.Queue α} (h : q.Running) (pair : α) :
    ∃ q', tryTosendUdpMessageToRemoteServer q pair = some q' ∧ q'.Running := by
  rw [tryTosend_eq]
  split
  · exact ⟨q, rfl, h⟩
  · obtain ⟨q', pushed, running, _⟩ := h.submit pair none
    exact ⟨q', pushed, running⟩

/-- A completion handler never meets an empty queue; after an error it leaves the
rest of the queue without a send. -/
theorem running_sent {q : Pump.Queue α} (h : q.Running) {i : Nat} {op : Pump.Op α}
    (run : q.pending[i]? = some op) (ec : Bool) :
    ∃ q', sendHandler q i ec = some q' ∧ q.items = op.item :: q'.items ∧
      (ec = true → q'.pending = []) ∧ (ec = false → q'.Running) := by
  obtain ⟨mid, popped, items, still, _⟩ := h.finish run
  rw [sendHandler_eq, popped]
  cases ec with
  | true => exact ⟨mid, rfl, items, fun _ => still, by simp⟩
  | false =>
      obtain ⟨q', resumed, running, same, _⟩ := Pump.resume_running still none
      exact ⟨q', by simpa using resumed, same ▸ items, by simp, fun _ => running⟩

theorem running_kept {q q' : Pump.Queue α} {e : Event α} (h : q.Running)
    (step : Step tryTosendUdpMessageToRemoteServer sendHandler q e q')
    (good : NoErrorBeforeBacklog q e) : q'.Running := by
  cases step with
  | enqueue pushed =>
      obtain ⟨v, same, running⟩ := running_enqueue h _
      cases same.symm.trans pushed
      exact running
  | @sent i op ec _ run handled =>
      obtain ⟨v, same, items, stopped, running⟩ := running_sent h run ec
      cases same.symm.trans handled
      cases ec with
      | false => exact running rfl
      | true =>
          have short := good rfl
          rw [items, List.length_cons] at short
          have empty : q'.items = [] := List.length_eq_zero_iff.mp (by omega)
          rw [Pump.Queue.Running, stopped rfl, empty]
          rfl

theorem alive_lost {q q' : Pump.Queue α} {e : Event α} (h : q.Running)
    (step : Step tryTosendUdpMessageToRemoteServer sendHandler q e q')
    (bad : ¬ NoErrorBeforeBacklog q e) : ¬ Alive q' := by
  cases step with
  | enqueue => exact absurd trivial bad
  | @sent i op ec _ run handled =>
      obtain ⟨v, same, items, stopped, _⟩ := running_sent h run ec
      cases same.symm.trans handled
      simp only [NoErrorBeforeBacklog, Classical.not_imp, items, List.length_cons,
        Nat.not_le] at bad
      intro alive
      have waiting : q'.items ≠ [] := fun empty => by simp [empty] at bad
      have one := alive.mp waiting
      rw [stopped bad.1] at one
      cases one

theorem staying_alive_iff (es : List (Event α)) (q : Pump.Queue α) :
    Trace (Staying Alive (Step tryTosendUdpMessageToRemoteServer sendHandler)) .idle es q ↔
      Trace (Guarded NoErrorBeforeBacklog (Step tryTosendUdpMessageToRemoteServer sendHandler))
        .idle es q :=
  staying_iff_guarded (P := Alive) (G := NoErrorBeforeBacklog) (fun _ _ _ => running_kept)
    (fun _ running => running.nonempty_iff) (fun _ _ _ => alive_lost) Pump.running_idle

/-- In every state of a run the pump is alive exactly if no send of the run fails
with a backlog behind it. -/
theorem alive_iff_no_error_before_backlog (es : List (Event Packet)) (q : Pump.Queue Packet)
    (fs : List (Event (Endpoint × Packet))) (r : Pump.Queue (Endpoint × Packet)) :
    (Trace (Staying Alive Home.UdpStep) .idle es q ↔
      Trace (Guarded NoErrorBeforeBacklog Home.UdpStep) .idle es q) ∧
    (Trace (Staying Alive Vps.UdpStep) .idle fs r ↔
      Trace (Guarded NoErrorBeforeBacklog Vps.UdpStep) .idle fs r) :=
  ⟨staying_alive_iff es q, staying_alive_iff fs r⟩

/-- Two datagrams are queued and the send of the first one fails: the second one
stays in the queue and nothing is outstanding. -/
theorem send_error_stalls :
    ¬ ∀ es q, Trace Home.UdpStep .idle es q → Alive q := by
  intro always
  have stalled := always [.enqueue ⟨[1], 1⟩, .enqueue ⟨[2], 1⟩, .sent 0 true] _
    (.cons (.enqueue rfl) (.cons (.enqueue rfl) (.cons (.sent rfl rfl) (.nil _))))
  exact absurd (stalled.mp (by decide)) (by decide)

/-! ### The limit -/

theorem enqueue_items {q q' : Pump.Queue α} {pair : α}
    (pushed : tryTosendUdpMessageToRemoteServer q pair = some q') :
    q'.items = if q.items.length > 2048 then q.items else q.items ++ [pair] := by
  rw [tryTosend_eq] at pushed
  split at pushed
  · cases pushed
    rw [if_pos ‹_›]
  · rw [if_neg ‹_›]
    exact Pump.Queue.submit_items pushed

theorem sent_items {q q' : Pump.Queue α} {i : Nat} {ec : Bool}
    (handled : sendHandler q i ec = some q') : q'.items = q.items.tail := by
  rw [sendHandler_eq] at handled
  obtain ⟨mid, popped, rest⟩ := Option.bind_eq_some_iff.mp handled
  rw [← show (q.retire i).items = q.items from rfl, ← Pump.Queue.popFront_items popped]
  cases ec with
  | true =>
      cases rest
      rfl
  | false => exact Pump.Queue.resume_items rest

/-- What the comment in `tryTosendUdpMessageToRemoteServer` allows: a total of 2048. -/
def Bounded (q : Pump.Queue α) : Prop := q.items.length ≤ 2048

/-- No datagram comes while the queue holds as many as it may. -/
def NoneAtLimit (q : Pump.Queue α) : Event α → Prop
  | .enqueue _ => q.items.length ≠ 2048
  | .sent _ _ => True

theorem bounded_kept {q q' : Pump.Queue α} {e : Event α} (h : Bounded q)
    (step : Step tryTosendUdpMessageToRemoteServer sendHandler q e q')
    (good : NoneAtLimit q e) : Bounded q' := by
  unfold Bounded at h ⊢
  cases step with
  | enqueue pushed =>
      rw [enqueue_items pushed, if_neg (not_lt.mpr h), List.length_append, List.length_singleton]
      exact Nat.lt_of_le_of_ne h good
  | sent _ handled =>
      rw [sent_items handled, List.length_tail]
      omega

/-- The test comes before the push, and it is for more than the limit. -/
theorem bounded_lost {q q' : Pump.Queue α} {e : Event α}
    (step : Step tryTosendUdpMessageToRemoteServer sendHandler q e q')
    (bad : ¬ NoneAtLimit q e) : ¬ Bounded q' := by
  cases step with
  | enqueue pushed =>
      have full : q.items.length = 2048 := not_not.mp bad
      rw [Bounded, enqueue_items pushed, if_neg (by omega), List.length_append, full,
        List.length_singleton]
      omega
  | sent => exact absurd trivial bad

theorem staying_bounded_iff (es : List (Event α)) (q : Pump.Queue α) :
    Trace (Staying Bounded (Step tryTosendUdpMessageToRemoteServer sendHandler)) .idle es q ↔
      Trace (Guarded NoneAtLimit (Step tryTosendUdpMessageToRemoteServer sendHandler))
        .idle es q :=
  staying_iff_guarded (P := Bounded) (G := NoneAtLimit) (fun _ _ _ => bounded_kept)
    (fun _ => id) (fun _ _ _ _ => bounded_lost) (Nat.zero_le _)

/-- In every state of a run the queue holds at most 2048 datagrams exactly if none of
them comes when 2048 are there. -/
theorem bounded_iff_none_at_limit (es : List (Event Packet)) (q : Pump.Queue Packet)
    (fs : List (Event (Endpoint × Packet))) (r : Pump.Queue (Endpoint × Packet)) :
    (Trace (Staying Bounded Home.UdpStep) .idle es q ↔
      Trace (Guarded NoneAtLimit Home.UdpStep) .idle es q) ∧
    (Trace (Staying Bounded Vps.UdpStep) .idle fs r ↔
      Trace (Guarded NoneAtLimit Vps.UdpStep) .idle fs r) :=
  ⟨staying_bounded_iff es q, staying_bounded_iff fs r⟩

/-- As long as no send completes, the queue takes one datagram after the other, and one
more than its limit. -/
theorem exists_filled (pair : α) (n : Nat) (room : n ≤ 2049) :
    ∃ (es : List (Event α)) (q : Pump.Queue α),
      Trace (Step tryTosendUdpMessageToRemoteServer sendHandler) .idle es q ∧
        q.items.length = n := by
  induction n with
  | zero => exact ⟨[], .idle, .nil _, rfl⟩
  | succ n ih =>
      obtain ⟨es, q, trace, filled⟩ := ih (Nat.le_of_succ_le room)
      have fits : ¬ q.items.length > 2048 := by omega
      obtain ⟨q', pushed⟩ : ∃ q', tryTosendUdpMessageToRemoteServer q pair = some q' := by
        rw [tryTosend_eq, if_neg fits]
        exact q.submit_total pair none
      refine ⟨es ++ [.enqueue pair], q', trace.append (.single (.enqueue pushed)), ?_⟩
      rw [enqueue_items pushed, if_neg fits, List.length_append, filled, List.length_singleton]

/-- 2049 datagrams and no completion: all of them are taken. -/
theorem queue_exceeds_limit :
    ¬ ∀ es q, Trace Home.UdpStep .idle es q → q.items.length ≤ 2048 := by
  intro always
  obtain ⟨es, q, trace, filled⟩ := exists_filled (⟨[], 0⟩ : Packet) 2049 (Nat.le_refl _)
  have bound := always es q trace
  omega

end Udp
end TransparentProxyNet
