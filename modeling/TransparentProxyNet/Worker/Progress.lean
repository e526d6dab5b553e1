import TransparentProxyNet.Worker.Cadence
import TransparentProxyNet.Worker.Frames
import TransparentProxyNet.Worker.Requests
import TransparentProxyNet.Worker.WindDown

/-! What does not end a worker: a handler that leaves a buffer, takes from an empty deque,
follows a null pointer or throws would end the program. The random generator, the `open` of a
new socket and the heap are taken to have what they are asked for. -/
namespace TransparentProxyNet
open Machine

namespace Udp
variable {α : Type} {q : Pump.Queue α}

/-- A datagram is taken or dropped. -/
theorem settled_tryTosend (h : q.Settled) (pair : α) :
    ∃ q', tryTosendUdpMessageToRemoteServer q pair = some q' ∧ q'.Settled := by
  by_cases full : q.items.length > 2048
  · exact ⟨q, by rw [tryTosend_eq, if_pos full], h⟩
  · obtain ⟨q', pushed, settled, -⟩ := settled_enqueue h full pair
    exact ⟨q', pushed, settled⟩

end Udp

namespace Worker
variable {S α : Type} [Served S] {A : AesGcm} {other : Int → Fin 4}
  {handle : S → Session.Event → Option S} {addressed : S → Packet → α}
  {good : S → Session.Event → Prop} {w w' : Worker S α} {this : Nat}

/-- The worker gets through the steps that are alike in both programs, as far as they are
good: whatever happens on a socket or to a send, whatever the clock shows and `ikcp_check`
answers, and whichever call of EVP fails. -/
structure Survives (A : AesGcm) (other : Int → Fin 4) (handle : S → Session.Event → Option S)
    (addressed : S → Packet → α) (good : S → Session.Event → Prop) (w : Worker S α) : Prop where
  session : ∀ this s e, w.sessions this = some s → onSocket e → (base s).Enabled e → good s e →
    ∃ w', w.run this (handle · e) = some w'
  kcpCallBack : ∀ this s (buf : List UInt8) calls
    (node : Bytes (payloadSize other (buf.length + bufferPaddingSize))),
    w.sessions this = some s → buf.length ≤ 1250 → calls.keyRand.isSome →
    ∃ w', w.kcpCallBack A addressed calls this node buf = some w'
  sent : ∀ i op ec, w.udpSocketWaitForSendDeque.pending[i]? = some op →
    ∃ q, Udp.sendHandler w.udpSocketWaitForSendDeque i ec = some q
  doCurrentTimeWheel : ∀ now nextTime, ∃ timeWheel driven,
    TimeWheel.Ticks w.timeWheel (ctwCallBack now nextTime) timeWheel driven

/-- Whatever EVP answers, the frame fits in its node. -/
theorem buildFrame_total (A : AesGcm) {calls : EncryptCalls} (keyed : calls.keyRand.isSome)
    (sessionId : SessionId) {n : Nat} (node : Bytes n) {buf : List UInt8}
    (room : buf.length + 84 ≤ n) (small : buf.length + 84 < 2 ^ 31) :
    ∃ pair, buildFrame A calls sessionId node buf = some pair := by
  obtain ⟨key, drawn⟩ := Option.isSome_iff_exists.mp keyed
  by_cases encrypts : calls.Encrypts
  · obtain ⟨iv, rfl⟩ := EncryptCalls.eq_success drawn encrypts
    exact ⟨_, buildFrame_success A key iv sessionId node room small⟩
  · obtain ⟨pair, built, -⟩ := buildFrame_failure A drawn encrypts sessionId node room small
    exact ⟨pair, built⟩

theorem Holds.survives (h : w.Holds) (settled : w.udpSocketWaitForSendDeque.Settled)
    (handles : ∀ this s e, w.sessions this = some s → (base s).Enabled e → good s e →
      ∃ t, handle s e = some t ∧ Session.Handled (base s) (base t)) :
    w.Survives A other handle addressed good := by
  constructor
  · intro this s e found _ enabled allowed
    obtain ⟨t, handled, moved⟩ := handles this s e found enabled allowed
    obtain ⟨timeWheel, called, -⟩ := h.handled found moved
    exact ⟨_, run_eq found handled called⟩
  · intro this s buf calls node found short keyed
    obtain ⟨pair, built⟩ :=
      buildFrame_total A keyed (base s).sessionId node (room_of_segment short) (by omega)
    obtain ⟨q, pushed, -⟩ := Udp.settled_tryTosend settled (addressed s pair)
    simp only [Worker.kcpCallBack, found, built, pushed, Option.bind_eq_bind, Option.bind_some]
    exact ⟨_, rfl⟩
  · intro i op ec run
    obtain ⟨q, handled, -⟩ := Udp.settled_sent settled run ec
    exact ⟨q, handled⟩
  · intro now nextTime
    obtain ⟨r, refines, -⟩ := h.wheel
    obtain ⟨timeWheel, tick, -⟩ := refines.ticks (ctwCallBack now nextTime)
    exact ⟨timeWheel, _, tick⟩

theorem common_settled {e : Event} (settled : w.udpSocketWaitForSendDeque.Settled)
    (step : CommonStep A other handle addressed w e w') :
    w'.udpSocketWaitForSendDeque.Settled := by
  cases step with
  | session _ _ _ ran =>
      obtain ⟨s, t, timeWheel, -, -, -, rfl⟩ := run_cases ran
      exact settled
  | kcpCallBack node called =>
      simp only [Worker.kcpCallBack, Option.bind_eq_bind, Option.bind_eq_some_iff] at called
      obtain ⟨s, -, pair, -, q, pushed, eq⟩ := called
      obtain ⟨v, same, kept⟩ := Udp.settled_tryTosend settled (addressed s pair)
      cases same.symm.trans pushed
      cases eq
      exact kept
  | sent run handled =>
      obtain ⟨v, same, kept, -⟩ := Udp.settled_sent settled run _
      cases same.symm.trans handled
      exact kept
  | doCurrentTimeWheel _ => exact settled

/-- What a receive handler keeps of the sizes that have been asked for, the end of a receive
keeps. -/
theorem complete_fits {ν : Type} {k : Nat}
    {handler : Worker S α → Bool → Nat → ReceiveCalls → ν → Option (Worker S α)}
    {fed : Worker S α → Nat → DecryptCalls → List Segment} {c : Completion ν} {v : Worker S α}
    {segments : List Segment}
    (kept : ∀ u n, u.Holds → u.Fits k → handler u c.ec n c.calls c.new = some v → v.Fits k)
    (h : w.Holds) (fits : w.Fits k) (completed : complete handler fed w c = some (v, segments)) :
    v.Fits k := by
  unfold complete at completed
  split at completed
  · cases completed
    exact fits
  · split at completed
    · rename_i error
      obtain ⟨u, handled, eq⟩ := Option.map_eq_some_iff.mp completed
      cases eq
      rw [← error] at handled
      exact kept { w with receives := w.receives - 1 } 0 (h.of_same rfl rfl rfl)
        (fits.of_same rfl) handled
    · rename_i success
      simp only [Option.bind_eq_bind, Option.bind_eq_some_iff] at completed
      obtain ⟨u, arrived, x, handled, eq⟩ := completed
      cases eq
      have holds := h.arrive arrived
      obtain ⟨buf, -, rfl⟩ := Option.map_eq_some_iff.mp arrived
      rw [← Bool.eq_false_of_not_eq_true success] at handled
      exact kept _ _ holds (fits.of_same rfl) handled

/-- What runs for a session is no business of the send queue. -/
theorem run_queue {f : S → Option S} (ran : w.run this f = some w') :
    w'.udpSocketWaitForSendDeque = w.udpSocketWaitForSendDeque := by
  obtain ⟨s, t, timeWheel, -, -, -, rfl⟩ := run_cases ran
  rfl

end Worker

namespace Home
open Worker (Completion)

variable {A : AesGcm} {other : Int → Fin 4} {w w' : Worker} {e : Worker.Event}

/-- Nothing ends a worker of the home side. A receive takes a node for each message; they are
all large enough as long as KCP puts together none of more than `bufferSize` bytes. -/
structure Survives (A : AesGcm) (other : Int → Fin 4) (w : Worker) : Prop extends
    Worker.Survives A other handle (fun _ pair => pair) (fun _ _ => True) w where
  receive : ∀ c : Completion Unit,
    ∃ v segments, Worker.complete (handler A) (fed A) w c = some (v, segments) ∧
      ∀ structTaskSize, c.calls.Short → w.Fits structTaskSize → v.Fits structTaskSize
  registerSession : ∀ this randomId sessionId nextTime endpoint, w.sessions this = none →
    w.sessionMap randomId = none → ∃ v, registerSession
      (w.construct this (.create sessionId)) randomId this nextTime endpoint = some v

theorem registerSession_queue {randomId : SessionId} {this : Nat} {nextTime : UInt32}
    {endpoint : Endpoint}
    (registered : registerSession w randomId this nextTime endpoint = some w') :
    w'.udpSocketWaitForSendDeque = w.udpSocketWaitForSendDeque :=
  (Worker.run_queue registered).trans rfl

theorem deliver_queue {calls : Worker.ReceiveCalls} {sessionId : SessionId} {len : Int}
    {data : List UInt8} (delivered : deliver calls w sessionId len data = some w') :
    w'.udpSocketWaitForSendDeque = w.udpSocketWaitForSendDeque := by
  unfold deliver at delivered
  split at delivered
  · exact Worker.run_queue delivered
  · cases delivered
    rfl

theorem step_settled (settled : w.udpSocketWaitForSendDeque.Settled) (step : Step A other w e w') :
    w'.udpSocketWaitForSendDeque.Settled := by
  cases step with
  | common step => exact Worker.common_settled settled step
  | receive _ arrived received =>
      obtain ⟨buf, -, rfl⟩ := Option.map_eq_some_iff.mp arrived
      rw [receiveHandler, if_neg Bool.false_ne_true] at received
      obtain ⟨buf', sessionId, len, v, delivered, rfl⟩ := Worker.decode_cases received
      have same : v.udpSocketWaitForSendDeque = w.udpSocketWaitForSendDeque :=
        (deliver_queue delivered).trans rfl
      change v.udpSocketWaitForSendDeque.Settled
      rwa [same]
  | receiveError _ received =>
      cases received
      exact settled
  | registerSession _ _ registered =>
      have same : w'.udpSocketWaitForSendDeque = w.udpSocketWaitForSendDeque :=
        (registerSession_queue registered).trans rfl
      rwa [same]

theorem survives (reachable : Reachable (Step A other) Worker.Started w) :
    Survives A other w := by
  obtain ⟨holds, each⟩ := reachable_tidy reachable
  have settled : w.udpSocketWaitForSendDeque.Settled := by
    refine reachable.invariant (I := fun w => w.udpSocketWaitForSendDeque.Settled) ?_
      fun _ _ _ => step_settled
    rintro w ⟨wheel, buf, -, rfl⟩
    exact .inl rfl
  refine ⟨holds.survives settled ?_, ?_, ?_⟩
  · intro this s e found enabled _
    obtain ⟨t, handled, -⟩ := pumping_step (each this s found).1 enabled
    exact ⟨t, handled, handled_step ⟨enabled, handled⟩⟩
  · intro c
    by_cases none : w.receives = 0
    · exact ⟨w, [], if_pos none, fun _ _ fits => fits⟩
    · obtain ⟨v, segments, completed, -⟩ := complete_step other holds none c
      refine ⟨v, segments, completed, fun k short fits => ?_⟩
      exact Worker.complete_fits (fun u n h fits handled => receive_fits h fits short handled)
        holds fits completed
  · intro this randomId sessionId nextTime endpoint unused new
    obtain ⟨v, ran, -⟩ := registerSession_eq holds unused new sessionId nextTime endpoint
    exact ⟨v, ran⟩

end Home

namespace Vps
open Worker (Completion OnSessions)

variable {A : AesGcm} {other : Int → Fin 4} {w w' : Worker} {e : Worker.Event}

/-- Nothing but a late success ends the worker of the VPS. Its nodes are large enough as those
of the home side are. -/
structure Survives (A : AesGcm) (other : Int → Fin 4) (w : Worker) : Prop extends
    Worker.Survives A other handle (fun s pair => (s.homeClienEndpoint, pair)) NoLateSuccess w where
  receive : ∀ c : Completion NewSession, w.sessions c.new.this = none →
    ∃ v segments, Worker.complete (receiveHandler A) (fed A) w c = some (v, segments) ∧
      ∀ structTaskSize, structTaskSize ≤ bufferSize → c.calls.Short → w.Fits structTaskSize →
        v.Fits structTaskSize

theorem registerSession_queue {sessionId : SessionId} {this : Nat} {nextTime : UInt32}
    (registered : registerSession w sessionId this nextTime = some w') :
    w'.udpSocketWaitForSendDeque = w.udpSocketWaitForSendDeque :=
  (Worker.run_queue registered).trans rfl

theorem deliver_queue {calls : Worker.ReceiveCalls} {new : NewSession} {sessionId : SessionId}
    {len : Int} {data : List UInt8} (delivered : deliver calls new w sessionId len data = some w') :
    w'.udpSocketWaitForSendDeque = w.udpSocketWaitForSendDeque := by
  unfold deliver at delivered
  split at delivered
  · exact Worker.run_queue delivered
  · simp only [Option.bind_eq_bind, Option.bind_eq_some_iff] at delivered
    obtain ⟨v, registered, ran⟩ := delivered
    have made : v.udpSocketWaitForSendDeque = w.udpSocketWaitForSendDeque :=
      (registerSession_queue registered).trans rfl
    exact (Worker.run_queue ran).trans made

theorem step_settled (settled : w.udpSocketWaitForSendDeque.Settled) (step : Step A other w e w') :
    w'.udpSocketWaitForSendDeque.Settled := by
  cases step with
  | common step => exact Worker.common_settled settled step
  | receive _ arrived _ received =>
      obtain ⟨buf, -, rfl⟩ := Option.map_eq_some_iff.mp arrived
      rw [receiveHandler, if_neg Bool.false_ne_true] at received
      split at received
      · cases received
        exact settled
      · obtain ⟨buf', sessionId, len, v, delivered, rfl⟩ := Worker.decode_cases received
        have same : v.udpSocketWaitForSendDeque = w.udpSocketWaitForSendDeque :=
          (deliver_queue delivered).trans rfl
        change v.udpSocketWaitForSendDeque.Settled
        rwa [same]
  | receiveError _ received =>
      cases received
      exact settled

theorem survives
    (reachable : Reachable (Guarded (OnSessions NoLateSuccess) (Step A other)) Worker.Started w) :
    Survives A other w := by
  obtain ⟨holds, each⟩ : w.Holds ∧ w.Each Pumping := by
    refine reachable_each ?_ ?_ (fun _ _ _ _ => trivial) reachable
    · exact fun new sessionId => ⟨fun _ => rfl, fun off => (by cases off), .inr rfl⟩
    · intro s e t pumping step good
      obtain ⟨u, handled, kept⟩ := pumping_step pumping step.1 good
      cases handled.symm.trans step.2
      exact kept.of_same rfl rfl rfl
  have settled : w.udpSocketWaitForSendDeque.Settled := by
    refine reachable.invariant (I := fun w => w.udpSocketWaitForSendDeque.Settled) ?_
      fun _ _ _ settled step => step_settled settled step.1
    rintro w ⟨wheel, buf, -, rfl⟩
    exact .inl rfl
  refine ⟨holds.survives settled ?_, ?_⟩
  · intro this s e found enabled good
    obtain ⟨t, handled, -⟩ := pumping_step (each this s found) enabled good
    exact ⟨t, handled, handled_step ⟨enabled, handled⟩⟩
  · intro c unused
    by_cases none : w.receives = 0
    · exact ⟨w, [], if_pos none, fun _ _ _ fits => fits⟩
    · obtain ⟨v, segments, completed, -⟩ := complete_step other holds none unused
      refine ⟨v, segments, completed, fun k small short fits => ?_⟩
      exact Worker.complete_fits (fun u n h fits handled => receive_fits h fits small short handled)
        holds fits completed

end Vps

end TransparentProxyNet
