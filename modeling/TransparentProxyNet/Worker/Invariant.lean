import TransparentProxyNet.Session.Flow
import TransparentProxyNet.Worker.Model

/-! What holds of a worker between its handlers: a session is on the wheel exactly while
it is open, the map leads to sessions with the id asked for, and no session has read a
message only in part. -/
namespace TransparentProxyNet
open Machine SlotWheel

/-- Taking nodes from the pool leaves the wheel alone. -/
theorem callsOnWheel_takesNode {this : Nat} {calls : List Call} (quiet : ∀ c ∈ calls, c.takesNode)
    (w : TimeWheel Nat) : callsOnWheel this w calls = some w := by
  induction calls with
  | nil => rfl
  | cons c calls ih =>
      have rest := ih fun d member => quiet d (List.mem_cons_of_mem c member)
      have first := quiet c List.mem_cons_self
      cases c with
      | getSharedPtrFunc size => exact rest
      | mountTask next => cases first
      | removeTask => cases first

namespace Session

/-- A session between two handlers. -/
structure Quiet (s : Session) : Prop where
  calls : s.calls = []
  drained : Drained s.kcp.rcvQueue
  paused : s.Paused
  ended : s.Ended

theorem driveSessionTimeClock_pos (now nextTime : UInt32) :
    0 < driveSessionTimeClock now nextTime := by
  unfold driveSessionTimeClock
  obtain ⟨diff, eq⟩ : ∃ diff, int32 (nextTime - now) = diff := ⟨_, rfl⟩
  have bound : diff < 2 ^ 31 := by
    rw [← eq, int32]
    have small := (nextTime - now).toNat_lt
    split <;> omega
  simp only [eq]
  split
  · decide
  · have ahead : 0 ≤ diff := by omega
    obtain ⟨k, rfl⟩ := Int.eq_ofNat_of_zero_le ahead
    rw [UInt32.lt_iff_toNat_lt, ofInt_natCast (by omega), UInt32.toNat_ofNat_of_lt'
      (by simp only [UInt32.size]; omega), UInt32.toNat_zero]
    omega

end Session

namespace TimeWheel

/-- A tick in which every callback asks for another run takes no task off the wheel. -/
theorem absent_apply_tick {r : Wheel Nat} {answer : Nat → UInt32} (again : ∀ t, 0 < answer t)
    (t : Nat) : (apply r (.doCurrentTimeWheel answer)).Absent t ↔ r.Absent t := by
  constructor
  · intro gone i member
    by_cases here : i = r.cur
    · subst here
      exact gone _ (mem_tick.mpr (.inl ⟨_, mem_answers.mpr ⟨member, again t, rfl⟩, rfl⟩))
    · exact gone i (mem_tick.mpr (.inr ⟨here, member⟩))
  · intro absent
    refine absent_tick (fun i _ => absent i) ?_
    intro k asked
    exact absent _ (mem_answers.mp asked).1

theorem absent_remove_iff {r : Wheel Nat} (distinct : r.Distinct) {t u : Nat} :
    (r.remove t).Absent u ↔ u = t ∨ r.Absent u := by
  constructor
  · intro gone
    by_cases same : u = t
    · exact .inl same
    · exact .inr fun i member => gone i ((List.mem_erase_of_ne same).mpr member)
  · rintro (rfl | absent)
    · exact distinct.absent_remove u
    · exact fun i member => absent i (List.mem_of_mem_erase member)

theorem absent_mount_iff {r : Wheel Nat} {k t u : Nat} :
    (r.mount k t).Absent u ↔ u ≠ t ∧ r.Absent u := by
  constructor
  · intro gone
    refine ⟨?_, fun i member => gone i ?_⟩
    · rintro rfl
      exact gone (onward r.cur k) (by simp [Slots.mount])
    · by_cases here : i = onward r.cur k
      · subst here
        simp [Slots.mount, member]
      · simpa [Slots.mount, Function.update_of_ne here] using member
  · rintro ⟨other, absent⟩
    exact absent_mount_other absent other k

end TimeWheel

namespace Worker
variable {S α : Type}

theorem exists_started : ∃ w : Worker S α, w.Started ∧ (∀ this, w.sessions this = none) ∧
    (∀ sessionId, w.sessionMap sessionId = none) ∧ w.receives = 1 :=
  ⟨⟨fun _ => none, fun _ => none, TimeWheel.emptyWheel, .idle, .replicate _ 0, 1,
    [.buffer bufferSize]⟩, ⟨_, _, ⟨rfl, fun _ => rfl⟩, rfl⟩, fun _ => rfl, fun _ => rfl, rfl⟩

variable [Served S]

def Open (w : Worker S α) (this : Nat) : Prop :=
  ∃ s, w.sessions this = some s ∧ (base s).sessionClose = false

structure Holds (w : Worker S α) : Prop where
  wheel : ∃ r, TimeWheel.Refines w.timeWheel r ∧ ∀ this, r.Absent this ↔ ¬ w.Open this
  mapped : ∀ sessionId this, w.sessionMap sessionId = some this →
    ∃ s, w.sessions this = some s ∧ (base s).sessionId = sessionId
  quiet : ∀ this s, w.sessions this = some s → (base s).Quiet

theorem Holds.linked_iff {w : Worker S α} (h : w.Holds) (this : Nat) :
    TimeWheel.Linked w.timeWheel this ↔ w.Open this := by
  obtain ⟨r, refines, absent⟩ := h.wheel
  exact not_iff_not.mp (refines.not_linked_iff.trans (absent this))

/-- What `run` makes of a worker, given the session and the wheel afterwards. -/
def settle (w : Worker S α) (this : Nat) (t : S) (timeWheel : TimeWheel Nat) : Worker S α :=
  { w with
    sessions := Function.update w.sessions this (some (lift (fun t => { t with calls := [] }) t))
    timeWheel
    requests := w.requests ++ (base t).calls.filterMap Call.request }

theorem run_cases {w w' : Worker S α} {this : Nat} {f : S → Option S}
    (ran : w.run this f = some w') : ∃ s t timeWheel, w.sessions this = some s ∧ f s = some t ∧
      callsOnWheel this w.timeWheel (base t).calls = some timeWheel ∧
        w' = w.settle this t timeWheel := by
  simp only [run, Option.bind_eq_bind, Option.bind_eq_some_iff] at ran
  obtain ⟨s, found, t, handled, timeWheel, called, eq⟩ := ran
  cases eq
  exact ⟨s, t, timeWheel, found, handled, called, rfl⟩

/-- A `kcpCallBack` touches nothing but the send queue and what has been taken from the
pool. -/
theorem kcpCallBack_cases {A : AesGcm} {addressed : S → Packet → α} {calls : EncryptCalls}
    {w w' : Worker S α} {this n : Nat} {node : Bytes n} {buf : List UInt8}
    (called : w.kcpCallBack A addressed calls this node buf = some w') :
    ∃ q requests, w' = { w with udpSocketWaitForSendDeque := q, requests := requests } := by
  simp only [kcpCallBack, Option.bind_eq_bind, Option.bind_eq_some_iff] at called
  obtain ⟨s, -, pair, -, q, -, eq⟩ := called
  cases eq
  exact ⟨q, _, rfl⟩

theorem run_eq {w : Worker S α} {this : Nat} {f : S → Option S} {s t : S}
    {timeWheel : TimeWheel Nat} (found : w.sessions this = some s) (handled : f s = some t)
    (called : callsOnWheel this w.timeWheel (base t).calls = some timeWheel) :
    w.run this f = some (w.settle this t timeWheel) := by
  simp only [run, found, handled, called, Option.bind_eq_bind, Option.bind_some]
  rfl

section
variable {w : Worker S α} {this : Nat} {t : S} {timeWheel : TimeWheel Nat}

@[simp] theorem settle_self :
    (w.settle this t timeWheel).sessions this = some (lift (fun t => { t with calls := [] }) t) :=
  Function.update_self ..

theorem settle_other {other : Nat} (apart : other ≠ this) :
    (w.settle this t timeWheel).sessions other = w.sessions other := Function.update_of_ne apart ..

theorem open_settle_self : (w.settle this t timeWheel).Open this ↔
    (base t).sessionClose = false := by
  simp [Open]

theorem open_settle_other {other : Nat} (apart : other ≠ this) :
    (w.settle this t timeWheel).Open other ↔ w.Open other := by
  rw [Open, Open, settle_other apart]

/-- A function that leaves the session as it is, and asks for nothing, leaves the worker
as it is. -/
theorem run_same {f : S → Option S} {s : S} (found : w.sessions this = some s) (same : f s = some s)
    (calls : (base s).calls = []) : w.run this f = some w := by
  have wheel : callsOnWheel this w.timeWheel (base s).calls = some w.timeWheel := by rw [calls]; rfl
  have cleared : lift (fun t => { t with calls := [] }) s = s := by
    apply lift_same _ _
    rw [← calls]
  rw [run_eq found same wheel, settle, cleared, Function.update_eq_self_iff.mpr found.symm, calls,
    List.filterMap_nil, List.append_nil]

/-- The clauses about the map and the sessions, once the session at `this` has its id and
is quiet. -/
theorem Holds.settle_sessions (timeWheel : TimeWheel Nat)
    (mapped : ∀ sessionId other, w.sessionMap sessionId = some other → other ≠ this →
      ∃ s, w.sessions other = some s ∧ (base s).sessionId = sessionId)
    (own : ∀ sessionId, w.sessionMap sessionId = some this → (base t).sessionId = sessionId)
    (quiet : ∀ other s, w.sessions other = some s → other ≠ this → (base s).Quiet)
    (drained : Session.Drained (base t).kcp.rcvQueue) (paused : (base t).Paused)
    (ended : (base t).Ended) (wheel : ∃ r, TimeWheel.Refines timeWheel r ∧ ∀ other,
      r.Absent other ↔ ¬ (w.settle this t timeWheel).Open other) :
    (w.settle this t timeWheel).Holds := by
  refine ⟨wheel, ?_, ?_⟩
  · intro sessionId other entry
    by_cases here : other = this
    · subst here
      exact ⟨_, settle_self, by simpa using own sessionId entry⟩
    · obtain ⟨s, found, same⟩ := mapped sessionId other entry here
      exact ⟨s, (settle_other here).trans found, same⟩
  · intro other s found
    by_cases here : other = this
    · subst here
      cases settle_self.symm.trans found
      exact ⟨by simp, by simpa using drained, by simpa [Session.Paused] using paused,
        by simpa [Session.Ended] using ended⟩
    · exact quiet other s ((settle_other here).symm.trans found) here

/-- A handler of a session keeps the invariant, and the wheel can do what it asks. -/
theorem Holds.handled {s : S} (h : w.Holds) (found : w.sessions this = some s)
    (step : Session.Handled (base s) (base t)) :
    ∃ timeWheel, callsOnWheel this w.timeWheel (base t).calls = some timeWheel ∧
      (w.settle this t timeWheel).Holds := by
  obtain ⟨r, refines, absent⟩ := h.wheel
  have quiet := h.quiet this s found
  have sessions (timeWheel : TimeWheel Nat) := Holds.settle_sessions (w := w) (t := t) timeWheel
    (fun sessionId other entry _ => h.mapped sessionId other entry)
    (fun sessionId entry => by
      obtain ⟨s', found', same⟩ := h.mapped sessionId this entry
      cases found.symm.trans found'
      exact step.sessionId.trans same)
    (fun other s found _ => h.quiet other s found) (step.drained quiet.drained)
      (step.paused quiet.paused)
    (step.ended quiet.ended)
  have openThis : w.Open this ↔ (base s).sessionClose = false := by simp [Open, found]
  rcases step.asks quiet.calls with ⟨flag, nodes⟩ | ⟨unclosed, closed, asked⟩
  · refine ⟨w.timeWheel, callsOnWheel_takesNode nodes _, sessions _ ⟨r, refines, ?_⟩⟩
    intro other
    rw [absent other]
    by_cases here : other = this
    · subst here
      rw [open_settle_self, openThis, flag]
    · rw [open_settle_other here]
  · have linked : ∃ i, this ∈ r.slot i := by
      simpa [Slots.Absent] using mt (absent this).mp (not_not.mpr (openThis.mpr unclosed))
    obtain ⟨i, member⟩ := linked
    obtain ⟨timeWheel, removed, refines'⟩ := refines.removeTask member
    refine ⟨timeWheel, ?_, sessions _ ⟨_, refines', ?_⟩⟩
    · simp [asked, callsOnWheel, Call.onWheel, removed]
    · intro other
      rw [TimeWheel.absent_remove_iff refines.distinct, absent other]
      by_cases here : other = this
      · subst here
        simp [open_settle_self, closed]
      · simp [open_settle_other here, here]

theorem Holds.run {f : S → Option S} {w' : Worker S α} (h : w.Holds) (ran : w.run this f = some w')
    (step : ∀ s t, w.sessions this = some s → f s = some t → Session.Handled (base s) (base t)) :
    w'.Holds := by
  obtain ⟨s, t, timeWheel, found, handled, called, rfl⟩ := run_cases ran
  obtain ⟨v, same, holds⟩ := h.handled found (step s t found handled)
  cases same.symm.trans called
  exact holds

/-- A new session is constructed, put into the map and started. -/
theorem Holds.register {f : S → Option S} {s t : S} {sessionId : SessionId} {nextTime : UInt32}
    (h : w.Holds)
    (started : f s = some t) (unused : w.sessions this = none) (new : w.sessionMap sessionId = none)
    (calls : (base t).calls = [.mountTask nextTime])
    (unclosed : (base t).sessionClose = false) (own : (base t).sessionId = sessionId)
    (drained : Session.Drained (base t).kcp.rcvQueue) (paused : (base t).Paused)
    (ended : (base t).Ended) :
    ∃ w', ((w.construct this s).emplace sessionId this).run this f = some w' ∧ w'.Holds ∧
      w'.sessions = Function.update w.sessions this
        (some (lift (fun t => { t with calls := [] }) t)) ∧
      w'.sessionMap = Function.update w.sessionMap sessionId (some this) := by
  obtain ⟨r, refines, absent⟩ := h.wheel
  obtain ⟨v, placed⟩ : ∃ v, v = (w.construct this s).emplace sessionId this := ⟨_, rfl⟩
  have sessions : v.sessions = Function.update w.sessions this (some s) := by rw [placed]; rfl
  have map : v.sessionMap = Function.update w.sessionMap sessionId (some this) := by
    rw [placed]
    simp [emplace, construct, getMemory, new]
  have hangsNot : r.Absent this := (absent this).mpr fun ⟨s', found, _⟩ => by
    rw [unused] at found
    cases found
  obtain ⟨timeWheel, mounted, refines', -⟩ :=
    (refines.registerTask hangsNot).mountTask hangsNot nextTime
  have mounted :
      v.timeWheel.mountTask this nextTime = some timeWheel := by rw [placed]; exact mounted
  rw [← placed]
  refine ⟨v.settle this t timeWheel, run_eq (by rw [sessions, Function.update_self]) started ?_,
    Holds.settle_sessions _ ?_ ?_ ?_ drained paused ended ⟨_, refines', ?_⟩, ?_, map⟩
  · simp [calls, callsOnWheel, Call.onWheel, mounted]
  · intro id other entry apart
    rw [map] at entry
    by_cases same : id = sessionId
    · subst same
      rw [Function.update_self] at entry
      exact absurd (Option.some.inj entry).symm apart
    · rw [Function.update_of_ne same] at entry
      rw [sessions, Function.update_of_ne apart]
      exact h.mapped id other entry
  · intro id entry
    rw [map] at entry
    by_cases same : id = sessionId
    · rw [own, same]
    · rw [Function.update_of_ne same] at entry
      obtain ⟨s', found, -⟩ := h.mapped id this entry
      rw [unused] at found
      cases found
  · intro other s' found apart
    rw [sessions, Function.update_of_ne apart] at found
    exact h.quiet other s' found
  · intro other
    rw [TimeWheel.absent_mount_iff, absent other]
    by_cases here : other = this
    · subst here
      simp [open_settle_self, unclosed]
    · rw [open_settle_other here, Open, Open, sessions, Function.update_of_ne here]
      simp [here]
  · rw [settle, sessions, Function.update_idem]

theorem Holds.of_same {w' : Worker S α} (h : w.Holds) (map : w'.sessionMap = w.sessionMap)
    (sessions : w'.sessions = w.sessions) (wheel : w'.timeWheel = w.timeWheel) : w'.Holds := by
  obtain ⟨r, refines, absent⟩ := h.wheel
  refine ⟨⟨r, wheel ▸ refines, ?_⟩, ?_, ?_⟩
  · intro other
    rw [absent other, Open, Open, sessions]
  · rw [map, sessions]
    exact h.mapped
  · rw [sessions]
    exact h.quiet

theorem Holds.setBuffer (h : w.Holds) (buf : Bytes bufferSize) : (w.setBuffer buf).Holds :=
  h.of_same rfl rfl rfl

theorem Holds.rearm (h : w.Holds) : w.rearm.Holds := h.of_same rfl rfl rfl

theorem started_holds (started : w.Started) : w.Holds := by
  obtain ⟨wheel, buf, fresh, rfl⟩ := started
  refine ⟨⟨_, TimeWheel.fresh_refines fresh, ?_⟩, by simp, by simp⟩
  intro other
  simp [Slots.Absent, Open]

theorem Holds.tick {now : UInt32} {nextTime : Nat → UInt32} {wheel : TimeWheel Nat}
    {driven : List Nat} (h : w.Holds) (tick : TimeWheel.Ticks w.timeWheel
      (fun this => Session.driveSessionTimeClock now (nextTime this)) wheel driven) :
    Holds { w with timeWheel := wheel } := by
  obtain ⟨r, refines, absent⟩ := h.wheel
  refine ⟨⟨_, (refines.of_ticks tick).2, ?_⟩, h.mapped, h.quiet⟩
  intro other
  rw [TimeWheel.absent_apply_tick fun t => Session.driveSessionTimeClock_pos now (nextTime t)]
  exact absent other

theorem Holds.common {A : AesGcm} {other : Int → Fin 4} {handle : S → Session.Event → Option S}
    {addressed : S → Packet → α} (handled : ∀ s e t, (base s).Enabled e → handle s e = some t →
      Session.Handled (base s) (base t)) {w' : Worker S α} {e : Event} (h : w.Holds)
    (step : CommonStep A other handle addressed w e w') : w'.Holds := by
  cases step with
  | session _ found enabled ran =>
      refine h.run ran fun s t here run => handled s _ t ?_ run
      cases found.symm.trans here
      exact enabled
  | kcpCallBack node called =>
      obtain ⟨q, requests, rfl⟩ := kcpCallBack_cases called
      exact h.of_same rfl rfl rfl
  | sent _ _ => exact h.of_same rfl rfl rfl
  | doCurrentTimeWheel tick => exact h.tick tick

theorem Holds.arrive {datagram : List UInt8} {w' : Worker S α} (h : w.Holds)
    (arrived : w.arrive datagram = some w') : w'.Holds := by
  obtain ⟨buf, -, rfl⟩ := Option.map_eq_some_iff.mp arrived
  exact h.of_same rfl rfl rfl

omit [Served S] in
theorem decode_cases {A : AesGcm}
    {deliver : Worker S α → SessionId → Int → List UInt8 → Option (Worker S α)}
    {bytesHadRead : Nat} {calls : DecryptCalls} {w' : Worker S α}
    (decoded : w.decode A deliver bytesHadRead calls = some w') :
    ∃ buf sessionId len v, deliver (w.setBuffer buf) sessionId len (data buf len) = some v ∧
      w' = v.rearm := by
  simp only [decode, Option.bind_eq_bind, Option.bind_eq_some_iff] at decoded
  obtain ⟨⟨buf, r⟩, -, sessionId, -, v, done, eq⟩ := decoded
  cases eq
  exact ⟨buf, sessionId, _, v, done, rfl⟩

end
end Worker

namespace Home

theorem deliver_holds {calls : Worker.ReceiveCalls} {w w' : Worker} {sessionId : SessionId}
    {len : Int}
    {data : List UInt8} (h : w.Holds) (delivered : deliver calls w sessionId len data = some w') :
    w'.Holds := by
  unfold deliver at delivered
  split at delivered
  · exact h.run delivered fun s t _ handled => handled_inputToKcp handled
  · cases delivered
    exact h

/-- A session that has just been registered, its task on the wheel. -/
def registered (randomId : SessionId) (endpoint : Endpoint) : Session :=
  sendIpAndportToServer (.create randomId) endpoint

theorem registerSession_eq {w : Worker} {this : Nat} {randomId : SessionId} (h : w.Holds)
    (unused : w.sessions this = none) (new : w.sessionMap randomId = none) (sessionId : SessionId)
    (nextTime : UInt32) (endpoint : Endpoint) :
    ∃ v, registerSession (w.construct this (.create sessionId)) randomId this nextTime endpoint =
      some v ∧ v.Holds ∧
      v.sessions = Function.update w.sessions this (some (registered randomId endpoint)) ∧
      v.sessionMap = Function.update w.sessionMap randomId (some this) :=
  h.register (s := Session.create sessionId)
    (f := fun s => some (start (s.setSessionId randomId) nextTime endpoint))
    rfl unused new rfl rfl rfl Session.drained_nil
      (fun busy => by cases busy) fun closed => by cases closed

theorem step_holds {A : AesGcm} {other : Int → Fin 4} {w w' : Worker} {e : Worker.Event}
    (h : w.Holds) (step : Step A other w e w') : w'.Holds := by
  cases step with
  | common step =>
      exact h.common (fun s e t enabled handled => handled_step ⟨enabled, handled⟩) step
  | receive _ arrived received =>
      rw [receiveHandler, if_neg Bool.false_ne_true] at received
      obtain ⟨buf, sessionId, len, v, delivered, rfl⟩ := Worker.decode_cases received
      exact (deliver_holds ((h.arrive arrived).setBuffer buf) delivered).rearm
  | receiveError _ received =>
      cases received
      exact h.of_same rfl rfl rfl
  | @registerSession _ _ sessionId nextTime endpoint _ unused new registered =>
      obtain ⟨v, ran, holds, -⟩ := registerSession_eq h unused new sessionId nextTime endpoint
      cases ran.symm.trans registered
      exact holds

theorem reachable_holds {A : AesGcm} {other : Int → Fin 4} {w : Worker}
    (reachable : Reachable (Step A other) Worker.Started w) : w.Holds :=
  reachable.invariant (I := Worker.Holds) (fun _ => Worker.started_holds) fun _ _ _ => step_holds

end Home

namespace Vps

/-- A session that has just been registered, its task on the wheel. -/
def registered (new : NewSession) (sessionId : SessionId) : Session where
  toSession := { TransparentProxyNet.Session.create sessionId with }
  homeClienEndpoint := new.homeClienEndpoint
  enableToSendToTargetServer := false

/-- What the receive handler does first for an unknown id. -/
theorem registerSession_eq {w : Worker} {new : NewSession} {sessionId : SessionId} (h : w.Holds)
    (unused : w.sessions new.this = none) (unknown : w.sessionMap sessionId = none) :
    ∃ v, registerSession (w.construct new.this (.create new.sessionId new.homeClienEndpoint))
      sessionId new.this
        new.nextTime = some v ∧ v.Holds ∧
      v.sessions = Function.update w.sessions new.this (some (registered new sessionId)) ∧
      v.sessionMap = Function.update w.sessionMap sessionId (some new.this) :=
  h.register (s := Session.create new.sessionId new.homeClienEndpoint)
    (f := fun s => some (start (s.lift (·.setSessionId sessionId)) new.nextTime)) rfl unused unknown
      rfl rfl rfl
    TransparentProxyNet.Session.drained_nil
      (fun busy => by cases busy) fun closed => by cases closed

theorem deliver_holds {calls : Worker.ReceiveCalls} {new : NewSession} {w w' : Worker}
    {sessionId : SessionId}
    {len : Int} {data : List UInt8} (h : w.Holds) (unused : w.sessions new.this = none)
    (delivered : deliver calls new w sessionId len data = some w') : w'.Holds := by
  unfold deliver at delivered
  split at delivered
  · exact h.run delivered fun s t _ handled => handled_inputToKcp handled
  · rename_i unknown
    obtain ⟨v, registered, holds, -⟩ := registerSession_eq h unused unknown
    simp only [Option.bind_eq_bind, registered, Option.bind_some] at delivered
    exact holds.run delivered fun s t _ handled => handled_inputToKcp handled

theorem step_holds {A : AesGcm} {other : Int → Fin 4} {w w' : Worker} {e : Worker.Event}
    (h : w.Holds) (step : Step A other w e w') : w'.Holds := by
  cases step with
  | common step =>
      exact h.common (fun s e t enabled handled => handled_step ⟨enabled, handled⟩) step
  | receive _ arrived unused received =>
      rw [receiveHandler, if_neg Bool.false_ne_true] at received
      have arrive := h.arrive arrived
      obtain ⟨buf, -, rfl⟩ := Option.map_eq_some_iff.mp arrived
      split at received
      · cases received
        exact arrive.rearm
      · obtain ⟨buf', sessionId, len, v, delivered, rfl⟩ := Worker.decode_cases received
        exact (deliver_holds (arrive.setBuffer buf') unused delivered).rearm
  | receiveError _ received =>
      cases received
      exact h.of_same rfl rfl rfl

theorem reachable_holds {A : AesGcm} {other : Int → Fin 4} {w : Worker}
    (reachable : Reachable (Step A other) Worker.Started w) : w.Holds :=
  reachable.invariant (I := Worker.Holds) (fun _ => Worker.started_holds) fun _ _ _ => step_holds

end Vps
end TransparentProxyNet
