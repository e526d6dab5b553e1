import TransparentProxyNet.Worker.Invariant

/-! A step of a worker is, for each of its sessions, no step or one of the session's own.
So what the steps of a session keep holds of every session of a worker. -/
namespace TransparentProxyNet
open Machine

namespace Worker
variable {S α : Type}

/-- The session that the receive handler finds under an id. -/
def lookup (w : Worker S α) (sessionId : SessionId) : Option S :=
  (w.sessionMap sessionId).bind w.sessions

variable [Served S]

/-- A session whose calls the worker has answered. -/
def answered (s : S) : S := lift (fun t => { t with calls := [] }) s

@[simp] theorem base_answered (s : S) : base (answered s) = { base s with calls := [] } :=
  base_lift _ s

/-- What a step of the worker means for the session at `this`. -/
inductive Moves (Step : S → Session.Event → S → Prop) (this : Nat) : Event → S → S → Prop
  | idle {e s} : (∀ e', e ≠ .session this e') → Moves Step this e s s
  | handler {e s t} : onSocket e → Step s e t → Moves Step this (.session this e) s (answered t)
  | input {datagram len input old s t} : Step s (.inputToKcp len input old) t →
      Moves Step this (.receive false datagram) s (answered t)

/-- A condition on what happens to the sessions of a worker. -/
def OnSessions (G : S → Session.Event → Prop) (w : Worker S α) (e : Event) : Prop :=
  ∀ this e', e = .session this e' → ∀ s, w.sessions this = some s → G s e'

def Each (I : S → Prop) (w : Worker S α) : Prop := ∀ this s, w.sessions this = some s → I s

section
variable {Step : S → Session.Event → S → Prop} {w w' : Worker S α} {this : Nat} {s t : S}

/-- The step lemma of a session, for the steps of its worker. -/
theorem Moves.keeps {I : S → Prop} {G : S → Session.Event → Prop} {e : Event}
    (kept : ∀ s e t, I s → Step s e t → G s e → I (answered t))
    (free : ∀ s len input old, G s (.inputToKcp len input old))
    (moves : Moves Step this e s t) (found : w.sessions this = some s) (guard : OnSessions G w e)
    (holds : I s) : I t := by
  cases moves with
  | idle _ => exact holds
  | handler _ step => exact kept _ _ _ holds step (guard this _ rfl _ found)
  | input step => exact kept _ _ _ holds step (free ..)

omit [Served S] in
theorem OnSessions.session {G : S → Session.Event → Prop} {f : Session.Event}
    (found : w.sessions this = some s) (good : G s f) : OnSessions G w (.session this f) := by
  intro that g same t here
  cases same
  cases found.symm.trans here
  exact good

/-- A function that runs for the session at `p` leaves the others alone. -/
theorem run_sessions {p : Nat} {f : S → Option S} (ran : w.run p f = some w')
    (found : w.sessions this = some s) :
    (this = p ∧ ∃ t, f s = some t ∧ w'.sessions this = some (answered t)) ∨
      (this ≠ p ∧ w'.sessions this = some s) := by
  obtain ⟨u, t, timeWheel, here, handled, -, rfl⟩ := run_cases ran
  by_cases same : this = p
  · subst same
    cases found.symm.trans here
    exact .inl ⟨rfl, t, handled, settle_self⟩
  · exact .inr ⟨same, (settle_other same).trans found⟩

theorem run_new {p : Nat} {f : S → Option S} (ran : w.run p f = some w')
    (unused : w.sessions this = none) : w'.sessions this = none := by
  obtain ⟨u, t, timeWheel, here, -, -, rfl⟩ := run_cases ran
  have other : this ≠ p := by
    rintro rfl
    cases unused.symm.trans here
  exact (settle_other other).trans unused

section
variable {A : AesGcm} {other : Int → Fin 4} {handle : S → Session.Event → Option S}
  {addressed : S → Packet → α} {e : Event}

theorem common_moves (handled : ∀ s e t, (base s).Enabled e → handle s e = some t → Step s e t)
    (step : CommonStep A other handle addressed w e w') (found : w.sessions this = some s) :
    ∃ t, w'.sessions this = some t ∧ Moves Step this e s t := by
  cases step with
  | session socket here enabled ran =>
      rcases run_sessions ran found with ⟨rfl, t, handles, found'⟩ | ⟨other, found'⟩
      · cases found.symm.trans here
        exact ⟨_, found', .handler socket (handled _ _ _ enabled handles)⟩
      · refine ⟨s, found', .idle ?_⟩
        rintro e' eq
        cases eq
        exact other rfl
  | kcpCallBack node called =>
      obtain ⟨q, requests, rfl⟩ := kcpCallBack_cases called
      exact ⟨s, found, .idle (by simp)⟩
  | sent _ _ => exact ⟨s, found, .idle (by simp)⟩
  | doCurrentTimeWheel _ => exact ⟨s, found, .idle (by simp)⟩

/-- A handler that can run makes a step. -/
theorem exists_common (handled : ∀ s e t, (base s).Enabled e → handle s e = some t →
      Session.Handled (base s) (base t)) (h : w.Holds) (found : w.sessions this = some s)
    {f : Session.Event} (socket : onSocket f = true) (enabled : (base s).Enabled f)
    (run : handle s f = some t) : ∃ w', CommonStep A other handle addressed w (.session this f) w' ∧
      w'.Holds ∧ w'.sessions this = some (answered t) := by
  obtain ⟨wheel, asked, holds⟩ := h.handled found (handled s f t enabled run)
  exact ⟨_, .session socket found enabled (run_eq found run asked), holds, settle_self⟩

/-- What a session can do on its own, its worker can let it do. -/
theorem exists_trace {Step : Worker S α → Event → Worker S α → Prop}
    {SessionStep : S → Session.Event → S → Prop} (fs : List Session.Event)
    (taken : ∀ (w : Worker S α) s f t, w.Holds → w.sessions this = some s → SessionStep s f t →
      ∃ w', Step w (.session this f) w' ∧ w'.Holds ∧ w'.sessions this = some (answered t))
    (run : Trace (fun s f t => ∃ u, SessionStep s f u ∧ answered u = t) s fs t) (h : w.Holds)
    (found : w.sessions this = some s) : ∃ w', Trace Step w (fs.map (.session this)) w' ∧
      w'.Holds ∧ w'.sessions this = some t := by
  induction run generalizing w with
  | nil => exact ⟨w, .nil w, h, found⟩
  | cons first rest ih =>
      obtain ⟨u, moved, rfl⟩ := first
      obtain ⟨v, step, holds, found⟩ := taken w _ _ u h found moved
      obtain ⟨w', trace, done⟩ := ih holds found
      exact ⟨w', .cons step trace, done⟩

theorem common_new (step : CommonStep A other handle addressed w e w')
    (unused : w.sessions this = none) : w'.sessions this = none := by
  cases step with
  | session _ _ _ ran => exact run_new ran unused
  | kcpCallBack node called =>
      obtain ⟨q, requests, rfl⟩ := kcpCallBack_cases called
      exact unused
  | sent _ _ => exact unused
  | doCurrentTimeWheel _ => exact unused

end
end
end Worker

namespace Home
open Worker (Moves answered Each OnSessions)

variable {A : AesGcm} {other : Int → Fin 4} {w w' : Worker} {e : Worker.Event} {this : Nat}

theorem deliver_moves (datagram : List UInt8) {calls : Worker.ReceiveCalls} {sessionId : SessionId}
    {len : Int} {data : List UInt8} {s : Session}
    (delivered : deliver calls w sessionId len data = some w') (found : w.sessions this = some s) :
    ∃ t, w'.sessions this = some t ∧ Moves SessionStep this (.receive false datagram) s t := by
  unfold deliver at delivered
  split at delivered
  · rcases Worker.run_sessions delivered found with ⟨rfl, t, handled, found'⟩ | ⟨-, found'⟩
    · exact ⟨_, found', .input ⟨trivial, handled⟩⟩
    · exact ⟨s, found', .idle (by simp)⟩
  · cases delivered
    exact ⟨s, found, .idle (by simp)⟩

theorem step_moves {s : Session} (h : w.Holds) (step : Step A other w e w')
    (found : w.sessions this = some s) :
    ∃ t, w'.sessions this = some t ∧ Moves SessionStep this e s t := by
  cases step with
  | common step =>
      exact Worker.common_moves (fun _ _ _ enabled handled => ⟨enabled, handled⟩) step found
  | @receive _ _ datagram _ _ arrived received =>
      obtain ⟨buf, -, rfl⟩ := Option.map_eq_some_iff.mp arrived
      rw [receiveHandler, if_neg Bool.false_ne_true] at received
      obtain ⟨buf', sessionId, len, v, delivered, rfl⟩ := Worker.decode_cases received
      exact (deliver_moves datagram delivered found).imp fun t moved => moved
  | receiveError _ received =>
      cases received
      exact ⟨s, found, .idle (by simp)⟩
  | @registerSession p randomId sessionId nextTime endpoint _ unused new registered =>
      obtain ⟨v, ran, -, sessions, -⟩ := registerSession_eq h unused new sessionId nextTime endpoint
      cases ran.symm.trans registered
      have apart : this ≠ p := by
        rintro rfl
        cases unused.symm.trans found
      exact ⟨s, by rw [sessions, Function.update_of_ne apart, found], .idle (by simp)⟩

theorem exists_step (A : AesGcm) (other : Int → Fin 4) {s t : Session} {f : Session.Event}
    (h : w.Holds) (found : w.sessions this = some s) (socket : Worker.onSocket f = true)
    (moved : SessionStep s f t) : ∃ w', Step A other w (.session this f) w' ∧ w'.Holds ∧
      w'.sessions this = some (answered t) := by
  obtain ⟨w', step, done⟩ := Worker.exists_common
    (fun (_ : Session) _ _ enabled run => handled_step ⟨enabled, run⟩) h found socket
      moved.1 moved.2
  exact ⟨w', .common step, done⟩

/-- The only way to a new session. -/
theorem step_new {t : Session} (h : w.Holds) (step : Step A other w e w')
    (unused : w.sessions this = none) (found : w'.sessions this = some t) :
    ∃ randomId endpoint, e = .registerSession this randomId ∧ t = registered randomId endpoint := by
  cases step with
  | common step => cases (Worker.common_new step unused).symm.trans found
  | receive _ arrived received =>
      obtain ⟨buf, -, rfl⟩ := Option.map_eq_some_iff.mp arrived
      rw [receiveHandler, if_neg Bool.false_ne_true] at received
      obtain ⟨buf', sessionId, len, v, delivered, rfl⟩ := Worker.decode_cases received
      unfold deliver at delivered
      split at delivered
      · cases (Worker.run_new delivered unused).symm.trans found
      · cases delivered
        cases unused.symm.trans found
  | receiveError _ received =>
      cases received
      cases unused.symm.trans found
  | @registerSession p randomId sessionId nextTime endpoint _ free new registered =>
      obtain ⟨v, ran, -, sessions, -⟩ := registerSession_eq h free new sessionId nextTime endpoint
      cases ran.symm.trans registered
      by_cases here : this = p
      · subst here
        rw [sessions, Function.update_self] at found
        exact ⟨randomId, endpoint, rfl, (Option.some.inj found).symm⟩
      · rw [sessions, Function.update_of_ne here, unused] at found
        cases found

/-- A worker with its first connection. -/
theorem exists_connection (A : AesGcm) (other : Int → Fin 4) : ∃ w v, Worker.Started w ∧
    Step A other w (.registerSession 7 (.replicate 16 1)) v ∧ v.Holds ∧
    v.sessions 7 = some (registered (.replicate 16 1) ⟨1, 80⟩) := by
  obtain ⟨w, started, unused, unknown, -⟩ := Worker.exists_started (S := Session) (α := Packet)
  obtain ⟨v, ran, holds, sessions, -⟩ :=
    registerSession_eq (Worker.started_holds started) (unused 7) (unknown (.replicate 16 1))
      (.replicate 16 0) 10 ⟨1, 80⟩
  refine ⟨w, v, started, .registerSession (unused 7) (unknown _) ran, holds, ?_⟩
  rw [sessions, Function.update_self]

/-- A connection that its client closes at once. -/
theorem exists_ended (A : AesGcm) (other : Int → Fin 4) : ∃ w v v', Worker.Started w ∧
    Step A other w (.registerSession 7 (.replicate 16 1)) v ∧
    Step A other v (.session 7 (.readDone 0 .eof)) v' ∧ v'.Holds ∧
    v'.sessions 7 = some (answered ((registered (.replicate 16 1) ⟨1, 80⟩).readDone 0 .eof)) := by
  obtain ⟨w, v, started, registers, holds, found⟩ := exists_connection A other
  have ended : SessionStep (registered (.replicate 16 1) ⟨1, 80⟩) (.readDone 0 .eof)
      ((registered (.replicate 16 1) ⟨1, 80⟩).readDone 0 .eof) := ⟨by decide, rfl⟩
  obtain ⟨v', read, holds', found'⟩ := exists_step A other holds found rfl ended
  exact ⟨w, v, v', started, registers, read, holds', found'⟩

/-- What the steps of a session keep, every session of a worker has. -/
theorem reachable_each {I : Session → Prop} {G : Session → Session.Event → Prop}
    (initially : ∀ randomId endpoint, I (registered randomId endpoint))
    (kept : ∀ s e t, I s → SessionStep s e t → G s e → I (answered t))
    (free : ∀ s len input old, G s (.inputToKcp len input old))
    (reachable : Reachable (Guarded (OnSessions G) (Step A other)) Worker.Started w) :
    w.Holds ∧ Each I w := by
  refine reachable.invariant (I := fun w => w.Holds ∧ Each I w) ?_ ?_
  · rintro w ⟨wheel, buf, fresh, rfl⟩
    exact ⟨Worker.started_holds ⟨wheel, buf, fresh, rfl⟩, fun this s found => by cases found⟩
  · rintro w e w' ⟨holds, each⟩ ⟨step, guard⟩
    refine ⟨step_holds holds step, fun this t found' => ?_⟩
    cases found : w.sessions this with
    | none =>
        obtain ⟨randomId, endpoint, -, rfl⟩ := step_new holds step found found'
        exact initially randomId endpoint
    | some s =>
        obtain ⟨u, same, moves⟩ := step_moves holds step found
        cases same.symm.trans found'
        exact moves.keeps kept free found guard (each this s found)

end Home

namespace Vps
open Worker (Moves answered Each OnSessions)

variable {A : AesGcm} {other : Int → Fin 4} {w w' : Worker} {e : Worker.Event} {this : Nat}

/-- A new session, after the input that it was built for. -/
def Born (this : Nat) (t : Session) : Prop :=
  ∃ new sessionId len input old u, new.this = this ∧
    SessionStep (registered new sessionId) (.inputToKcp len input old) u ∧ t = answered u

theorem deliver_moves (datagram : List UInt8) {calls : Worker.ReceiveCalls} {new : NewSession}
    {sessionId : SessionId} {len : Int} {data : List UInt8} (h : w.Holds)
    (unused : w.sessions new.this = none)
    (delivered : deliver calls new w sessionId len data = some w') :
    (∀ s, w.sessions this = some s → ∃ t, w'.sessions this = some t ∧
      Moves SessionStep this (.receive false datagram) s t) ∧
    (w.sessions this = none → ∀ t, w'.sessions this = some t → Born this t) := by
  unfold deliver at delivered
  split at delivered
  · constructor
    · intro s found
      rcases Worker.run_sessions delivered found with ⟨rfl, t, handled, found'⟩ | ⟨-, found'⟩
      · exact ⟨_, found', .input ⟨trivial, handled⟩⟩
      · exact ⟨s, found', .idle (by simp)⟩
    · intro free t found'
      cases (Worker.run_new delivered free).symm.trans found'
  · rename_i unknown
    obtain ⟨v, started, -, sessions, -⟩ := registerSession_eq h unused unknown
    simp only [Option.bind_eq_bind, started, Option.bind_some] at delivered
    constructor
    · intro s found
      have apart : this ≠ new.this := by
        rintro rfl
        cases unused.symm.trans found
      have found : v.sessions this = some s := by rw [sessions, Function.update_of_ne apart, found]
      rcases Worker.run_sessions delivered found with ⟨same, -⟩ | ⟨-, found'⟩
      · exact absurd same apart
      · exact ⟨s, found', .idle (by simp)⟩
    · intro free t found'
      by_cases here : this = new.this
      · subst here
        have found : v.sessions new.this = some (registered new sessionId) := by
          rw [sessions, Function.update_self]
        rcases Worker.run_sessions delivered found with ⟨-, u, handled, same⟩ | ⟨apart, -⟩
        · cases same.symm.trans found'
          exact ⟨new, sessionId, _, _, _, u, rfl, ⟨trivial, handled⟩, rfl⟩
        · exact absurd rfl apart
      · have free : v.sessions this = none := by rw [sessions, Function.update_of_ne here, free]
        cases (Worker.run_new delivered free).symm.trans found'

theorem step_cases (h : w.Holds) (step : Step A other w e w') :
    (∀ s, w.sessions this = some s → ∃ t, w'.sessions this = some t ∧
      Moves SessionStep this e s t) ∧
    (w.sessions this = none → ∀ t, w'.sessions this = some t → Born this t) := by
  cases step with
  | common step =>
      constructor
      · intro s found
        exact Worker.common_moves (fun _ _ _ enabled handled => ⟨enabled, handled⟩) step found
      · intro free t found'
        cases (Worker.common_new step free).symm.trans found'
  | @receive _ _ datagram calls new _ arrived unused received =>
      have arrive := h.arrive arrived
      obtain ⟨buf, -, rfl⟩ := Option.map_eq_some_iff.mp arrived
      rw [receiveHandler, if_neg Bool.false_ne_true] at received
      split at received
      · cases received
        exact ⟨fun s found => ⟨s, found, .idle (by simp)⟩, fun free t found' => by
          cases free.symm.trans found'⟩
      · obtain ⟨buf', sessionId, len, v, delivered, rfl⟩ := Worker.decode_cases received
        exact (deliver_moves datagram (arrive.setBuffer buf') unused delivered).imp id id
  | receiveError _ received =>
      cases received
      exact ⟨fun s found => ⟨s, found, .idle (by simp)⟩, fun free t found' => by
        cases free.symm.trans found'⟩

theorem exists_step (A : AesGcm) (other : Int → Fin 4) {s t : Session}
    {f : TransparentProxyNet.Session.Event} (h : w.Holds)
    (found : w.sessions this = some s) (socket : Worker.onSocket f = true)
    (moved : SessionStep s f t) : ∃ w', Step A other w (.session this f) w' ∧ w'.Holds ∧
      w'.sessions this = some (answered t) := by
  obtain ⟨w', step, done⟩ := Worker.exists_common
    (fun (_ : Session) _ _ enabled run => handled_step ⟨enabled, run⟩) h found socket
      moved.1 moved.2
  exact ⟨w', .common step, done⟩

/-- What the steps of a session keep, every session of a worker has. -/
theorem reachable_each {I : Session → Prop} {G : Session → TransparentProxyNet.Session.Event → Prop}
    (initially : ∀ new sessionId, I (registered new sessionId))
    (kept : ∀ s e t, I s → SessionStep s e t → G s e → I (answered t))
    (free : ∀ s len input old, G s (.inputToKcp len input old))
    (reachable : Reachable (Guarded (OnSessions G) (Step A other)) Worker.Started w) :
    w.Holds ∧ Each I w := by
  refine reachable.invariant (I := fun w => w.Holds ∧ Each I w) ?_ ?_
  · rintro w ⟨wheel, buf, fresh, rfl⟩
    exact ⟨Worker.started_holds ⟨wheel, buf, fresh, rfl⟩, fun this s found => by cases found⟩
  · rintro w e w' ⟨holds, each⟩ ⟨step, guard⟩
    refine ⟨step_holds holds step, fun this t found' => ?_⟩
    obtain ⟨known, fresh⟩ := @step_cases A other w w' e this holds step
    cases found : w.sessions this with
    | none =>
        obtain ⟨new, sessionId, len, input, old, u, -, moved, rfl⟩ := fresh found t found'
        exact kept _ _ _ (initially new sessionId) moved (free ..)
    | some s =>
        obtain ⟨u, same, moves⟩ := known s found
        cases same.symm.trans found'
        exact moves.keeps kept free found guard (each this s found)

end Vps
end TransparentProxyNet
