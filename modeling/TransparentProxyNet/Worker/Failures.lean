import TransparentProxyNet.Session.Closing
import TransparentProxyNet.Worker.EndOfStream
import TransparentProxyNet.Worker.RoundTrip

/-! What becomes of a session of the VPS side when the handler of a connect, a read or a
write is given an error. -/
namespace TransparentProxyNet
open Machine

/-- A handler of the TCP socket runs with an error. -/
def Session.HandlerFails (e : Session.Event) : Prop :=
  Session.Fails e ∨ ∃ i, e = .connectHandler i true

namespace Vps
open Worker (OnSessions answered)
open TransparentProxyNet.Session (HandlerFails Closes)

/-- A handler of the session at `this` has run with an error. -/
def Failed (this : Nat) (es : List Worker.Event) : Prop :=
  ∃ e ∈ es, ∃ f, e = .session this f ∧ HandlerFails f

/-- The session is closed, off the wheel, and takes no more messages. -/
structure GivenUp (w : Worker) (this : Nat) (s : Session) : Prop where
  sessionClose : s.sessionClose = true
  unlinked : ¬ TimeWheel.Linked w.timeWheel this
  deque : ∀ len input old t, inputToKcp s len input old = some t →
    t.tcpDataWaitForSendDeque.items.length ≤ s.tcpDataWaitForSendDeque.items.length

/-- No connect of an open session fails: if the handler of a connect is given an error, then
the session is closed already. -/
def NoConnectFailure (s : Session) (e : TransparentProxyNet.Session.Event) : Prop :=
  ∀ i, e = .connectHandler i true → s.sessionClose = true

variable {A : AesGcm} {other : Int → Fin 4} {w w' : Worker} {e : Worker.Event} {this : Nat}
  {f : TransparentProxyNet.Session.Event}

/-- The step that is a handler of a session. -/
theorem session_step (step : Step A other w (.session this f) w') :
    ∃ s t, w.sessions this = some s ∧ SessionStep s f t ∧
      w'.sessions this = some (answered t) := by
  cases step with
  | common step =>
      cases step with
      | session _ found enabled ran =>
          rcases Worker.run_sessions ran found with ⟨-, t, handled, found'⟩ | ⟨apart, -⟩
          · exact ⟨_, t, found, ⟨enabled, handled⟩, found'⟩
          · exact absurd rfl apart

theorem GivenUp.of_closed {s : Session} (h : w.Holds) (found : w.sessions this = some s)
    (closed : s.sessionClose = true) : GivenUp w this s := by
  refine ⟨closed, ?_, ?_⟩
  · intro linked
    obtain ⟨t, same, unclosed⟩ := (h.linked_iff this).mp linked
    cases found.symm.trans same
    cases closed.symm.trans unclosed
  · intro len input old t handled
    rw [inputToKcp, if_pos closed] at handled
    cases handled
    exact Nat.le_refl _

def Closed (this : Nat) (w : Worker) : Prop :=
  ∃ s, w.sessions this = some s ∧ s.sessionClose = true

/-- A failure closes the session, if it is not one of a connect, and no step opens it
again. -/
theorem closed_step (h : w.Holds) (step : Step A other w e w')
    (guard : OnSessions NoConnectFailure w e)
    (now : Closed this w ∨ ∃ f, e = .session this f ∧ HandlerFails f) : Closed this w' := by
  rcases now with ⟨s, found, closed⟩ | ⟨f, rfl, fails⟩
  · obtain ⟨t, found', stays⟩ := step_stays h step found
    exact ⟨t, found', (stays.closed closed).1⟩
  · obtain ⟨s, t, found, moved, found'⟩ := session_step step
    refine ⟨_, found', ?_⟩
    have closes : t.sessionClose = true := by
      rw [handle_closed moved.2]
      rcases fails with fails | ⟨i, rfl⟩
      · exact .inr (.inl fails)
      · exact .inl (guard this _ rfl s found i rfl)
    exact (congrArg TransparentProxyNet.Session.sessionClose (Worker.base_answered t)).trans closes

end Vps

/-- A failure of a read or a write retires the session, and so does one of a connect if
the session is closed already; otherwise the session stays as it is. -/
theorem failure_retires (A : AesGcm) (other : Int → Fin 4) :
    (∀ w es w', Worker.Started w →
      Trace (Guarded (Worker.OnSessions Vps.NoConnectFailure) (Vps.Step A other)) w es w' →
      ∀ this, Vps.Failed this es → ∃ s, w'.sessions this = some s ∧ Vps.GivenUp w' this s) ∧
    (∀ w e w', Vps.Step A other w e w' → ¬ Worker.OnSessions Vps.NoConnectFailure w e →
      ∃ this, Vps.Failed this [e] ∧ ∃ s, w'.sessions this = some s ∧ ¬ Vps.GivenUp w' this s) := by
  constructor
  · intro w es w' started trace this failed
    have holds := Worker.started_holds started
    have kept : ∀ v e v', v.Holds →
        Guarded (Worker.OnSessions Vps.NoConnectFailure) (Vps.Step A other) v e v' → v'.Holds :=
      fun _ _ _ h step => Vps.step_holds h step.1
    obtain ⟨s, found, closed⟩ := trace.latched (P := Vps.Closed this) kept
      (fun _ _ _ h step => Vps.closed_step h step.1 step.2) holds (.inr failed)
    exact ⟨s, found, .of_closed (trace.invariant kept holds) found closed⟩
  · intro w e w' step bad
    simp only [Worker.OnSessions, Vps.NoConnectFailure, not_forall] at bad
    obtain ⟨this, f, rfl, s, found, i, rfl, unclosed⟩ := bad
    refine ⟨this, ⟨_, List.mem_singleton_self _, _, rfl, .inr ⟨i, rfl⟩⟩, ?_⟩
    obtain ⟨s', t, same, moved, found'⟩ := Vps.session_step step
    cases found.symm.trans same
    refine ⟨_, found', fun givenUp => unclosed ?_⟩
    have closed : t.sessionClose = true := givenUp.sessionClose
    rw [Vps.handle_closed moved.2] at closed
    exact closed.resolve_right (by simp [Session.Closes, Session.Fails])

namespace Vps
open Worker (answered)

/-- The session that a segment with the destination makes on a worker. -/
def connecting : Session :=
  { Session.create (.replicate 16 0) ⟨1, 5000⟩ with
    connects := [(⟨1, 80⟩, none)] }

theorem exists_connecting : ∃ w, Reachable (Step .sample fun _ => 0) Worker.Started w ∧ w.Holds ∧
    w.sessions 7 = some connecting := by
  obtain ⟨w₀, w, datagram, started, received, holds, found⟩ :=
    exists_received [TransparentProxyNet.Session.statusAndData ⟨1, 80⟩] rfl
  exact ⟨w, (Reachable.init started).trace (.single received), holds, found⟩

/-- The target refuses the connection: the session stays open and on the wheel. -/
theorem refused_connect_lingers :
    ¬ ∀ (A : AesGcm) (other : Int → Fin 4) w es w', Worker.Started w →
      Trace (Step A other) w es w' → ∀ this, Failed this es →
      ∃ s, w'.sessions this = some s ∧ GivenUp w' this s := by
  intro always
  obtain ⟨w, ⟨w₀, es, started, trace⟩, holds, found⟩ := exists_connecting
  have refused : SessionStep connecting (.connectDone 0 false)
      { connecting with connects := [(⟨1, 80⟩, some false)] } := ⟨by decide, rfl⟩
  obtain ⟨v, ended, holds, found⟩ := exists_step .sample (fun _ => 0) holds found rfl refused
  have failed : SessionStep (answered { connecting with connects := [(⟨1, 80⟩, some false)] })
      (.connectHandler 0 true) { connecting with connects := [] } := ⟨by decide, rfl⟩
  obtain ⟨u, handled, holds, found⟩ := exists_step .sample (fun _ => 0) holds found rfl failed
  obtain ⟨s, same, givenUp⟩ := always _ _ w₀ _ u started
    (trace.append (.cons ended (.single handled))) 7
    ⟨.session 7 (.connectHandler 0 true), by simp, _, rfl, .inr ⟨0, rfl⟩⟩
  cases found.symm.trans same
  cases givenUp.sessionClose

end Vps
end TransparentProxyNet
