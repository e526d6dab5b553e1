import TransparentProxyNet.Session.Failing
import TransparentProxyNet.Tunnel.Model
import TransparentProxyNet.Worker.Model

/-! What the two halves of a tunnel know of each other's end. The command `removeSession`
is never sent, and a half that receives it does nothing. -/
namespace TransparentProxyNet
open Machine

/-- Of one half nothing is under way but reads that wait for new data. -/
structure Session.Idle (s : Session) : Prop where
  reads : ∀ r ∈ s.reads, r = none
  writes : s.tcpDataWaitForSendDeque.pending = []
  connects : s.connects = []

namespace Tunnel

/-- Anything can happen on the two TCP sockets, and KCP delivers what was sent, in order. -/
def Possible (t : Tunnel) : Event → Prop
  | .home e => Worker.onSocket e = true ∧ t.home.Enabled e
  | .vps e => Worker.onSocket e = true ∧ t.vps.toSession.Enabled e
  | .toVps len _ arrived _ => Deliverable t.home.kcp.sent t.toVps len arrived
  | .toHome len _ arrived _ => Deliverable t.vps.kcp.sent t.toHome len arrived

instance (t : Tunnel) (e : Event) : Decidable (t.Possible e) :=
  match e with
  | .home e => inferInstanceAs (Decidable (Worker.onSocket e ∧ t.home.Enabled e))
  | .vps e => inferInstanceAs (Decidable (Worker.onSocket e ∧ t.vps.toSession.Enabled e))
  | .toVps len _ arrived _ =>
      inferInstanceAs (Decidable (Deliverable t.home.kcp.sent t.toVps len arrived))
  | .toHome len _ arrived _ =>
      inferInstanceAs (Decidable (Deliverable t.vps.kcp.sent t.toHome len arrived))

/-- The steps of a tunnel, those that close a half among them. -/
def ClosingStep (t : Tunnel) (e : Event) (t' : Tunnel) : Prop :=
  t.Possible e ∧ t.handle e = some t'

def closingNext (t : Tunnel) (e : Event) : Option Tunnel :=
  if t.Possible e then t.handle e else none

theorem closingStep_of_next {t t' : Tunnel} {e : Event} (h : closingNext t e = some t') :
    ClosingStep t e t' := by
  unfold closingNext at h
  split at h
  · exact ⟨‹_›, h⟩
  · cases h

/-- No message is in transit, and no handler is pending that does not wait for new data. A
closed half is off the wheel and sends nothing again: what it has not got across stays with
it. -/
structure Quiescent (t : Tunnel) : Prop where
  toVps : t.home.sessionClose = false → t.toVps = t.home.kcp.sent
  toHome : t.vps.sessionClose = false → t.toHome = t.vps.kcp.sent
  home : t.home.Idle
  vps : t.vps.toSession.Idle

/-- If one half is closed then so is the other. -/
def Agree (t : Tunnel) : Prop := t.home.sessionClose = true ↔ t.vps.sessionClose = true

/-- A half whose read or write fails closes, if it has not. It does not do so alone: the other
is closed, or has a failure of its own that waits for its handler. -/
def NotAlone (t : Tunnel) : Event → Prop
  | .home e => Session.Fails e → t.home.sessionClose = false → t.vps.toSession.Ending
  | .vps e => Session.Fails e → t.vps.sessionClose = false → t.home.Ending
  | _ => True

instance (t : Tunnel) (e : Event) : Decidable (t.NotAlone e) :=
  match e with
  | .home e => inferInstanceAs (Decidable
      (Session.Fails e → t.home.sessionClose = false → t.vps.toSession.Ending))
  | .vps e => inferInstanceAs (Decidable
      (Session.Fails e → t.vps.sessionClose = false → t.home.Ending))
  | .toVps _ _ _ _ | .toHome _ _ _ _ => isTrue trivial

/-- `f` is a failure of the half that `e` is not an event of. -/
def OtherFails (e f : Event) : Prop :=
  match e, f with
  | .home _, .vps f | .vps _, .home f => Session.Fails f
  | _, _ => False

theorem closes_iff {e : Session.Event} (socket : Worker.onSocket e = true) :
    Session.Closes e ↔ Session.Fails e := by
  refine ⟨?_, .inl⟩
  rintro (fails | rfl)
  · exact fails
  · cases socket

/-- A half is closed by its own failures, whatever becomes of the other. -/
theorem closed_step {t t' : Tunnel} {e : Event} (step : ClosingStep t e t') :
    (t'.home.sessionClose = true ↔
      t.home.sessionClose = true ∨ ∃ f, e = .home f ∧ Session.Fails f) ∧
    (t'.vps.sessionClose = true ↔
      t.vps.sessionClose = true ∨ ∃ f, e = .vps f ∧ Session.Fails f) := by
  obtain ⟨possible, handled⟩ := step
  cases e with
  | home e =>
      obtain ⟨s, run, rfl⟩ := Option.map_eq_some_iff.mp handled
      simp [Home.handle_closed run, closes_iff possible.1]
  | vps e =>
      obtain ⟨s, run, rfl⟩ := Option.map_eq_some_iff.mp handled
      simp [Vps.handle_closed run, closes_iff possible.1]
  | toVps len acked arrived old =>
      obtain ⟨s, run, rfl⟩ := Option.map_eq_some_iff.mp handled
      simp [Vps.inputToKcp_sessionClose run]
  | toHome len acked arrived old =>
      obtain ⟨s, run, rfl⟩ := Option.map_eq_some_iff.mp handled
      simp [Home.inputToKcp_sessionClose run]

theorem ending_step {t t' : Tunnel} {e : Event} (step : ClosingStep t e t') :
    (t.home.Ending → t'.home.Ending) ∧ (t.vps.toSession.Ending → t'.vps.toSession.Ending) := by
  obtain ⟨possible, handled⟩ := step
  cases e with
  | home e =>
      obtain ⟨s, run, rfl⟩ := Option.map_eq_some_iff.mp handled
      exact ⟨fun h => Home.ending_step h ⟨possible.2, run⟩, id⟩
  | vps e =>
      obtain ⟨s, run, rfl⟩ := Option.map_eq_some_iff.mp handled
      exact ⟨id, fun h => Vps.ending_step h ⟨possible.2, run⟩⟩
  | toVps len acked arrived old =>
      obtain ⟨s, run, rfl⟩ := Option.map_eq_some_iff.mp handled
      exact ⟨id, fun h => Vps.ending_step (e := .inputToKcp _ _ _) h ⟨trivial, run⟩⟩
  | toHome len acked arrived old =>
      obtain ⟨s, run, rfl⟩ := Option.map_eq_some_iff.mp handled
      exact ⟨fun h => Home.ending_step (e := .inputToKcp _ _ _) h ⟨trivial, run⟩, id⟩

/-- Where one half is closed, the other is, or will be. -/
structure Level (t : Tunnel) : Prop where
  home : t.home.sessionClose = true → t.vps.toSession.Ending
  vps : t.vps.sessionClose = true → t.home.Ending

theorem Level.step {t t' : Tunnel} {e : Event} (h : t.Level) (step : ClosingStep t e t')
    (guard : t.NotAlone e) : t'.Level := by
  obtain ⟨home, vps⟩ := closed_step step
  obtain ⟨homeEnding, vpsEnding⟩ := ending_step step
  constructor
  · intro closed
    apply vpsEnding
    rcases home.mp closed with before | ⟨f, rfl, fails⟩
    · exact h.home before
    · cases flag : t.home.sessionClose with
      | true => exact h.home flag
      | false => exact guard fails flag
  · intro closed
    apply homeEnding
    rcases vps.mp closed with before | ⟨f, rfl, fails⟩
    · exact h.vps before
    · cases flag : t.vps.sessionClose with
      | true => exact h.vps flag
      | false => exact guard fails flag

/-- In a half that is idle nothing waits that has failed. -/
theorem idle_closed {s : Session} (idle : s.Idle) (ending : s.Ending) : s.sessionClose = true := by
  rcases ending with closed | ⟨r, member, failed⟩ | ⟨op, member, -⟩
  · exact closed
  · simp [idle.reads r member] at failed
  · simp [idle.writes] at member

theorem Level.agree {t : Tunnel} (h : t.Level) (quiescent : t.Quiescent) : t.Agree :=
  ⟨fun closed => idle_closed quiescent.vps (h.home closed),
    fun closed => idle_closed quiescent.home (h.vps closed)⟩

/-- A half that closes alone leaves the other open, until that one fails by itself. -/
theorem alone_until_other_fails {t t' : Tunnel} {e : Event} (step : ClosingStep t e t')
    (alone : ¬ t.NotAlone e) : ¬ t'.Agree ∧ ∀ es u, Trace ClosingStep t' es u → u.Agree →
      ∃ f ∈ es, OtherFails e f := by
  obtain ⟨home, vps⟩ := closed_step step
  cases e with
  | home e =>
      simp only [NotAlone, not_forall, Session.Ending, not_or] at alone
      obtain ⟨fails, -, unclosed, -⟩ := alone
      have closed : t'.home.sessionClose = true := home.mpr (.inr ⟨e, rfl, fails⟩)
      have stays : ¬ t'.vps.sessionClose = true := by simpa [vps] using unclosed
      refine ⟨fun agree => stays (agree.mp closed), fun es u run agree => ?_⟩
      have still := (run.latch (P := fun t => t.home.sessionClose = true)
        fun _ _ _ step => (closed_step step).1).mpr (.inl closed)
      have later := (run.latch (P := fun t => t.vps.sessionClose = true)
        fun _ _ _ step => (closed_step step).2).mp (agree.mp still)
      obtain ⟨_, member, f, rfl, fails⟩ := later.resolve_left stays
      exact ⟨_, member, fails⟩
  | vps e =>
      simp only [NotAlone, not_forall, Session.Ending, not_or] at alone
      obtain ⟨fails, -, unclosed, -⟩ := alone
      have closed : t'.vps.sessionClose = true := vps.mpr (.inr ⟨e, rfl, fails⟩)
      have stays : ¬ t'.home.sessionClose = true := by simpa [home] using unclosed
      refine ⟨fun agree => stays (agree.mpr closed), fun es u run agree => ?_⟩
      have still := (run.latch (P := fun t => t.vps.sessionClose = true)
        fun _ _ _ step => (closed_step step).2).mpr (.inl closed)
      have later := (run.latch (P := fun t => t.home.sessionClose = true)
        fun _ _ _ step => (closed_step step).1).mp (agree.mpr still)
      obtain ⟨_, member, f, rfl, fails⟩ := later.resolve_left stays
      exact ⟨_, member, fails⟩
  | toVps len acked arrived old => exact absurd trivial alone
  | toHome len acked arrived old => exact absurd trivial alone

/-- The halves agree in every quiescent state of a run in which none closes alone. Where one
does they part at once, and nothing that either of them sends brings them together again. -/
theorem agree_while_none_closes_alone (sessionId : SessionId) (homeNext vpsNext : UInt32)
    (endpoint homeClienEndpoint : Endpoint) :
    (∀ es t, Trace (Guarded NotAlone ClosingStep)
        (start sessionId homeNext vpsNext endpoint homeClienEndpoint) es t →
      t.Quiescent → t.Agree) ∧
    ∀ t e t', ClosingStep t e t' → ¬ t.NotAlone e →
      ¬ t'.Agree ∧ ∀ es u, Trace ClosingStep t' es u → u.Agree → ∃ f ∈ es, OtherFails e f := by
  refine ⟨?_, fun t e t' step alone => alone_until_other_fails step alone⟩
  intro es t run quiescent
  have level : t.Level := run.invariant (I := Level) (fun _ _ _ h step => h.step step.1 step.2)
    ⟨fun closed => (by cases closed), fun closed => (by cases closed)⟩
  exact level.agree quiescent

/-- Both applications end their connections before either program has seen it. -/
def bothLeave : List Event :=
  [.toVps 34 0 [Session.statusAndData ⟨1, 80⟩] fun _ => [], .vps (.connectDone 0 true),
    .vps (.connectHandler 0 false), .home (.readDone 0 .eof), .vps (.readDone 0 .eof),
    .home (.readHandler 0 .eof), .vps (.readHandler 0 .eof)]

/-- The client ends a connection that is established and has carried nothing. -/
def clientLeaves : List Event :=
  [.toVps 34 0 [Session.statusAndData ⟨1, 80⟩] fun _ => [], .vps (.connectDone 0 true),
    .vps (.connectHandler 0 false), .toHome 24 1 [] fun _ => [], .home (.readDone 0 .eof),
    .home (.readHandler 0 .eof)]

/-- Both halves close and agree; a half that has closed alone is followed when the target server
ends the connection too. -/
theorem agree_bothLeave :
    (∃ t, Trace (Guarded NotAlone ClosingStep)
        (start (.replicate 16 0) 10 10 ⟨1, 80⟩ ⟨0, 0⟩) bothLeave t ∧
      t.Quiescent ∧ t.home.sessionClose = true ∧ t.Agree) ∧
    ∃ t e t' es u, ClosingStep t e t' ∧ ¬ t.NotAlone e ∧ ¬ t'.Agree ∧ Trace ClosingStep t' es u ∧
      u.Agree ∧ ∃ f ∈ es, OtherFails e f := by
  constructor
  · obtain ⟨t, run, delivered, sent, delivered', sent', reads, reads', writes, writes', connects,
        connects', closed⟩ :
        ∃ t, bothLeave.foldlM (fun t e => if t.NotAlone e then closingNext t e else none)
            (start (.replicate 16 0) 10 10 ⟨1, 80⟩ ⟨0, 0⟩) = some t ∧
          t.toVps = [Session.statusAndData ⟨1, 80⟩] ∧
          t.home.kcp.sent = [Session.statusAndData ⟨1, 80⟩] ∧ t.toHome = [] ∧ t.vps.kcp.sent = [] ∧
          t.home.reads = [] ∧ t.vps.reads = [] ∧ t.home.tcpDataWaitForSendDeque.pending = [] ∧
          t.vps.tcpDataWaitForSendDeque.pending = [] ∧ t.home.connects = [] ∧
          t.vps.connects = [] ∧ t.home.sessionClose = true := by
      exact ⟨_, by rfl, by rfl, by rfl, by rfl, by rfl, by rfl, by rfl, by rfl, by rfl, by rfl,
        by rfl, by rfl⟩
    have guarded : Trace (Guarded NotAlone ClosingStep) _ bothLeave t :=
      .of_foldlM (fun _ _ _ next => by
        split at next
        · exact ⟨closingStep_of_next next, ‹_›⟩
        · cases next) run
    have quiescent : t.Quiescent :=
      ⟨fun _ => delivered.trans sent.symm, fun _ => delivered'.trans sent'.symm,
        ⟨by simp [reads], writes, connects⟩, ⟨by simp [reads'], writes', connects'⟩⟩
    exact ⟨t, guarded, quiescent, closed,
      (agree_while_none_closes_alone ..).1 _ t guarded quiescent⟩
  · obtain ⟨t, t', u, -, step, open_, open_', reads, writes, follows, closed, closed'⟩ : ∃ t t' u,
        (clientLeaves.take 5).foldlM closingNext
          (start (.replicate 16 0) 10 10 ⟨1, 80⟩ ⟨0, 0⟩) = some t ∧
        closingNext t (.home (.readHandler 0 .eof)) = some t' ∧
        t.home.sessionClose = false ∧ t.vps.sessionClose = false ∧ t.vps.reads = [none] ∧
        t.vps.tcpDataWaitForSendDeque.pending = [] ∧
        [Event.vps (.readDone 0 .eof), .vps (.readHandler 0 .eof)].foldlM closingNext t' = some u ∧
        u.home.sessionClose = true ∧ u.vps.sessionClose = true := by
      exact ⟨_, _, _, by rfl, by rfl, by rfl, by rfl, by rfl, by rfl, by rfl, by rfl, by rfl⟩
    have alone : ¬ t.NotAlone (.home (.readHandler 0 .eof)) := by
      simp [NotAlone, Session.Fails, Session.Ending, Session.Failing, open_, open_', reads,
        writes]
    have agree : u.Agree := iff_of_true closed closed'
    have after := Trace.of_foldlM (fun _ _ _ => closingStep_of_next) follows
    obtain ⟨parted, until_⟩ :=
      (agree_while_none_closes_alone (.replicate 16 0) 10 10 ⟨1, 80⟩ ⟨0, 0⟩).2 t _ t'
        (closingStep_of_next step) alone
    exact ⟨t, _, t', _, u, closingStep_of_next step, alone, parted, after, agree,
      until_ _ u after agree⟩

theorem clientLeaves_run :
    ∃ t, Trace ClosingStep (start (.replicate 16 0) 10 10 ⟨1, 80⟩ ⟨0, 0⟩) clientLeaves t ∧
      t.Quiescent ∧ t.home.kcp.waitsnd = 0 ∧ t.home.sessionClose = true ∧
      t.vps.sessionClose = false := by
  obtain ⟨t, run, delivered', sent', reads, reads', writes, writes', connects,
      connects', acked, closed, unclosed⟩ :
      ∃ t, clientLeaves.foldlM closingNext (start (.replicate 16 0) 10 10 ⟨1, 80⟩ ⟨0, 0⟩) = some t ∧
        t.toHome = [] ∧ t.vps.kcp.sent = [] ∧
        t.home.reads = [] ∧ t.vps.reads = [none] ∧ t.home.tcpDataWaitForSendDeque.pending = [] ∧
        t.vps.tcpDataWaitForSendDeque.pending = [] ∧ t.home.connects = [] ∧ t.vps.connects = [] ∧
        t.home.kcp.waitsnd = 0 ∧ t.home.sessionClose = true ∧ t.vps.sessionClose = false := by
    exact ⟨_, by rfl, by rfl, by rfl, by rfl, by rfl, by rfl, by rfl, by rfl, by rfl, by rfl,
      by rfl, by rfl⟩
  refine ⟨t, .of_foldlM (fun _ _ _ => closingStep_of_next) run, ⟨?_, ?_, ?_, ?_⟩, acked, closed,
    unclosed⟩
  · rw [closed]
    exact fun unclosed => (by cases unclosed)
  · exact fun _ => delivered'.trans sent'.symm
  · exact ⟨by simp [reads], writes, connects⟩
  · exact ⟨by simp [reads'], writes', connects'⟩

/-- Nothing is left to happen, and the VPS side keeps its connection open. -/
theorem client_leaves_alone :
    ¬ ∀ sessionId homeNext vpsNext endpoint homeClienEndpoint es t,
      Trace ClosingStep (start sessionId homeNext vpsNext endpoint homeClienEndpoint) es t →
      t.Quiescent → t.Agree := by
  intro always
  obtain ⟨t, run, quiescent, -, closed, unclosed⟩ := clientLeaves_run
  have agree := always _ _ _ _ _ _ t run quiescent
  cases unclosed.symm.trans (agree.mp closed)

end Tunnel
end TransparentProxyNet
