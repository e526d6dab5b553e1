import TransparentProxyNet.Worker.Sessions

/-! What becomes of a session, and of its unacknowledged segments, after the handler of a
read that has met the end of the stream. -/
namespace TransparentProxyNet
open Machine

namespace Session

/-- What no handler changes in a closed session. -/
structure Stays (s t : Session) : Prop where
  closed : s.sessionClose → t.sessionClose ∧ s.kcp.waitsnd ≤ t.kcp.waitsnd
  spent : s.sessionClose → s.Spent → t.Spent ∧ t.kcp.waitsnd = s.kcp.waitsnd

theorem Stays.refl (s : Session) : Stays s s :=
  ⟨fun closed => ⟨closed, Nat.le_refl _⟩, fun _ spent => ⟨spent, rfl⟩⟩

theorem Handled.stays {s t : Session} (h : Handled s t) : Stays s { t with calls := [] } :=
  ⟨h.closed, h.spent⟩

/-- The session is closed, with at least `backlog` segments unacknowledged, and with just
as many if no data was waiting. -/
structure Retired (backlog : Nat) (noData : Prop) (s : Session) : Prop where
  closed : s.sessionClose
  lasting : backlog ≤ s.kcp.ikcp_waitsnd
  spent : noData → s.Spent
  frozen : noData → s.kcp.ikcp_waitsnd = backlog

theorem Retired.stays {backlog : Nat} {noData : Prop} {s t : Session} (h : Retired backlog noData s)
    (stays : Stays s t) :
    Retired backlog noData t := by
  have kept := stays.closed h.closed
  refine ⟨kept.1, h.lasting.trans kept.2, ?_, ?_⟩
  · intro none
    exact (stays.spent h.closed (h.spent none)).1
  · intro none
    exact (stays.spent h.closed (h.spent none)).2.trans (h.frozen none)

/-- No read but the `i`-th has brought data whose handler has still to run. -/
def NoDataBeside (s : Session) (i : Nat) : Prop :=
  ∀ r ∈ s.reads.eraseIdx i, ∀ bytes, r ≠ some (.data bytes)

theorem retired_eof {s : Session} (ended : s.Ended) (i : Nat) :
    Retired s.kcp.ikcp_waitsnd (s.NoDataBeside i) (s.receiveHandler i .eof) := by
  have kcp : (s.receiveHandler i .eof).kcp = s.kcp := by
    simp only [receiveHandler, closeSession]
    split <;> rfl
  have closed : (s.receiveHandler i .eof).sessionClose := closeSession_sessionClose _
  exact ⟨closed, kcp ▸ Nat.le_refl _, fun none => spent_closeSession (ended.eraseIdx i) none,
    fun _ => congrArg Kcp.waitsnd kcp⟩

end Session

namespace Worker
variable {S α : Type} [Served S] {w w' : Worker S α} {this : Nat} {s : S}

theorem Moves.stays {Step : S → Session.Event → S → Prop} {e : Event} {t : S}
    (handled : ∀ s e t, Step s e t → Session.Handled (base s) (base t))
    (moves : Moves Step this e s t) : (base s).Stays (base t) := by
  cases moves with
  | idle _ => exact .refl _
  | handler _ step =>
      rw [base_answered]
      exact (handled _ _ _ step).stays
  | input step =>
      rw [base_answered]
      exact (handled _ _ _ step).stays

/-- The session is closed, off the wheel and deaf to its peer; of what was unacknowledged
nothing has been acknowledged since. -/
structure ClosedForGood (inputToKcp : S → Int → KcpInput → (Nat → List UInt8) → Option S)
    (backlog : Nat) (noData : Prop) (w : Worker S α) (this : Nat) (s : S) : Prop where
  sessionClose : (base s).sessionClose
  unlinked : ¬ TimeWheel.Linked w.timeWheel this
  deaf : ∀ len input old, inputToKcp s len input old = some s
  lasting : backlog ≤ (base s).kcp.ikcp_waitsnd
  frozen : noData → (base s).kcp.ikcp_waitsnd = backlog

/-- The step lemma of a retired session carries it over a whole run. -/
theorem retired_trace {Step : Worker S α → Event → Worker S α → Prop}
    (kept : ∀ w e w', w.Holds → Step w e w' → w'.Holds)
    (stays : ∀ w e w' s, w.Holds → Step w e w' → w.sessions this = some s →
      ∃ t, w'.sessions this = some t ∧ (base s).Stays (base t))
    {backlog : Nat} {noData : Prop} {es : List Event}
    (trace : Trace Step w es w') (holds : w.Holds) (found : w.sessions this = some s)
    (retired : Session.Retired backlog noData (base s)) :
    w'.Holds ∧ ∃ t, w'.sessions this = some t ∧ Session.Retired backlog noData (base t) := by
  refine trace.invariant (I := fun w => w.Holds ∧ ∃ t, w.sessions this = some t ∧
    Session.Retired backlog noData (base t)) ?_ ⟨holds, s, found, retired⟩
  rintro v e v' ⟨holds, t, found, retired⟩ step
  obtain ⟨t', found', kept'⟩ := stays v e v' t holds step found
  exact ⟨kept v e v' holds step, t', found', retired.stays kept'⟩

/-- After the handler of a read that met the end of the stream. -/
theorem closedForGood_eof {Step : Worker S α → Event → Worker S α → Prop} {A : AesGcm}
    {other : Int → Fin 4} {handle : S → Session.Event → Option S} {addressed : S → Packet → α}
    {inputToKcp : S → Int → KcpInput → (Nat → List UInt8) → Option S}
    (kept : ∀ w e w', w.Holds → Step w e w' → w'.Holds)
    (stays : ∀ w e w' s, w.Holds → Step w e w' → w.sessions this = some s →
      ∃ t, w'.sessions this = some t ∧ (base s).Stays (base t))
    (deaf : ∀ s : S, (base s).sessionClose = true → ∀ len input old,
      inputToKcp s len input old = some s) {i : Nat}
    (handled : ∀ s t, handle s (.readHandler i .eof) = some t →
      base t = (base s).receiveHandler i .eof)
    {w w₁ w₂ : Worker S α} {es : List Event} (holds : w.Holds) (found : w.sessions this = some s)
    (eof : CommonStep A other handle addressed w (.session this (.readHandler i .eof)) w₁)
    (holds₁ : w₁.Holds) (trace : Trace Step w₁ es w₂) :
    ∃ t, w₂.sessions this = some t ∧
      ClosedForGood inputToKcp (base s).kcp.ikcp_waitsnd ((base s).NoDataBeside i) w₂ this t := by
  cases eof with
  | session _ here _ ran =>
      cases found.symm.trans here
      obtain ⟨u, t, timeWheel, here', run, -, rfl⟩ := run_cases ran
      cases found.symm.trans here'
      have eof := Session.retired_eof (holds.quiet this s found).ended i
      have retired : Session.Retired (base s).kcp.ikcp_waitsnd ((base s).NoDataBeside i)
          (base (lift (fun t => { t with calls := [] }) t)) := by
        rw [base_lift, handled s t run]
        exact ⟨eof.1, eof.2, eof.3, eof.4⟩
      obtain ⟨holds₂, t₂, found₂, retired₂⟩ :=
        retired_trace kept stays trace holds₁ settle_self retired
      refine ⟨t₂, found₂, retired₂.closed, ?_, deaf t₂ retired₂.closed, retired₂.lasting,
        retired₂.frozen⟩
      intro linked
      obtain ⟨t, same, unclosed⟩ := (holds₂.linked_iff this).mp linked
      cases found₂.symm.trans same
      rw [retired₂.closed] at unclosed
      cases unclosed

end Worker

namespace Home

theorem step_stays {A : AesGcm} {other : Int → Fin 4} {w w' : Worker} {e : Worker.Event}
    {this : Nat} {s : Session}
    (h : w.Holds) (step : Step A other w e w') (found : w.sessions this = some s) :
    ∃ t, w'.sessions this = some t ∧ s.Stays t := by
  obtain ⟨t, found', moves⟩ := step_moves h step found
  exact ⟨t, found', moves.stays fun _ _ _ => handled_step⟩

theorem closedForGood_eof {A : AesGcm} {other : Int → Fin 4} {w w₁ w₂ : Worker} {this i : Nat}
    {s : Session} {es : List Worker.Event} (h : w.Holds) (found : w.sessions this = some s)
    (eof : Step A other w (.session this (.readHandler i .eof)) w₁)
    (trace : Trace (Step A other) w₁ es w₂) : ∃ t, w₂.sessions this = some t ∧
      Worker.ClosedForGood inputToKcp s.kcp.ikcp_waitsnd (s.NoDataBeside i) w₂ this t := by
  have holds₁ := step_holds h eof
  cases eof with
  | common step =>
      exact Worker.closedForGood_eof (S := Session) (fun _ _ _ => step_holds)
        (fun _ _ _ _ => step_stays)
        (fun _ closed _ _ _ => if_pos closed) (fun s t handled => by cases handled; rfl) h found
          step holds₁ trace

end Home

namespace Vps

theorem step_stays {A : AesGcm} {other : Int → Fin 4} {w w' : Worker} {e : Worker.Event}
    {this : Nat} {s : Session}
    (h : w.Holds) (step : Step A other w e w') (found : w.sessions this = some s) :
    ∃ t, w'.sessions this = some t ∧ s.toSession.Stays t.toSession := by
  obtain ⟨t, found', moves⟩ := (step_cases h step).1 s found
  exact ⟨t, found', moves.stays fun _ _ _ => handled_step⟩

theorem closedForGood_eof {A : AesGcm} {other : Int → Fin 4} {w w₁ w₂ : Worker} {this i : Nat}
    {s : Session} {es : List Worker.Event} (h : w.Holds) (found : w.sessions this = some s)
    (eof : Step A other w (.session this (.readHandler i .eof)) w₁)
    (trace : Trace (Step A other) w₁ es w₂) : ∃ t, w₂.sessions this = some t ∧
      Worker.ClosedForGood inputToKcp s.kcp.ikcp_waitsnd
        (s.toSession.NoDataBeside i) w₂ this t := by
  have holds₁ := step_holds h eof
  cases eof with
  | common step =>
      exact Worker.closedForGood_eof (S := Session) (fun _ _ _ => step_holds)
        (fun _ _ _ _ => step_stays)
        (fun _ closed _ _ _ => if_pos closed) (fun s t handled => by cases handled; rfl) h found
          step holds₁ trace

end Vps

/-- In every state after the handler of an end of stream, on either side, the session is
closed, its task is off the wheel and its KCP object gets no more input, so the backlog
is what it was, unless a second read had brought data. -/
theorem closed_for_good_after_eof (A : AesGcm) (other : Int → Fin 4) :
    (∀ w, Reachable (Home.Step A other) Worker.Started w → ∀ this i (s : Home.Session) w₁,
      w.sessions this = some s →
      Home.Step A other w (.session this (.readHandler i .eof)) w₁ →
      ∀ es w₂, Trace (Home.Step A other) w₁ es w₂ → ∃ t, w₂.sessions this = some t ∧
        Worker.ClosedForGood Home.inputToKcp s.kcp.ikcp_waitsnd (s.NoDataBeside i) w₂ this t) ∧
    (∀ w, Reachable (Vps.Step A other) Worker.Started w → ∀ this i (s : Vps.Session) w₁,
      w.sessions this = some s →
      Vps.Step A other w (.session this (.readHandler i .eof)) w₁ →
      ∀ es w₂, Trace (Vps.Step A other) w₁ es w₂ → ∃ t, w₂.sessions this = some t ∧
        Worker.ClosedForGood Vps.inputToKcp s.kcp.ikcp_waitsnd
          (s.toSession.NoDataBeside i) w₂ this t) :=
  ⟨fun _ reachable _ _ _ _ found eof _ _ => Home.closedForGood_eof (Home.reachable_holds reachable)
    found eof,
    fun _ reachable _ _ _ _ found eof _ _ =>
      Vps.closedForGood_eof (Vps.reachable_holds reachable) found eof⟩

/-- A connection that the client closes at once: the session has sent the destination, and
nothing of it has been acknowledged. -/
theorem eof_strands_segment :
    ¬ ∀ (A : AesGcm) (other : Int → Fin 4) w, Reachable (Home.Step A other) Worker.Started w →
      ∀ this i w₁, Home.Step A other w (.session this (.readHandler i .eof)) w₁ →
      ∀ es w₂, Trace (Home.Step A other) w₁ es w₂ → ∀ t, w₂.sessions this = some t →
        t.kcp.ikcp_waitsnd = 0 ∨ TimeWheel.Linked w₂.timeWheel this ∧ t.sessionClose = false := by
  intro always
  obtain ⟨w, v, v', started, registers, read, holds, found⟩ :=
    Home.exists_ended .sample (fun _ => 0)
  obtain ⟨s, first⟩ : ∃ s, s = Home.registered (.replicate 16 1) ⟨1, 80⟩ := ⟨_, rfl⟩
  rw [← first] at found
  have eof : Home.SessionStep (Worker.answered (s.readDone 0 .eof)) (.readHandler 0 .eof)
      ((Worker.answered (s.readDone 0 .eof)).receiveHandler 0 .eof) := by
    rw [first]
    exact ⟨by decide, rfl⟩
  obtain ⟨u, step, -⟩ := Home.exists_step .sample (fun _ => 0) holds found rfl eof
  have reachable := (Reachable.init started).trace (.cons registers (.single read))
  obtain ⟨t, same, forGood⟩ := Home.closedForGood_eof holds found step (.nil _)
  rcases always _ _ _ reachable _ _ _ step [] _ (.nil _) t same with zero | linked
  · have backlog := forGood.lasting
    change _ ≤ t.kcp.ikcp_waitsnd at backlog
    rw [zero, first] at backlog
    exact absurd backlog (by decide)
  · exact forGood.unlinked linked.1

end TransparentProxyNet
