import TransparentProxyNet.Worker.EndOfStream

/-! A session is on the wheel exactly while it is open. What it asks of the wheel, the
wheel can do. -/
namespace TransparentProxyNet
open Machine SlotWheel Links

namespace TimeWheel
variable {T : Type} [DecidableEq T]

/-- Following `next_` from the header of slot `i` meets the task once. -/
def InSlot (w : TimeWheel T) (i : Nat) (t : T) : Prop :=
  ∃ ts, Visits (fun u => w.links.next (.node u)) (w.links.next (.header i)) ts ∧ ts.count t = 1

/-- A linked task is linked once. -/
theorem Refines.existsUnique_slot {w : TimeWheel T} {r : Wheel T} (h : Refines w r) {t : T}
    (linked : Linked w t) : ∃! i, i < timeWheelLength ∧ InSlot w i t := by
  obtain ⟨i, member⟩ := h.linked_iff.mp linked
  refine ⟨i.val, ⟨i.isLt, r.slot i, ?_, ?_⟩, ?_⟩
  · have chain := (h.links i.val).visits
    rwa [slotLists_val] at chain
  · exact List.count_eq_one_of_mem (h.distinct.nodup i) member
  · rintro j ⟨bound, ts, chain, once⟩
    have there : t ∈ ts := List.count_pos_iff.mp (by rw [once]; exact Nat.one_pos)
    rw [chain.unique (h.links j).visits] at there
    obtain ⟨bound', there⟩ := mem_slotLists there
    exact congrArg Fin.val (h.distinct.disjoint there member)

end TimeWheel

namespace Session

/-- A handler asks for the removal of the task if and only if it closes the session, and
then for nothing else. -/
theorem Handled.removes_iff {s t : Session} (h : Handled s t) (none : s.calls = []) :
    .removeTask ∈ t.calls ↔ s.sessionClose = false ∧ t.sessionClose = true := by
  rcases h.asks none with ⟨same, nodes⟩ | ⟨unclosed, closed, asked⟩
  · constructor
    · intro member
      cases nodes _ member
    · rintro ⟨unclosed, closed⟩
      cases closed.symm.trans (same.trans unclosed)
  · rw [asked]
    exact ⟨fun _ => ⟨unclosed, closed⟩, fun _ => List.mem_singleton_self _⟩

theorem Handled.count_removeTask {s t : Session} (h : Handled s t) (none : s.calls = []) :
    t.calls.count .removeTask ≤ 1 := by
  rcases h.asks none with ⟨-, nodes⟩ | ⟨-, -, asked⟩
  · rw [List.count_eq_zero.mpr fun member => by cases nodes _ member]
    exact Nat.zero_le 1
  · rw [asked]
    exact Nat.le_refl 1

end Session

namespace Worker
variable {S α : Type} [Served S]

/-- What a session and the wheel have to do with each other. -/
structure OnWheel (Step : S → Session.Event → S → Prop)
    (inputToKcp : S → Int → KcpInput → (Nat → List UInt8) → Option S) (w : Worker S α) (this : Nat)
    (s : S) : Prop where
  mounted : (base s).sessionClose = false →
    ∃! i, i < timeWheelLength ∧ TimeWheel.InSlot w.timeWheel i this
  unlinked : (base s).sessionClose = true → ¬ TimeWheel.Linked w.timeWheel this
  answers : ∀ e t, Step s e t →
    ∃ timeWheel, callsOnWheel this w.timeWheel (base t).calls = some timeWheel
  removes : ∀ e t, Step s e t → .removeTask ∈ (base t).calls →
    TimeWheel.Linked w.timeWheel this ∧ (base t).calls.count .removeTask = 1 ∧
      (base s).sessionClose = false ∧ (base t).sessionClose = true
  driven : ∀ (now : UInt32) (nextTime : Nat → UInt32) timeWheel driven,
    TimeWheel.Ticks w.timeWheel (fun this => Session.driveSessionTimeClock now (nextTime this))
      timeWheel driven → this ∈ driven → (base s).sessionClose = false
  deaf : (base s).sessionClose = true → ∀ len input old, inputToKcp s len input old = some s

variable {w : Worker S α} {this : Nat} {s : S}

theorem Holds.onWheel {Step : S → Session.Event → S → Prop}
    {inputToKcp : S → Int → KcpInput → (Nat → List UInt8) → Option S} (h : w.Holds)
    (found : w.sessions this = some s)
    (handled : ∀ e t, Step s e t → Session.Handled (base s) (base t))
    (deaf : (base s).sessionClose = true → ∀ len input old, inputToKcp s len input old = some s) :
    OnWheel Step inputToKcp w this s := by
  obtain ⟨r, refines, -⟩ := h.wheel
  have calls := (h.quiet this s found).calls
  have linked : TimeWheel.Linked w.timeWheel this ↔ (base s).sessionClose = false := by
    rw [h.linked_iff]
    simp [Open, found]
  constructor
  · intro unclosed
    exact refines.existsUnique_slot (linked.mpr unclosed)
  · intro closed hangs
    cases closed.symm.trans (linked.mp hangs)
  · intro e t step
    obtain ⟨timeWheel, called, -⟩ := h.handled found (handled e t step)
    exact ⟨timeWheel, called⟩
  · intro e t step asked
    obtain ⟨unclosed, closed⟩ := ((handled e t step).removes_iff calls).mp asked
    refine ⟨linked.mpr unclosed, ?_, unclosed, closed⟩
    exact Nat.le_antisymm ((handled e t step).count_removeTask calls) (List.count_pos_iff.mpr asked)
  · intro now nextTime timeWheel driven tick member
    rw [(refines.of_ticks tick).1] at member
    exact linked.mp (refines.linked_iff.mpr ⟨_, member⟩)
  · exact deaf

end Worker

/-- In every reachable state of either worker, each of its sessions is linked in exactly
one slot if it is open, and in none if it is closed; a handler removes only a task that is
linked, and only when it closes the session, which then stays closed. -/
theorem on_wheel_while_open (A : AesGcm) (other : Int → Fin 4) :
    (∀ w, Reachable (Home.Step A other) Worker.Started w →
      ∀ this (s : Home.Session), w.sessions this = some s →
        Worker.OnWheel Home.SessionStep Home.inputToKcp w this s ∧
        (s.sessionClose = true → ∀ es w', Trace (Home.Step A other) w es w' →
          ∃ t, w'.sessions this = some t ∧ t.sessionClose = true)) ∧
    (∀ w, Reachable (Vps.Step A other) Worker.Started w →
      ∀ this (s : Vps.Session), w.sessions this = some s →
        Worker.OnWheel Vps.SessionStep Vps.inputToKcp w this s ∧
        (s.sessionClose = true → ∀ es w', Trace (Vps.Step A other) w es w' →
          ∃ t, w'.sessions this = some t ∧ t.sessionClose = true)) := by
  constructor
  · intro w reachable this s found
    have holds := Home.reachable_holds reachable
    refine ⟨holds.onWheel found (fun _ _ => Home.handled_step)
      fun closed _ _ _ => if_pos closed, ?_⟩
    intro closed es w' trace
    obtain ⟨-, t, found', retired⟩ := Worker.retired_trace (fun _ _ _ => Home.step_holds)
      (fun _ _ _ _ => Home.step_stays) trace holds found
      ⟨closed, Nat.zero_le _, False.elim, False.elim⟩
    exact ⟨t, found', retired.closed⟩
  · intro w reachable this s found
    have holds := Vps.reachable_holds reachable
    refine ⟨holds.onWheel found (fun _ _ => Vps.handled_step)
      fun closed _ _ _ => if_pos closed, ?_⟩
    intro closed es w' trace
    obtain ⟨-, t, found', retired⟩ := Worker.retired_trace (fun _ _ _ => Vps.step_holds)
      (fun _ _ _ _ => Vps.step_stays) trace holds found
      ⟨closed, Nat.zero_le _, False.elim, False.elim⟩
    exact ⟨t, found', retired.closed⟩

/-- A connection that its client closes, and a tick of the wheel after it. -/
theorem on_wheel_while_open_ended : ∃ (w w₁ w₂ : Home.Worker) (s s₁ s₂ : Home.Session),
    w.sessions 7 = some s ∧ s.sessionClose = false ∧
      Worker.OnWheel Home.SessionStep Home.inputToKcp w 7 s ∧
      w₁.sessions 7 = some s₁ ∧ s₁.sessionClose = true ∧
      Worker.OnWheel Home.SessionStep Home.inputToKcp w₁ 7 s₁ ∧
      Home.Step .sample (fun _ => 0) w₁ (.doCurrentTimeWheel 0 fun _ => 0) w₂ ∧
      w₂.sessions 7 = some s₂ ∧ s₂.sessionClose = true := by
  obtain ⟨w₀, v, w, started, registers, ends, holds, found⟩ :=
    Home.exists_ended .sample fun _ => 0
  obtain ⟨w₁, closes, holds₁, found₁⟩ := Home.exists_step .sample (fun _ => 0) holds found rfl
    (f := .readHandler 0 .eof) ⟨by decide, rfl⟩
  obtain ⟨r, refines, -⟩ := holds₁.wheel
  obtain ⟨timeWheel, tick, -⟩ :=
    refines.ticks fun this => Session.driveSessionTimeClock 0 ((fun _ => 0) this)
  have ticks : Home.Step .sample (fun _ => 0) w₁ (.doCurrentTimeWheel 0 fun _ => 0) _ :=
    .common (.doCurrentTimeWheel tick)
  have ended := (Reachable.init started).trace (.cons registers (.single ends))
  have closed := ended.trace (.single closes)
  obtain ⟨before, -⟩ := (on_wheel_while_open .sample fun _ => 0).1 w ended 7 _ found
  obtain ⟨after, kept⟩ := (on_wheel_while_open .sample fun _ => 0).1 w₁ closed 7 _ found₁
  obtain ⟨t, found₂, still⟩ := kept rfl _ _ (.single ticks)
  exact ⟨w, w₁, _, _, _, t, found, rfl, before, found₁, rfl, after, ticks, found₂, still⟩

end TransparentProxyNet
