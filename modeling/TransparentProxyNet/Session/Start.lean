import TransparentProxyNet.Session.Home
import TransparentProxyNet.Session.Vps
import TransparentProxyNet.TimeWheel.Runs

/-! The calls of a session on its worker's wheel, and the first drive of a session
that has been started. -/
namespace TransparentProxyNet
open Machine TimeWheel

/-- A call of the session at `this`, done on the wheel. -/
def Call.onWheel (this : Nat) (w : TimeWheel Nat) : Call → Option (TimeWheel Nat)
  | .mountTask nextTime => w.mountTask this nextTime
  | .removeTask => w.removeTask this
  | .getSharedPtrFunc _ => some w

def callsOnWheel (this : Nat) (w : TimeWheel Nat) (calls : List Call) : Option (TimeWheel Nat) :=
  calls.foldlM (Call.onWheel this) w

namespace TimeWheel
variable {T : Type} [DecidableEq T]

/-- A wheel can always go on ticking. -/
theorem Refines.run_ticks {w : TimeWheel T} {r : Wheel T} (h : Refines w r) (n : Nat) :
    ∃ es w' r', Trace Step w es w' ∧ Refines w' r' ∧ ticksIn es = n ∧ ∀ t, .removeTask t ∉ es := by
  induction n generalizing w r with
  | zero => exact ⟨[], w, r, .nil w, h, rfl, fun _ => List.not_mem_nil⟩
  | succ n ih =>
      obtain ⟨v, tick, next⟩ := h.ticks fun _ => 0
      obtain ⟨es, w', r', trace, refines, count, kept⟩ := ih next
      refine ⟨.doCurrentTimeWheel (fun _ => 0) :: es, w', r',
        .cons (.doCurrentTimeWheel tick) trace, refines, ?_, ?_⟩
      · rw [ticksIn, List.countP_cons_of_pos rfl, ← count]
        rfl
      · simpa using kept

/-- The tick in which a task first runs is determined. -/
theorem Refines.runsFirst_unique {w : TimeWheel T} {r : Wheel T} (h : Refines w r) {t : T}
    {j k : Nat} (early : RunsFirst w t (j + 1)) (late : RunsFirst w t (k + 1)) : j = k := by
  by_contra apart
  obtain ⟨es, w', r', trace, refines, count, kept⟩ := h.run_ticks (min j k)
  obtain ⟨w'', tick, -⟩ := refines.ticks fun _ => 0
  have first := early es w' trace (kept t) (by omega) _ _ _ tick
  have second := late es w' trace (kept t) (by omega) _ _ _ tick
  rw [first] at second
  split at second <;> split at second <;> omega

end TimeWheel

namespace Session

/-- The absolute time `nextTime` happens to stand for the same slot as the delay: it
lies in the delay's own three milliseconds of the wheel's 3000 ms horizon, or it is
below the first slot while the delay is one slot. -/
def InWindow (now nextTime : UInt32) : Prop :=
  nextTime.toNat % 3000 / 3 = max 1 ((nextTime - now).toNat / 3) ∨
    nextTime.toNat < 3 ∧ max 1 ((nextTime - now).toNat / 3) = 1

instance (now nextTime : UInt32) : Decidable (InWindow now nextTime) :=
  inferInstanceAs (Decidable (_ ∨ _))

theorem ticks_mod_eq_iff (now nextTime : UInt32) :
    ticks nextTime % timeWheelLength = max 1 ((nextTime - now).toNat / 3) ↔
      InWindow now nextTime := by
  unfold InWindow timeWheelLength
  rw [ticks_eq]
  omega

/-- The delay that `driveSessionTimeClock` answers with stands for these slots. -/
theorem ticks_driveSessionTimeClock {now nextTime : UInt32}
    (near : (nextTime - now).toNat ≤ 10) :
    ticks (driveSessionTimeClock now nextTime) = max 1 ((nextTime - now).toNat / 3) := by
  unfold driveSessionTimeClock
  rw [int32_of_lt (by omega)]
  by_cases due : (nextTime - now).toNat = 0
  · rw [due]
    rfl
  · have later : ¬ ((nextTime - now).toNat : Int) ≤ 0 := by omega
    rw [if_neg later, ofInt_natCast (by omega), ticks_eq, UInt32.toNat_ofNat_of_lt'
      (by simp only [UInt32.size]; omega)]

/-- The started session is first driven in the tick that the delay until `nextTime`
asks for. -/
def FirstDriveOnTime (w : TimeWheel Nat) (this : Nat) (now nextTime : UInt32) (calls : List Call) :
    Prop :=
  ∃ w', callsOnWheel this w calls = some w' ∧
    RunsFirst w' this (max 1 ((nextTime - now).toNat / 3) + 1)

theorem firstDriveOnTime_iff {w : TimeWheel Nat} (reachable : Reachable Step Fresh w) {this : Nat}
    (unlinked : ¬ Linked w this) (now nextTime : UInt32) :
    FirstDriveOnTime w this now nextTime [.mountTask nextTime] ↔ InWindow now nextTime := by
  obtain ⟨r, h⟩ := reachable_refines reachable
  obtain ⟨w', mounted, refines, -⟩ := h.mountTask (h.not_linked_iff.mp unlinked) nextTime
  have calls : callsOnWheel this w [.mountTask nextTime] = some w' := by
    simp [callsOnWheel, Call.onWheel, mounted]
  have runs := mount_runsFirst h (.mountTask unlinked mounted)
  rw [← ticks_mod_eq_iff]
  constructor
  · rintro ⟨v, same, onTime⟩
    cases calls.symm.trans same
    exact refines.runsFirst_unique runs onTime
  · intro slot
    exact ⟨w', calls, slot ▸ runs⟩

end Session

/-- Both `start` functions mount the session with the absolute time that `ikcp_check`
answered. The first drive is on time exactly if that time falls into the window. -/
theorem first_drive_on_time_iff {w : TimeWheel Nat} (reachable : Reachable Step Fresh w)
    {this : Nat} (unlinked : ¬ Linked w this) {now nextTime : UInt32}
    (near : (nextTime - now).toNat ≤ 10) :
    ticks (Session.driveSessionTimeClock now nextTime) = max 1 ((nextTime - now).toNat / 3) ∧
    (∀ sessionId endpoint, Session.FirstDriveOnTime w this now nextTime
      (Home.start (.create sessionId) nextTime endpoint).calls ↔ Session.InWindow now nextTime) ∧
    (∀ sessionId homeClienEndpoint, Session.FirstDriveOnTime w this now nextTime
      (Vps.start (.create sessionId homeClienEndpoint) nextTime).calls ↔
        Session.InWindow now nextTime) :=
  ⟨Session.ticks_driveSessionTimeClock near,
    fun _ _ => Session.firstDriveOnTime_iff reachable unlinked now nextTime,
    fun _ _ => Session.firstDriveOnTime_iff reachable unlinked now nextTime⟩

theorem emptyWheel_unlinked (this : Nat) : ¬ Linked emptyWheel this :=
  (fresh_refines (w := emptyWheel) ⟨rfl, fun _ => rfl⟩).not_linked_iff.mpr
    fun _ member => by cases member

theorem emptyWheel_reachable : Reachable Step Fresh emptyWheel := .init ⟨rfl, fun _ => rfl⟩

theorem first_drive_on_time_early :
    Session.FirstDriveOnTime emptyWheel 7 0 10
      (Home.start (.create (.replicate 16 0)) 10 ⟨0, 80⟩).calls := by
  have near : ((10 : UInt32) - 0).toNat ≤ 10 := by decide
  have onTime := first_drive_on_time_iff emptyWheel_reachable (emptyWheel_unlinked 7) near
  exact (onTime.2.1 _ _).mpr (.inl (by decide))

/-- Ten seconds after the worker started, the first drive is 337 ticks away instead of
four. -/
theorem first_drive_late :
    ¬ ∀ (w : TimeWheel Nat), Reachable Step Fresh w → ∀ this, ¬ Linked w this →
      ∀ now nextTime : UInt32,
      (nextTime - now).toNat ≤ 10 → ∀ sessionId endpoint,
        Session.FirstDriveOnTime w this now nextTime
        (Home.start (.create sessionId) nextTime endpoint).calls := by
  intro always
  have onTime := always emptyWheel emptyWheel_reachable 7 (emptyWheel_unlinked 7) 10000 10010
    (by decide)
    (.replicate 16 0) ⟨0, 80⟩
  have window :=
    (Session.firstDriveOnTime_iff emptyWheel_reachable (emptyWheel_unlinked 7) _ _).mp onTime
  revert window
  decide

end TransparentProxyNet
