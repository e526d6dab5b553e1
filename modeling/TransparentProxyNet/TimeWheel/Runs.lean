import TransparentProxyNet.Lib.Machine
import TransparentProxyNet.TimeWheel.Refinement

/-! Runs of the wheel: tasks come and go between ticks, and each tick's callback
answers as it likes. When a task runs is read off the ring. -/
namespace TransparentProxyNet.TimeWheel
open Links SlotWheel Machine

variable {T : Type} [DecidableEq T]

inductive Event (T : Type) where
  | registerTask (task : T)
  | mountTask (task : T) (next : UInt32)
  | removeTask (task : T)
  | doCurrentTimeWheel (answer : T → UInt32)

/-- Following `next_` from some slot header meets the task. -/
def Linked (w : TimeWheel T) (t : T) : Prop :=
  ∃ i < timeWheelLength, ∃ ts,
    Visits (fun u => w.links.next (.node u)) (w.links.next (.header i)) ts ∧ t ∈ ts

/-- A tick that returns, with the tasks whose callback it called, in order. -/
def Ticks (w : TimeWheel T) (answer : T → UInt32) (w' : TimeWheel T) (calls : List T) : Prop :=
  ∃ fuel, doCurrentTimeWheel (fun calls t => (calls ++ [t], answer t)) fuel w [] = some (w', calls)

inductive Step : TimeWheel T → Event T → TimeWheel T → Prop
  | registerTask {w t} : ¬ Linked w t → Step w (.registerTask t) (w.registerTask t)
  | mountTask {w t next w'} : ¬ Linked w t → w.mountTask t next = some w' →
      Step w (.mountTask t next) w'
  | removeTask {w t w'} : Linked w t → w.removeTask t = some w' → Step w (.removeTask t) w'
  | doCurrentTimeWheel {w answer w' calls} : Ticks w answer w' calls →
      Step w (.doCurrentTimeWheel answer) w'

def Event.isTick : Event T → Bool
  | .doCurrentTimeWheel _ => true
  | _ => false

def ticksIn (es : List (Event T)) : Nat := es.countP Event.isTick

/-- The answers of a tick's callback, as slots to wait. -/
def answers (answer : T → UInt32) (ts : List T) : List (T × Option Nat) :=
  ts.map fun t => (t, if answer t > 0 then some (ticks (answer t)) else none)

def apply (r : Wheel T) : Event T → Wheel T
  | .registerTask _ => r
  | .mountTask t next => r.mount (ticks next) t
  | .removeTask t => r.remove t
  | .doCurrentTimeWheel answer => r.tick (answers answer (r.slot r.cur))

omit [DecidableEq T] in
theorem callAll_calls (answer : T → UInt32) (calls ts : List T) :
    callAll (fun calls t => (calls ++ [t], answer t)) calls ts =
      (calls ++ ts, answers answer ts) := by
  induction ts generalizing calls with
  | nil => simp [callAll, answers]
  | cons t ts ih => simp [callAll, answers, ih]

omit [DecidableEq T] in
theorem Refines.linked_iff {w : TimeWheel T} {r : Wheel T} (h : Refines w r) {t : T} :
    Linked w t ↔ ∃ i, t ∈ r.slot i := by
  constructor
  · rintro ⟨i, bound, ts, chain, member⟩
    refine ⟨⟨i, bound⟩, ?_⟩
    have same := chain.unique (h.links i).visits
    have there : i < 1000 := bound
    simpa [same, slotLists, there] using member
  · rintro ⟨i, member⟩
    exact ⟨i.val, i.isLt, _, (h.links i.val).visits, by simpa using member⟩

omit [DecidableEq T] in
theorem Refines.not_linked_iff {w : TimeWheel T} {r : Wheel T} (h : Refines w r) {t : T} :
    ¬ Linked w t ↔ r.Absent t := by
  rw [h.linked_iff]
  simp [Slots.Absent]

/-- A tick of a represented wheel returns, and it calls the current slot in order. -/
theorem Refines.ticks {w : TimeWheel T} {r : Wheel T} (h : Refines w r) (answer : T → UInt32) :
    ∃ w', Ticks w answer w' (r.slot r.cur) ∧ Refines w' (apply r (.doCurrentTimeWheel answer)) := by
  obtain ⟨w', done, refines⟩ :=
    h.doCurrentTimeWheel (fun calls t => (calls ++ [t], answer t)) le_rfl ([] : List T)
  rw [callAll_calls] at done refines
  exact ⟨w', ⟨_, done⟩, refines⟩

/-- Whatever fuel a tick returned with, it is the tick of the ring. -/
theorem Refines.of_ticks {w w' : TimeWheel T} {r : Wheel T} (h : Refines w r) {answer : T → UInt32}
    {calls : List T} (tick : Ticks w answer w' calls) :
    calls = r.slot r.cur ∧ Refines w' (apply r (.doCurrentTimeWheel answer)) := by
  obtain ⟨fuel, done⟩ := tick
  obtain ⟨v, enough, refines⟩ :=
    h.doCurrentTimeWheel (fun calls t => (calls ++ [t], answer t))
      (Nat.le_max_right fuel (r.slot r.cur).length) ([] : List T)
  rw [callAll_calls] at enough refines
  rw [doCurrentTimeWheel_mono _ (Nat.le_max_left fuel _) done] at enough
  cases enough
  exact ⟨rfl, refines⟩

theorem Refines.step {w w' : TimeWheel T} {r : Wheel T} (h : Refines w r) {e : Event T}
    (step : Step w e w') : Refines w' (apply r e) := by
  cases step with
  | registerTask unlinked => exact h.registerTask (h.not_linked_iff.mp unlinked)
  | mountTask unlinked mounted =>
      obtain ⟨v, same, refines, _⟩ := h.mountTask (h.not_linked_iff.mp unlinked) _
      cases same.symm.trans mounted
      exact refines
  | removeTask linked removed =>
      obtain ⟨i, member⟩ := h.linked_iff.mp linked
      obtain ⟨v, same, refines⟩ := h.removeTask member
      cases same.symm.trans removed
      exact refines
  | doCurrentTimeWheel tick => exact (h.of_ticks tick).2

theorem reachable_refines {w : TimeWheel T} (reachable : Reachable Step Fresh w) :
    ∃ r, Refines w r := by
  refine reachable.invariant (I := fun w => ∃ r, Refines w r) ?_ ?_
  · exact fun w fresh => ⟨_, fresh_refines fresh⟩
  · rintro w e w' ⟨r, refines⟩ step
    exact ⟨_, refines.step step⟩

/-- The representation invariant of the wheel, and what each operation does to the
lists: `mountTask` inserts in front of one slot, `removeTask` deletes in place. -/
structure Represented (w : TimeWheel T) (r : Wheel T) : Prop where
  refines : Refines w r
  distinct : r.Distinct
  index : w.currentTaskNumber < timeWheelLength
  registerTask : ∀ t, ¬ Linked w t → Refines (w.registerTask t) r
  mountTask : ∀ t next, ¬ Linked w t →
    w.currentTaskNumber + ticks next < 2 ^ 31 ∧
    ∃ w', ∃ i : Fin 1000, i.val = (w.currentTaskNumber + ticks next) % timeWheelLength ∧
      w.mountTask t next = some w' ∧
      Refines w' { r with slot := Function.update r.slot i (t :: r.slot i) }
  removeTask : ∀ t, Linked w t → ∃ w' i pre post, r.slot i = pre ++ t :: post ∧
    w.removeTask t = some w' ∧
    Refines w' { r with slot := Function.update r.slot i (pre ++ post) }
  tick : ∀ answer, ∃ w', Ticks w answer w' (r.slot r.cur) ∧
    Refines w' (r.tick (answers answer (r.slot r.cur)))

theorem wheel_represented {w : TimeWheel T} (reachable : Reachable Step Fresh w) :
    ∃ r : Wheel T, Represented w r := by
  obtain ⟨r, h⟩ := reachable_refines reachable
  have bound : w.currentTaskNumber < timeWheelLength := h.cur ▸ r.cur.isLt
  refine ⟨r, h, h.distinct, bound, ?_, ?_, ?_, fun answer => h.ticks answer⟩
  · exact fun t unlinked => h.registerTask (h.not_linked_iff.mp unlinked)
  · intro t next unlinked
    obtain ⟨w', mounted, refines, _⟩ := h.mountTask (h.not_linked_iff.mp unlinked) next
    refine ⟨ticks_no_overflow next bound, w', onward r.cur (ticks next), ?_, mounted, refines⟩
    rw [val_onward, h.cur]
    rfl
  · intro t linked
    obtain ⟨i, member⟩ := h.linked_iff.mp linked
    obtain ⟨w', removed, refines⟩ := h.removeTask member
    obtain ⟨pre, post, split⟩ := List.append_of_mem member
    refine ⟨w', i, pre, post, split, removed, ?_⟩
    have only : r.remove t = { r with slot := Function.update r.slot i (pre ++ post) } := by
      have nodup := h.distinct.nodup i
      rw [split] at nodup
      refine congrArg (Slots.mk r.cur) (funext ?_)
      intro j
      by_cases here : j = i
      · subst j
        rw [Function.update_self, split, List.erase_append_right, List.erase_cons_head]
        intro early
        exact (List.nodup_append.mp nodup).2.2 t early t List.mem_cons_self rfl
      · rw [Function.update_of_ne here]
        exact List.erase_of_not_mem fun inside => here (h.distinct.disjoint inside member)
    exact only ▸ refines

def emptyWheel : TimeWheel Nat := ⟨⟨fun _ => none, fun _ => none⟩, 0⟩

theorem mounted_reachable : ∃ w, emptyWheel.mountTask 7 10 = some w ∧ Reachable Step Fresh w := by
  have fresh : Fresh emptyWheel := ⟨rfl, fun _ => rfl⟩
  have unlinked : ¬ Linked emptyWheel 7 :=
    (fresh_refines fresh).not_linked_iff.mpr fun _ member => by cases member
  obtain ⟨w, mounted, _⟩ :=
    (fresh_refines fresh).mountTask (t := 7) (fun _ member => by cases member) 10
  exact ⟨w, mounted, emptyWheel, _, fresh, .single (.mountTask unlinked mounted)⟩

theorem wheel_represented_mounted :
    ∃ w, emptyWheel.mountTask 7 10 = some w ∧ ∃ r, Represented w r := by
  obtain ⟨w, mounted, reachable⟩ := mounted_reachable
  exact ⟨w, mounted, wheel_represented reachable⟩

/-! ### When a task runs -/

/-- The tick that follows `k` further ticks is to run the task. -/
def Waits (w : TimeWheel T) (t : T) (k : Nat) : Prop := ∃ r, Refines w r ∧ r.Due t k

/-- As long as the task is not removed, the next ticks leave it alone up to the
`k`-th, which runs it once. -/
def RunsFirst (w : TimeWheel T) (t : T) (k : Nat) : Prop :=
  ∀ es w', Trace Step w es w' → .removeTask t ∉ es → ticksIn es < k →
    ∀ answer w'' calls, Ticks w' answer w'' calls →
      calls.count t = if ticksIn es + 1 = k then 1 else 0

/-- No later tick runs the task, unless it is mounted again. -/
def NeverRuns (w : TimeWheel T) (t : T) : Prop :=
  ∀ es w', Trace Step w es w' → (∀ next, .mountTask t next ∉ es) →
    ∀ answer w'' calls, Ticks w' answer w'' calls → t ∉ calls

/-- The step lemma of the waiting time: only a tick shortens it. -/
theorem due_step {w w' : TimeWheel T} {r : Wheel T} (h : Refines w r) {t : T} {k : Nat}
    (due : r.Due t k) {e : Event T} (step : Step w e w') (stays : e ≠ .removeTask t)
    (ahead : e.isTick → 0 < k) :
    (apply r e).Due t (k - if e.isTick then 1 else 0) := by
  cases step with
  | registerTask _ => exact due
  | @mountTask u next _ unlinked _ =>
      have other : t ≠ u := fun eq => h.not_linked_iff.mp unlinked _ (eq ▸ due.2)
      exact (due_mount_other other _ _).mpr due
  | @removeTask u _ _ =>
      have other : t ≠ u := fun eq => stays (by rw [eq])
      exact (due_remove_other other _).mpr due
  | doCurrentTimeWheel _ =>
      obtain ⟨j, rfl⟩ : ∃ j, k = j + 1 := ⟨k - 1, by have := ahead rfl; omega⟩
      exact due.tick _

theorem due_trace {w w' : TimeWheel T} {es : List (Event T)} (trace : Trace Step w es w')
    {r : Wheel T} (h : Refines w r) {t : T} {k : Nat} (due : r.Due t k) (stays : .removeTask t ∉ es)
    (before : ticksIn es ≤ k) : ∃ r', Refines w' r' ∧ r'.Due t (k - ticksIn es) := by
  induction trace generalizing r k with
  | nil => exact ⟨r, h, due⟩
  | @cons w v w' e es step _ ih =>
      have split : ticksIn (e :: es) = ticksIn es + if e.isTick then 1 else 0 := by
        rw [ticksIn, List.countP_cons]
        rfl
      rw [split] at before ⊢
      have next := due_step h due step (fun eq => stays (eq ▸ List.mem_cons_self)) (by
        intro tick
        rw [if_pos tick] at before
        omega)
      obtain ⟨r', refines, final⟩ := ih (h.step step) next
        (fun member => stays (List.mem_cons_of_mem e member)) (by omega)
      exact ⟨r', refines, by rwa [Nat.sub_sub, Nat.add_comm] at final⟩

theorem Refines.runsFirst {w : TimeWheel T} {r : Wheel T} (h : Refines w r) {t : T} {k : Nat}
    (due : r.Due t k) : RunsFirst w t (k + 1) := by
  intro es w' trace stays before answer w'' calls tick
  obtain ⟨r', refines, waiting⟩ := due_trace trace h due stays (Nat.le_of_lt_succ before)
  rw [(refines.of_ticks tick).1]
  by_cases now : ticksIn es + 1 = k + 1
  · rw [if_pos now]
    have zero : k - ticksIn es = 0 := by omega
    rw [zero, due_zero] at waiting
    exact List.count_eq_one_of_mem (refines.distinct.nodup _) waiting
  · rw [if_neg now, List.count_eq_zero]
    intro member
    have := refines.distinct.due_unique (due_zero.mpr member) waiting
    omega

theorem absent_step {w w' : TimeWheel T} {r : Wheel T} {t : T} (absent : r.Absent t)
    {e : Event T} (step : Step w e w') (unmounted : ∀ next, e ≠ .mountTask t next) :
    (apply r e).Absent t := by
  cases step with
  | registerTask _ => exact absent
  | @mountTask u next _ _ _ =>
      exact absent_mount_other absent (fun eq => unmounted next (by rw [eq])) _
  | removeTask _ _ => exact fun i member => absent i (List.mem_of_mem_erase member)
  | doCurrentTimeWheel _ =>
      refine absent_tick (fun i _ => absent i) ?_
      intro k asked
      obtain ⟨u, member, pair⟩ := List.mem_map.mp asked
      exact absent _ ((Prod.mk.inj pair).1 ▸ member)

theorem Refines.neverRuns {w : TimeWheel T} {r : Wheel T} (h : Refines w r) {t : T}
    (absent : r.Absent t) : NeverRuns w t := by
  intro es w' trace unmounted answer w'' calls tick
  have final : ∃ r', Refines w' r' ∧ r'.Absent t := by
    induction trace generalizing r with
    | nil => exact ⟨r, h, absent⟩
    | @cons _ _ _ e _ step _ ih =>
        refine ih (h.step step) (absent_step absent step ?_)
          (fun next member => unmounted next (List.mem_cons_of_mem e member)) tick
        intro next eq
        exact unmounted next (eq ▸ List.mem_cons_self)
  obtain ⟨r', refines, gone⟩ := final
  rw [(refines.of_ticks tick).1]
  exact gone _

/-- Mounting with any delay: the horizon of the wheel is 1000 slots. -/
theorem mount_runsFirst {w w' : TimeWheel T} {r : Wheel T} (h : Refines w r) {t : T} {next : UInt32}
    (mount : Step w (.mountTask t next) w') : RunsFirst w' t (ticks next % timeWheelLength + 1) :=
  (h.step mount).runsFirst (due_mount r (ticks next) t)

omit [DecidableEq T] in
theorem mem_answers {answer : T → UInt32} {ts : List T} {t : T} {k : Nat} :
    (t, some k) ∈ answers answer ts ↔ t ∈ ts ∧ answer t > 0 ∧ ticks (answer t) = k := by
  simp only [answers, List.mem_map, Prod.mk.injEq]
  constructor
  · rintro ⟨u, member, rfl, asked⟩
    split at asked
    · exact ⟨member, ‹_›, Option.some.inj asked⟩
    · cases asked
  · rintro ⟨member, positive, rfl⟩
    exact ⟨t, member, rfl, by simp [positive]⟩

theorem ticks_below_horizon {next : UInt32} (short : next.toNat < 3000) :
    ticks next < timeWheelLength := by
  rw [ticks_eq]
  simp only [timeWheelLength]
  omega

/-- The timers of the wheel fire exactly on time: after a mount between ticks, and
after a callback that asked for another run. -/
structure FiresOnTime (w : TimeWheel T) (t : T) : Prop where
  returns : ∀ answer, ∃ w' calls, Ticks w answer w' calls
  mounted : ∀ next w', next.toNat < 3000 → Step w (.mountTask t next) w' →
    RunsFirst w' t (max 1 (next.toNat / 3) + 1)
  again : ∀ answer w' calls, Ticks w answer w' calls → t ∈ calls →
    0 < (answer t).toNat → (answer t).toNat < 3000 →
      RunsFirst w' t (max 1 ((answer t).toNat / 3))
  stopped : ∀ answer w' calls, Ticks w answer w' calls → t ∈ calls → answer t = 0 → NeverRuns w' t
  removed : ∀ w', Step w (.removeTask t) w' → NeverRuns w' t

theorem fires_on_time {w : TimeWheel T} (reachable : Reachable Step Fresh w) (t : T) :
    FiresOnTime w t := by
  obtain ⟨r, h⟩ := reachable_refines reachable
  refine ⟨?_, ?_, ?_, ?_, ?_⟩
  · intro answer
    obtain ⟨w', tick, _⟩ := h.ticks answer
    exact ⟨w', _, tick⟩
  · intro next w' short mount
    have runs := mount_runsFirst h mount
    rwa [Nat.mod_eq_of_lt (ticks_below_horizon short), ticks_eq] at runs
  · intro answer w' calls tick member positive short
    obtain ⟨rfl, refines⟩ := h.of_ticks tick
    obtain ⟨k, same⟩ : ∃ k, ticks (answer t) = k + 1 :=
      ⟨ticks (answer t) - 1, by have := ticks_pos (answer t); omega⟩
    have asked : (t, some (k + 1)) ∈ answers answer (r.slot r.cur) :=
      mem_answers.mpr ⟨member, UInt32.lt_iff_toNat_lt.mpr positive, same⟩
    have runs := refines.runsFirst (due_tick_again (r := r) asked)
    have small := ticks_below_horizon short
    rw [same] at small
    simp only [timeWheelLength] at small
    have wrap : k % 1000 = k := Nat.mod_eq_of_lt (by omega)
    rwa [wrap, ← same, ticks_eq] at runs
  · intro answer w' calls tick member zero
    obtain ⟨rfl, refines⟩ := h.of_ticks tick
    refine refines.neverRuns (absent_tick ?_ ?_)
    · exact fun i away inside => away (h.distinct.disjoint inside member)
    · intro k asked
      have positive := (mem_answers.mp asked).2.1
      rw [zero] at positive
      exact absurd positive (by decide)
  · intro w' remove
    exact (h.step remove).neverRuns (h.distinct.absent_remove t)

theorem fires_on_time_mounted :
    ∃ w, emptyWheel.mountTask 7 10 = some w ∧ FiresOnTime w 7 := by
  obtain ⟨w, mounted, reachable⟩ := mounted_reachable
  exact ⟨w, mounted, fires_on_time reachable 7⟩

end TransparentProxyNet.TimeWheel
