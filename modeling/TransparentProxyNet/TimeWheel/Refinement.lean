import TransparentProxyNet.Lib.SlotWheel
import TransparentProxyNet.TimeWheel.Model

/-! The pointers of the wheel represent a ring of 1000 task lists, and every
operation does to the ring what its name says. -/
namespace TransparentProxyNet.TimeWheel
open Links SlotWheel

variable {T : Type} {σ : Type}

/-- What the wheel is for: 1000 slots of tasks, one read per tick. -/
abbrev Wheel (T : Type) := Slots 1000 T

/-- The lists of the slots, by the index that the code uses. -/
def slotLists (r : Wheel T) (i : Nat) : List T :=
  if bound : i < 1000 then r.slot ⟨i, bound⟩ else []

structure Refines (w : TimeWheel T) (r : Wheel T) : Prop where
  cur : w.currentTaskNumber = r.cur.val
  links : Represents w.links (slotLists r)

@[simp] theorem slotLists_val (r : Wheel T) (i : Fin 1000) : slotLists r i.val = r.slot i := by
  simp [slotLists]

theorem mem_slotLists {r : Wheel T} {i : Nat} {t : T} (member : t ∈ slotLists r i) :
    ∃ bound : i < 1000, t ∈ r.slot ⟨i, bound⟩ := by
  by_cases bound : i < 1000
  · exact ⟨bound, by simpa [slotLists, bound] using member⟩
  · simp [slotLists, bound] at member

theorem absent_slotLists {r : Wheel T} {t : T} (absent : r.Absent t) (i : Nat) :
    t ∉ slotLists r i :=
  fun member => absent _ (mem_slotLists member).2

theorem slotLists_update (r : Wheel T) (i : Fin 1000) (ts : List T) :
    slotLists { r with slot := Function.update r.slot i ts } =
      Function.update (slotLists r) i.val ts := by
  funext j
  by_cases here : j = i.val
  · subst j
    simp
  · by_cases bound : j < 1000
    · have apart : (⟨j, bound⟩ : Fin 1000) ≠ i := fun eq => here (congrArg Fin.val eq)
      simp [slotLists, bound, Function.update_of_ne here, Function.update_of_ne apart]
    · simp [slotLists, bound, Function.update_of_ne here]

theorem slotLists_remove [DecidableEq T] (r : Wheel T) (t : T) :
    slotLists (r.remove t) = fun i => (slotLists r i).erase t := by
  funext i
  by_cases bound : i < 1000 <;> simp [slotLists, bound, Slots.remove]

theorem Refines.distinct {w : TimeWheel T} {r : Wheel T} (h : Refines w r) : r.Distinct where
  nodup i := slotLists_val r i ▸ h.links.nodup i.val
  disjoint := by
    intro i j t inI inJ
    exact Fin.ext (h.links.disjoint (slotLists_val r i ▸ inI) (slotLists_val r j ▸ inJ))

/-- The ring is a function of the pointers. -/
theorem Refines.unique {w : TimeWheel T} {r r' : Wheel T} (h : Refines w r) (h' : Refines w r') :
    r = r' := by
  obtain ⟨c, slot⟩ := r
  obtain ⟨c', slot'⟩ := r'
  have cur : c = c' := Fin.ext (h.cur.symm.trans h'.cur)
  have lists := h.links.unique h'.links
  have same : slot = slot' := by
    funext i
    have := congrFun lists i.val
    simpa using this
  rw [cur, same]

theorem fresh_refines {w : TimeWheel T} (fresh : w.Fresh) : Refines w ⟨0, fun _ => []⟩ := by
  refine ⟨fresh.1, ?_⟩
  intro i
  have empty : slotLists (⟨0, fun _ => []⟩ : Wheel T) i = [] := by simp [slotLists]
  rw [empty]
  exact fresh.2 i

variable [DecidableEq T]

/-- Clearing the pointers of a task that hangs nowhere. -/
theorem Refines.clear {w : TimeWheel T} {r : Wheel T} (h : Refines w r) {t : T}
    (absent : r.Absent t) :
    Refines { w with links := (w.links.setNext (.node t) none).setAhead t none } r := by
  have apart {i u} (member : u ∈ slotLists r i) : u ≠ t :=
    fun eq => absent_slotLists absent i (eq ▸ member)
  refine ⟨h.cur, h.links.frame (by simp) ?_ ?_⟩
  · intro i u member
    simp [apart member]
  · intro i u member
    simp [apart member]

theorem Refines.registerTask {w : TimeWheel T} {r : Wheel T} (h : Refines w r) {t : T}
    (absent : r.Absent t) : Refines (w.registerTask t) r := h.clear absent

/-- `mountTask` puts an unlinked task in front of its target slot. The last part
says which pointers it leaves alone; the walk of a tick needs it. -/
theorem Refines.mountTask {w : TimeWheel T} {r : Wheel T} (h : Refines w r) {t : T}
    (absent : r.Absent t) (d : UInt32) :
    ∃ w', w.mountTask t d = some w' ∧ Refines w' (r.mount (ticks d) t) ∧
      ∀ u, u ≠ t → w'.links.next (.node u) = w.links.next (.node u) := by
  let target := onward r.cur (ticks d)
  have index : (w.currentTaskNumber + ticks d) % timeWheelLength = target.val := by
    rw [h.cur, val_onward]
    rfl
  have lists : slotLists (r.mount (ticks d) t) =
      Function.update (slotLists r) target.val (t :: slotLists r target.val) := by
    rw [slotLists_val]
    exact slotLists_update r target _
  have fresh := absent_slotLists absent
  have hang := h.links target.val
  unfold TimeWheel.mountTask
  rw [index]
  cases shape : slotLists r target.val with
  | nil =>
      have empty : w.links.next (.header target.val) = none := by rwa [shape] at hang
      simp only [empty]
      refine ⟨_, rfl, ⟨h.cur, ?_⟩, by simp +contextual⟩
      rw [lists]
      apply h.links.insert fresh
      · simp
      · simp [empty]
      · simp
      · simp [empty]
      · intro l notHeader notNode
        simp [notHeader, notNode]
      · intro x other _
        simp [other]
  | cons first rest =>
      rw [shape] at hang
      have apart : first ≠ t := fun eq => fresh target.val (by simp [shape, eq])
      simp only [hang.1, hang.2.1]
      refine ⟨_, rfl, ⟨h.cur, ?_⟩, by simp +contextual⟩
      rw [lists]
      apply h.links.insert fresh
      · simp
      · simp [hang.1]
      · simp [apart.symm, hang.2.1]
      · intro f same
        rw [hang.1] at same
        cases same
        simp
      · intro l notHeader notNode
        simp [notHeader, notNode]
      · intro x other notFirst
        have : x ≠ first := fun eq => notFirst (eq ▸ hang.1)
        simp [other, this]

theorem Refines.removeTask {w : TimeWheel T} {r : Wheel T} (h : Refines w r) {t : T} {i : Fin 1000}
    (member : t ∈ r.slot i) : ∃ w', w.removeTask t = some w' ∧ Refines w' (r.remove t) := by
  have inside : t ∈ slotLists r i.val := (slotLists_val r i).symm ▸ member
  have hang := h.links i.val
  obtain ⟨a, back, _⟩ := hang.ahead_mem inside
  -- neither pointer of a linked task leads back to itself
  have aheadAway : a ≠ .node t := fun eq => hang.ahead_ne (by simp) inside (eq ▸ back)
  have nextAway := hang.next_ne inside
  unfold TimeWheel.removeTask
  simp only [back, setNext_next, Function.update_of_ne (Ne.symm aheadAway)]
  refine ⟨_, rfl, h.cur, ?_⟩
  rw [slotLists_remove]
  cases next : w.links.next (.node t) with
  | none =>
      apply h.links.unlink inside back
      · simp [aheadAway, next]
      · simp [next]
      · intro l notAhead notNode
        simp [notAhead, notNode]
      · intro x other _
        simp [other]
  | some f =>
      have apart : f ≠ t := fun eq => nextAway (eq ▸ next)
      apply h.links.unlink inside back
      · simp [aheadAway, next]
      · intro g same
        cases next.symm.trans same
        simp [apart, back]
      · intro l notAhead notNode
        simp [notAhead, notNode]
      · intro x other notNext
        have : x ≠ f := fun eq => notNext (eq ▸ next)
        simp [other, this]

/-- What the callback answers for the tasks of a slot, each answer being the number
of slots for which the task is mounted again. -/
def callAll (ctwCallBack : σ → T → σ × UInt32) : σ → List T → σ × List (T × Option Nat)
  | s, [] => (s, [])
  | s, t :: ts =>
    let answer := ctwCallBack s t
    let rest := callAll ctwCallBack answer.1 ts
    (rest.1, (t, if answer.2 > 0 then some (ticks answer.2) else none) :: rest.2)

/-- The walk over a detached chain. Its nodes hang in no slot, so no mount of an
earlier one touches the `next_` of a later one; that carries the induction. -/
theorem Refines.runSlot (ctwCallBack : σ → T → σ × UInt32) {w : TimeWheel T} {r : Wheel T}
    (h : Refines w r) {p : Option T} {ts : List T}
    (chain : Visits (fun t => w.links.next (.node t)) p ts) (absent : ∀ t ∈ ts, r.Absent t)
    {fuel : Nat} (enough : ts.length ≤ fuel) (s : σ) :
    ∃ w', TimeWheel.runSlot ctwCallBack fuel w s p = some (w', (callAll ctwCallBack s ts).1) ∧
      Refines w' (r.place (callAll ctwCallBack s ts).2) := by
  induction ts generalizing w r p fuel s with
  | nil =>
      rw [visits_nil.mp chain]
      exact ⟨w, by simp [TimeWheel.runSlot, callAll], h⟩
  | cons t ts ih =>
      obtain ⟨fuel, rfl⟩ : ∃ n, fuel = n + 1 :=
        ⟨fuel - 1, by simp only [List.length_cons] at enough; omega⟩
      have distinct := List.nodup_cons.mp chain.nodup
      rw [chain.1]
      have cleared := h.clear (absent t List.mem_cons_self)
      have rest : ∀ u ∈ ts, u ≠ t := fun u member eq => distinct.1 (eq ▸ member)
      by_cases again : (ctwCallBack s t).2 > 0
      · obtain ⟨w', mounted, refines, kept⟩ :=
          cleared.mountTask (absent t List.mem_cons_self) (ctwCallBack s t).2
        have chain' : Visits (fun t => w'.links.next (.node t)) (w.links.next (.node t)) ts := by
          apply chain.2.congr
          intro u member
          rw [kept u (rest u member)]
          simp [rest u member]
        obtain ⟨w'', walked, final⟩ := ih refines chain'
          (fun u member => absent_mount_other (absent u (List.mem_cons_of_mem t member))
            (rest u member) _)
          (Nat.le_of_succ_le_succ enough) (ctwCallBack s t).1
        refine ⟨w'', ?_, ?_⟩
        · simp only [TimeWheel.runSlot, again, if_true, mounted, Option.bind_some, walked, callAll]
        · simpa only [callAll, again, if_true, Slots.place] using final
      · have chain' :
            Visits (fun u => ((w.links.setNext (.node t) none).setAhead t none).next (.node u))
            (w.links.next (.node t)) ts :=
          chain.2.congr fun u member => by simp [rest u member]
        obtain ⟨w'', walked, final⟩ := ih cleared chain'
          (fun u member => absent u (List.mem_cons_of_mem t member))
          (Nat.le_of_succ_le_succ enough) (ctwCallBack s t).1
        refine ⟨w'', ?_, ?_⟩
        · simp only [TimeWheel.runSlot, again, if_false, Option.bind_some, walked, callAll]
        · simpa only [callAll, again, if_false, Slots.place] using final

theorem cur_step (c : Fin 1000) : (if c.val + 1 ≥ 1000 then 0 else c.val + 1) = (c + 1).val := by
  have bound := c.isLt
  simp only [Fin.val_add, Fin.val_one]
  split <;> omega

/-- A tick, on the pointers and on the ring. -/
theorem Refines.doCurrentTimeWheel (ctwCallBack : σ → T → σ × UInt32) {w : TimeWheel T}
    {r : Wheel T} (h : Refines w r) {fuel : Nat} (enough : (r.slot r.cur).length ≤ fuel) (s : σ) :
    ∃ w', TimeWheel.doCurrentTimeWheel ctwCallBack fuel w s =
        some (w', (callAll ctwCallBack s (r.slot r.cur)).1) ∧
      Refines w' (r.tick (callAll ctwCallBack s (r.slot r.cur)).2) := by
  have hang := h.links r.cur.val
  rw [slotLists_val] at hang
  have emptied : Refines { w with links := w.links.setNext (.header w.currentTaskNumber) none }
    r.emptied := by
    refine ⟨h.cur, ?_⟩
    rw [Slots.emptied, slotLists_update]
    refine h.links.detach ?_ ?_ rfl
    · simp [h.cur]
    · intro l away
      simp [h.cur, away]
  have chain : Visits (fun t => (w.links.setNext (.header w.currentTaskNumber) none).next (.node t))
      (w.links.next (.header w.currentTaskNumber)) (r.slot r.cur) := by
    rw [h.cur]
    exact hang.visits.congr fun t _ => by simp
  have absent : ∀ t ∈ r.slot r.cur, r.emptied.Absent t := by
    intro t member i inside
    by_cases here : i = r.cur
    · simp [Slots.emptied, here] at inside
    · simp only [Slots.emptied, Function.update_of_ne here] at inside
      exact here (h.distinct.disjoint inside member)
  obtain ⟨w', walked, final⟩ := emptied.runSlot ctwCallBack chain absent enough s
  refine ⟨{ w' with currentTaskNumber := (r.cur + 1).val }, ?_, rfl, final.links⟩
  have cur : w'.currentTaskNumber = r.cur.val := by
    rw [final.cur, place_cur]
    rfl
  simp only [TimeWheel.doCurrentTimeWheel, walked, Option.map_some, cur, cur_step]

end TransparentProxyNet.TimeWheel
