import TransparentProxyNet.Lib.Links

/-! The timing wheel of `timeWheel.hpp`, on the level of its pointers.

A slot header `taskHeader` and a `task` both start with `next_`, and the code
casts `(task*)&timeSegmentList_[i]`; here both are a `Link`, so that one read or
write of `next_` serves both. `none` is the null pointer. A function returns
`none` where the code would dereference a null pointer, and the walk of a tick
also when its fuel is spent. -/
namespace TransparentProxyNet
open Links

def timeWheelLength : Nat := 1000

def deltaTime : UInt32 := 3

structure TimeWheel (T : Type) where
  links : Store Nat T
  currentTaskNumber : Nat

namespace TimeWheel
variable {T : Type} [DecidableEq T] {σ : Type}

/-- `timeWheel()`: all slots empty. The memory of the tasks may hold anything. -/
def Fresh (w : TimeWheel T) : Prop :=
  w.currentTaskNumber = 0 ∧ ∀ i, w.links.next (.header i) = none

/-- The number of slots a delay stands for, as `mountTask` computes it. -/
def ticks (next : UInt32) : Nat :=
  let ticks := (next / deltaTime).toNat
  if ticks < 1 then 1 else ticks

def registerTask (w : TimeWheel T) (task : T) : TimeWheel T :=
  { w with links := (w.links.setNext (.node task) none).setAhead task none }

def removeTask (w : TimeWheel T) (task : T) : Option (TimeWheel T) :=
  match w.links.ahead task with
  | none => none
  | some ahead =>
    let links := w.links.setNext ahead (w.links.next (.node task))
    let links := match links.next (.node task) with
      | some next => links.setAhead next (links.ahead task)
      | none => links
    some { w with links := (links.setNext (.node task) none).setAhead task none }

def mountTask (w : TimeWheel T) (node : T) (next : UInt32) : Option (TimeWheel T) :=
  let target := (w.currentTaskNumber + ticks next) % timeWheelLength
  match w.links.next (.header target) with
  | none =>
    let links := w.links.setNext (.node node) none
    let links := links.setAhead node (some (.header target))
    some { w with links := links.setNext (.header target) (some node) }
  | some first =>
    match w.links.ahead first with
    | none => none
    | some ahead =>
      let links := w.links.setNext ahead (some node)
      let links := links.setNext (.node node) (some first)
      let links := links.setAhead node (links.ahead first)
      some { w with links := links.setAhead first (some (.node node)) }

/-- The `while` loop of `doCurrentTimeWheel`. The callback reads and writes its own
state `σ`, never the wheel. -/
def runSlot (ctwCallBack : σ → T → σ × UInt32) :
    Nat → TimeWheel T → σ → Option T → Option (TimeWheel T × σ)
  | _, w, s, none => some (w, s)
  | 0, _, _, some _ => none
  | fuel + 1, w, s, some currentTask =>
    let point := w.links.next (.node currentTask)
    let w :=
      { w with links := (w.links.setNext (.node currentTask) none).setAhead currentTask none }
    let (s, nextTime) := ctwCallBack s currentTask
    let mounted := if nextTime > 0 then w.mountTask currentTask nextTime else some w
    mounted.bind fun w => runSlot ctwCallBack fuel w s point

def doCurrentTimeWheel (ctwCallBack : σ → T → σ × UInt32) (fuel : Nat) (w : TimeWheel T) (s : σ) :
    Option (TimeWheel T × σ) :=
  let currentTask := w.links.next (.header w.currentTaskNumber)
  let w := { w with links := w.links.setNext (.header w.currentTaskNumber) none }
  (runSlot ctwCallBack fuel w s currentTask).map fun (w, s) =>
    let currentTaskNumber := w.currentTaskNumber + 1
    ({ w with currentTaskNumber := if currentTaskNumber ≥ 1000 then 0 else currentTaskNumber }, s)

theorem runSlot_mono (ctwCallBack : σ → T → σ × UInt32) {fuel more : Nat} {w : TimeWheel T} {s : σ}
    {p : Option T} {out : TimeWheel T × σ} (le : fuel ≤ more)
    (done : runSlot ctwCallBack fuel w s p = some out) :
    runSlot ctwCallBack more w s p = some out := by
  induction fuel generalizing more w s p with
  | zero =>
      cases p with
      | none => simpa [runSlot] using done
      | some t => simp [runSlot] at done
  | succ fuel ih =>
      obtain ⟨more, rfl⟩ : ∃ n, more = n + 1 := ⟨more - 1, by omega⟩
      cases p with
      | none => simpa [runSlot] using done
      | some t =>
          simp only [runSlot, Option.bind_eq_some_iff] at done ⊢
          obtain ⟨w', mounted, walked⟩ := done
          exact ⟨w', mounted, ih (Nat.le_of_succ_le_succ le) walked⟩

/-- More fuel changes nothing once a tick has returned. -/
theorem doCurrentTimeWheel_mono (ctwCallBack : σ → T → σ × UInt32) {fuel more : Nat}
    {w : TimeWheel T} {s : σ} {out : TimeWheel T × σ} (le : fuel ≤ more)
    (done : doCurrentTimeWheel ctwCallBack fuel w s = some out) :
    doCurrentTimeWheel ctwCallBack more w s = some out := by
  simp only [doCurrentTimeWheel, Option.map_eq_some_iff] at done ⊢
  obtain ⟨mid, walked, same⟩ := done
  exact ⟨mid, runSlot_mono ctwCallBack le walked, same⟩

theorem ticks_eq (next : UInt32) : ticks next = max 1 (next.toNat / 3) := by
  have quotient : (next / deltaTime).toNat = next.toNat / 3 := by
    rw [UInt32.toNat_div]
    rfl
  simp only [ticks, quotient]
  split <;> omega

theorem ticks_pos (next : UInt32) : 0 < ticks next := by
  rw [ticks_eq]
  omega

/-- `currentTaskNumber_ + ticks` is far from the range of `int`. -/
theorem ticks_no_overflow (next : UInt32) {c : Nat} (bound : c < timeWheelLength) :
    c + ticks next < 2 ^ 31 := by
  have small := next.toNat_lt
  rw [ticks_eq]
  simp only [timeWheelLength] at bound
  omega

end TimeWheel
end TransparentProxyNet
