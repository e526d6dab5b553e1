import Mathlib.Algebra.BigOperators.Fin
import Mathlib.Data.List.MinMax
import TransparentProxyNet.Lib.Machine

/-! The accept loop of `server.cpp`. The worker for a connection is chosen when the accept
is armed, and counted when it succeeds. -/
namespace TransparentProxyNet.Server
open Machine

variable {threadSize : Nat} [NeZero threadSize]

/-- One round of the loop of `getThreadWorker`, on `threadId` and its `sessionSize`. -/
def poll (sessionSize : Fin threadSize → UInt32) (least : Fin threadSize × UInt32)
    (i : Fin threadSize) : Fin threadSize × UInt32 :=
  if sessionSize i < least.2 then (i, sessionSize i) else least

def getThreadWorker (sessionSize : Fin threadSize → UInt32) : Fin threadSize :=
  ((List.finRange threadSize).tail.foldl (poll sessionSize) (0, sessionSize 0)).1

/-- `workerPtr` is the worker of the accept that is outstanding. `assigned` records how many
connections each worker has ever been given. -/
structure Acceptor (threadSize : Nat) where
  sessionSize : Fin threadSize → UInt32
  workerPtr : Fin threadSize
  assigned : Fin threadSize → Nat

namespace Acceptor

def work (a : Acceptor threadSize) : Acceptor threadSize :=
  { a with workerPtr := getThreadWorker a.sessionSize }

def start : Acceptor threadSize := work ⟨fun _ => 0, 0, fun _ => 0⟩

/-- `++workerPtr->sessionSize` -/
def assign (a : Acceptor threadSize) : Acceptor threadSize :=
  { a with
    sessionSize :=
      Function.update a.sessionSize a.workerPtr (a.sessionSize a.workerPtr + 1)
    assigned := Function.update a.assigned a.workerPtr (a.assigned a.workerPtr + 1) }

/-- The handler of `async_accept`. -/
def acceptHandler (a : Acceptor threadSize) (ec : Bool) : Acceptor threadSize :=
  work (if ec then a else a.assign)

inductive Step : Acceptor threadSize → Bool → Acceptor threadSize → Prop
  | accept {a ec} : Step a ec (a.acceptHandler ec)

/-- No worker has reached `2 ^ 32` connections. -/
def Below (a : Acceptor threadSize) : Prop := ∀ i, a.assigned i < 2 ^ 32

end Acceptor

/-! ### The choice -/

omit [NeZero threadSize] in
/-- The loop keeps the first of the least. -/
theorem poll_argmin (sessionSize : Fin threadSize → UInt32) (l : List (Fin threadSize))
    (m : Fin threadSize) :
    l.foldl (List.argAux fun i j => (sessionSize i).toNat < (sessionSize j).toNat) (some m) =
      some (l.foldl (poll sessionSize) (m, sessionSize m)).1 := by
  induction l generalizing m with
  | nil => rfl
  | cons i l ih =>
      rw [List.foldl_cons, List.foldl_cons, poll]
      by_cases less : sessionSize i < sessionSize m
      · rw [if_pos less, ← ih i]
        exact congrArg (List.foldl _ · l) (if_pos (UInt32.lt_iff_toNat_lt.mp less))
      · rw [if_neg less, ← ih m]
        exact congrArg (List.foldl _ · l) (if_neg (less ∘ UInt32.lt_iff_toNat_lt.mpr))

theorem finRange_eq_cons : List.finRange threadSize = 0 :: (List.finRange threadSize).tail := by
  obtain ⟨n, rfl⟩ := Nat.exists_eq_succ_of_ne_zero (NeZero.ne threadSize)
  rw [List.finRange_succ]
  rfl

theorem getThreadWorker_argmin (sessionSize : Fin threadSize → UInt32) :
    getThreadWorker sessionSize ∈
      (List.finRange threadSize).argmin fun i => (sessionSize i).toNat := by
  rw [finRange_eq_cons, List.argmin, List.foldl_cons]
  exact poll_argmin sessionSize _ 0

theorem getThreadWorker_least (sessionSize : Fin threadSize → UInt32) (i : Fin threadSize) :
    (sessionSize (getThreadWorker sessionSize)).toNat ≤ (sessionSize i).toNat :=
  List.le_of_mem_argmin (f := fun i => (sessionSize i).toNat) (List.mem_finRange i)
    (getThreadWorker_argmin sessionSize)

/-! ### The balance -/

namespace Acceptor
variable {a a' : Acceptor threadSize}

/-- The counters are right, the accept outstanding is for a worker with the fewest
connections, and no worker is more than one ahead of another. -/
structure Even (a : Acceptor threadSize) : Prop where
  counted : ∀ i, (a.sessionSize i).toNat = a.assigned i
  least : ∀ i, a.assigned a.workerPtr ≤ a.assigned i
  spread : ∀ i j, a.assigned i ≤ a.assigned j + 1

theorem work_even (counted : ∀ i, (a.sessionSize i).toNat = a.assigned i)
    (spread : ∀ i j, a.assigned i ≤ a.assigned j + 1) : a.work.Even where
  counted := counted
  least i := by
    have chosen := getThreadWorker_least a.sessionSize i
    rwa [counted, counted] at chosen
  spread := spread

theorem start_even : (start : Acceptor threadSize).Even :=
  work_even (fun _ => rfl) fun _ _ => Nat.zero_le _

omit [NeZero threadSize] in
/-- Counting the least brings it level with the others, or one ahead. -/
theorem assign_spread (h : a.Even) (i j : Fin threadSize) :
    a.assign.assigned i ≤ a.assign.assigned j + 1 := by
  have one := h.spread i j
  have lead := h.spread i a.workerPtr
  have low := h.least j
  simp only [assign, Function.update_apply]
  split
  · split <;> omega
  · split <;> omega

omit [NeZero threadSize] in
theorem assign_counted (h : a.Even) (below : a.assign.Below) (i : Fin threadSize) :
    (a.assign.sessionSize i).toNat = a.assign.assigned i := by
  have bound := below i
  have before := h.counted i
  simp only [assign, Function.update_apply] at bound ⊢
  split
  · rename_i chosen
    subst chosen
    rw [if_pos rfl] at bound
    rw [UInt32.toNat_add, before]
    exact Nat.mod_eq_of_lt bound
  · exact before

theorem even_step {ec : Bool} (h : a.Even) (step : Staying Below Step a ec a') : a'.Even := by
  obtain ⟨⟨⟩, below⟩ := step
  cases ec with
  | true => exact work_even h.counted h.spread
  | false => exact work_even (assign_counted h below) (assign_spread h)

omit [NeZero threadSize] in
theorem assign_sum : ∑ i, a.assign.assigned i = ∑ i, a.assigned i + 1 := by
  have rest := Finset.sum_erase_add Finset.univ a.assigned (Finset.mem_univ a.workerPtr)
  rw [assign, Finset.sum_update_of_mem (Finset.mem_univ _), ← rest, Finset.sdiff_singleton_eq_erase]
  omega

theorem sum_trace {ecs : List Bool} (trace : Trace Step a ecs a') :
    ∑ i, a'.assigned i = ∑ i, a.assigned i + ecs.count false := by
  induction trace with
  | nil => rfl
  | @cons _ _ _ ec _ step _ ih =>
      cases step
      rw [ih]
      cases ec with
      | true => simp [acceptHandler, work]
      | false =>
          change ∑ i, (assign _).assigned i + _ = _
          rw [assign_sum, List.count_cons_self]
          omega

/-- Any two workers differ by at most one connection, and none is lost or counted twice. -/
theorem spread_evenly {ecs : List Bool}
    (trace : Trace (Staying Below Step) (start : Acceptor threadSize) ecs a) :
    (∀ i j, a.assigned i ≤ a.assigned j + 1) ∧ ∑ i, a.assigned i = ecs.count false := by
  constructor
  · exact (trace.invariant (I := Even) (fun _ _ _ => even_step) start_even).spread
  · rw [sum_trace (trace.mono fun _ _ _ step => step.1)]
    simp [start, work]

/-- Two connections, with a failed accept between them, on three workers. -/
theorem spread_evenly_three : ∃ a : Acceptor 3, a.assigned 0 = 1 ∧ a.assigned 1 = 1 ∧
    a.assigned 2 = 0 ∧ (∀ i j, a.assigned i ≤ a.assigned j + 1) ∧
    ∑ i, a.assigned i = [false, true, false].count false := by
  have first : Staying Below Step (start : Acceptor 3) false (start.acceptHandler false) :=
    ⟨.accept, by unfold Below; decide⟩
  have failed : Staying Below Step ((start : Acceptor 3).acceptHandler false) true
      ((start.acceptHandler false).acceptHandler true) := ⟨.accept, by unfold Below; decide⟩
  have second : Staying Below Step (((start : Acceptor 3).acceptHandler false).acceptHandler true)
      false (((start.acceptHandler false).acceptHandler true).acceptHandler false) :=
    ⟨.accept, by unfold Below; decide⟩
  exact ⟨_, by decide, by decide, by decide,
    spread_evenly (.cons first (.cons failed (.cons second (.nil _))))⟩

end Acceptor
end TransparentProxyNet.Server
