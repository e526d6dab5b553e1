import Mathlib.Data.Fintype.Card
import TransparentProxyNet.Lib.Machine

/-! `startThreadPool` of `server.cpp` and the part of `worker::start` that it waits for,
which are alike in both programs. The main thread waits on a condition variable, under
`lock_`, until every worker has counted itself; the workers never take `lock_`. -/
namespace TransparentProxyNet.Server
open Machine

/-- Where a worker stands: before `++sonThreadStatus_`, between it and `notify_one`, or
behind both. -/
inductive WorkerStatus where
  | starting
  | counted
  | notified
  deriving DecidableEq

/-- Where the main thread stands in `conditionVariable.wait`: before the test of the
predicate, behind a test that was false, blocked, or behind the whole. -/
inductive MainStatus where
  | testing
  | refused
  | blocked
  | passed
  deriving DecidableEq

structure Startup (threadSize : Nat) where
  sonThreadStatus : Nat
  workers : Fin threadSize → WorkerStatus
  main : MainStatus

namespace Startup
variable {threadSize : Nat}

inductive Event (threadSize : Nat) where
  | incrementStatus (i : Fin threadSize)
  | notifyOne (i : Fin threadSize)
  | test
  | block

def init (threadSize : Nat) : Startup threadSize := ⟨0, fun _ => .starting, .testing⟩

def setWorker (s : Startup threadSize) (i : Fin threadSize) (status : WorkerStatus) :
    Startup threadSize :=
  { s with workers := Function.update s.workers i status }

/-- A notification wakes the main thread if it is blocked, and is lost if it is not. -/
def wake : MainStatus → MainStatus
  | .blocked => .testing
  | main => main

inductive Step : Startup threadSize → Event threadSize → Startup threadSize → Prop
  | incrementStatus {s i} : s.workers i = .starting →
      Step s (.incrementStatus i)
        { s.setWorker i .counted with sonThreadStatus := s.sonThreadStatus + 1 }
  | notifyOne {s i} : s.workers i = .counted →
      Step s (.notifyOne i) { s.setWorker i .notified with main := wake s.main }
  | test {s} : s.main = .testing →
      Step s .test
        { s with main := if s.sonThreadStatus = threadSize then .passed else .refused }
  | block {s} : s.main = .refused → Step s .block { s with main := .blocked }

/-- The main thread is blocked, and nobody is left to wake it. -/
def Stalled (s : Startup threadSize) : Prop :=
  s.main = .blocked ∧ ∀ i, s.workers i = .notified

/-- The last `notify_one` does not come while the main thread is on its way from a test
that was false to its block. -/
def NoLateNotify (s : Startup threadSize) (e : Event threadSize) : Prop :=
  ∀ i, e = .notifyOne i → s.main = .refused → ∃ j, j ≠ i ∧ s.workers j ≠ .notified

/-- `sonThreadStatus_` counts the workers, and whoever waits has somebody to wait for. -/
structure Holds (s : Startup threadSize) : Prop where
  status : s.sonThreadStatus =
    (Finset.univ.filter fun i => s.workers i ≠ .starting).card
  awaited : s.main = .refused ∨ s.main = .blocked → ∃ i, s.workers i ≠ .notified

section
variable {s t : Startup threadSize} {e : Event threadSize}

theorem init_holds (threadSize : Nat) : Holds (init threadSize) := by
  constructor
  · simp [init]
  · rintro (refused | blocked)
    · cases refused
    · cases blocked

theorem Holds.incrementStatus (h : s.Holds) {i : Fin threadSize}
    (starting : s.workers i = .starting) :
    Holds { s.setWorker i .counted with sonThreadStatus := s.sonThreadStatus + 1 } := by
  constructor
  · have more : (Finset.univ.filter fun j => (s.setWorker i .counted).workers j ≠ .starting) =
        insert i (Finset.univ.filter fun j => s.workers j ≠ .starting) := by
      ext j
      simp only [Finset.mem_insert, Finset.mem_filter, Finset.mem_univ, true_and]
      by_cases same : j = i
      · simp [setWorker, same]
      · simp [setWorker, same]
    change s.sonThreadStatus + 1 = _
    rw [h.status]
    refine (Eq.trans (congrArg Finset.card more) ?_).symm
    exact Finset.card_insert_of_notMem (by simp [starting])
  · intro waiting
    obtain ⟨j, unfinished⟩ := h.awaited waiting
    by_cases same : j = i
    · exact ⟨i, by simp [setWorker]⟩
    · exact ⟨j, by simpa [setWorker, Function.update_of_ne same] using unfinished⟩

theorem Holds.notifyOne (h : s.Holds) {i : Fin threadSize} (counted : s.workers i = .counted)
    (guard : s.NoLateNotify (.notifyOne i)) :
    Holds { s.setWorker i .notified with main := wake s.main } := by
  constructor
  · change s.sonThreadStatus = _
    rw [h.status]
    congr 1
    ext j
    simp only [Finset.mem_filter, Finset.mem_univ, true_and]
    by_cases same : j = i
    · simp [setWorker, same, counted]
    · simp [setWorker, Function.update_of_ne same]
  · intro waiting
    cases main : s.main with
    | testing => simp [wake, main] at waiting
    | passed => simp [wake, main] at waiting
    | blocked => simp [wake, main] at waiting
    | refused =>
        obtain ⟨j, other, unfinished⟩ := guard i rfl main
        exact ⟨j, by simpa [setWorker, Function.update_of_ne other] using unfinished⟩

/-- A test that fails has seen a worker that has not counted itself. -/
theorem Holds.test (h : s.Holds) :
    Holds { s with main := if s.sonThreadStatus = threadSize then .passed else .refused } := by
  refine ⟨h.status, fun waiting => ?_⟩
  have fewer : s.sonThreadStatus ≠ threadSize := by
    intro all
    simp [all] at waiting
  by_contra finished
  apply fewer
  have all (i : Fin threadSize) : s.workers i = .notified := by
    by_contra other
    exact finished ⟨i, other⟩
  rw [h.status, Finset.filter_true_of_mem (fun i _ => by simp [all i]), Finset.card_univ,
    Fintype.card_fin]

theorem holds_step (h : s.Holds) (step : Step s e t) (guard : s.NoLateNotify e) : t.Holds := by
  cases step with
  | incrementStatus starting => exact h.incrementStatus starting
  | notifyOne counted => exact h.notifyOne counted guard
  | test _ => exact h.test
  | block refused => exact ⟨h.status, fun _ => h.awaited (.inl refused)⟩

theorem Holds.not_stalled (h : s.Holds) : ¬ s.Stalled := by
  rintro ⟨blocked, finished⟩
  obtain ⟨i, unfinished⟩ := h.awaited (.inr blocked)
  exact unfinished (finished i)

/-- After a late `notify_one` the main thread blocks, and that is the end. -/
theorem stalls_of_late (step : Step s e t) (late : ¬ s.NoLateNotify e) :
    ∃ u, Step t .block u ∧ u.Stalled ∧ ∀ f v, Step t f v → v = u := by
  simp only [NoLateNotify, not_forall, not_exists, not_and, not_not] at late
  obtain ⟨i, rfl, refused, others⟩ := late
  cases step with
  | notifyOne counted =>
      have finished (j : Fin threadSize) : (s.setWorker i .notified).workers j = .notified := by
        by_cases same : j = i
        · simp [setWorker, same]
        · simpa [setWorker, Function.update_of_ne same] using others j same
      have main : wake s.main = .refused := by rw [refused]; rfl
      refine ⟨_, .block main, ⟨rfl, finished⟩, ?_⟩
      intro f v step
      cases step with
      | incrementStatus starting => cases (finished _).symm.trans starting
      | notifyOne counted => cases (finished _).symm.trans counted
      | test testing => cases main.symm.trans testing
      | block _ => rfl

end

/-- While the main thread is on its way to its block, workers run to their end one after
the other, and it sees nothing of them. -/
theorem exists_finish {s : Startup threadSize} (refused : s.main = .refused)
    (is : List (Fin threadSize)) (distinct : is.Nodup)
    (starting : ∀ i ∈ is, s.workers i = .starting) :
    ∃ es t, Trace Step s es t ∧ t.main = .refused ∧ (∀ i ∈ is, t.workers i = .notified) ∧
      ∀ i, i ∉ is → t.workers i = s.workers i := by
  induction is generalizing s with
  | nil => exact ⟨[], s, .nil s, refused, by simp, fun _ _ => rfl⟩
  | cons i is ih =>
      obtain ⟨fresh, distinct⟩ := List.nodup_cons.mp distinct
      let u : Startup threadSize :=
        { s.setWorker i .counted with sonThreadStatus := s.sonThreadStatus + 1 }
      let v : Startup threadSize := { u.setWorker i .notified with main := wake u.main }
      have first : Step s (.incrementStatus i) u := .incrementStatus (starting i (by simp))
      have second : Step u (.notifyOne i) v := .notifyOne (by simp [u, setWorker])
      have main : v.main = .refused := by simp [v, u, setWorker, refused, wake]
      have finished : v.workers i = .notified := by simp [v, setWorker]
      have other (j : Fin threadSize) (ne : j ≠ i) : v.workers j = s.workers j := by
        simp [v, u, setWorker, Function.update_of_ne ne]
      have rest (j : Fin threadSize) (mem : j ∈ is) : v.workers j = .starting := by
        rw [other j (fun same => fresh (same ▸ mem))]
        exact starting j (List.mem_cons_of_mem _ mem)
      obtain ⟨es, t, trace, blind, ran, frame⟩ := ih main distinct rest
      refine ⟨_, t, .cons first (.cons second trace), blind, ?_, ?_⟩
      · intro j mem
        rcases List.mem_cons.mp mem with rfl | mem
        · rw [frame j fresh, finished]
        · exact ran j mem
      · intro j out
        rw [List.mem_cons, not_or] at out
        rw [frame j out.2, other j out.1]

/-- The schedule that never shows: the main thread tests too early, and all workers
start between this test and its block. -/
theorem exists_stalled (threadSize : Nat) (positive : 0 < threadSize) :
    ∃ s, Reachable Step (· = init threadSize) s ∧ s.Stalled := by
  let u : Startup threadSize := { init threadSize with main := .refused }
  have early : Step (init threadSize) .test u := by
    have step := Step.test (s := init threadSize) rfl
    rwa [if_neg (by simpa [init] using positive.ne)] at step
  obtain ⟨es, t, trace, refused, finished, -⟩ :=
    exists_finish (s := u) rfl (List.finRange threadSize) (List.nodup_finRange _) (fun _ _ => rfl)
  refine ⟨{ t with main := .blocked },
    ⟨_, _, rfl, .cons early (trace.append (.single (.block refused)))⟩,
    rfl, fun i => finished i (List.mem_finRange i)⟩

/-- `sonThreadStatus_` is counted up and `notify_one` is called without `lock_`, so
the window between test and block is open, for any number of workers. -/
theorem startThreadPool_stalls :
    ¬ ∀ threadSize, 0 < threadSize → ∀ s : Startup threadSize,
      Reachable Step (· = init threadSize) s → ¬ s.Stalled := by
  intro never
  obtain ⟨s, reachable, stalled⟩ := exists_stalled 1 Nat.one_pos
  exact never 1 Nat.one_pos s reachable stalled

/-- A run without a late `notify_one` does not stall; after a late one nothing else is
left to happen but the block, and then nothing at all. -/
theorem stalls_only_late (threadSize : Nat) :
    (∀ es (s : Startup threadSize), Trace (Guarded NoLateNotify Step) (init threadSize) es s →
      ¬ s.Stalled) ∧
    ∀ (s t : Startup threadSize) e, Step s e t → ¬ s.NoLateNotify e →
      ∃ u, Step t .block u ∧ u.Stalled ∧ ∀ f v, Step t f v → v = u := by
  constructor
  · intro es s trace
    have holds : s.Holds :=
      trace.invariant (I := Holds) (fun _ _ _ h step => holds_step h step.1 step.2)
        (init_holds threadSize)
    exact holds.not_stalled
  · intro s t e step late
    exact stalls_of_late step late

end Startup
end TransparentProxyNet.Server
