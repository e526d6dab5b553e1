import Mathlib.Data.List.Infix
import TransparentProxyNet.Server.Startup

/-! The two programs from `main` on: the threads of the workers, and what the main thread does
before and after it waits for them. -/
namespace TransparentProxyNet.Server
open Machine

/-- What the thread of a worker does to get ready. `connect` is the end of its connect, for
which the home side waits in its loop. -/
inductive Action where
  | connect
  | listen
  | incrementStatus
  | setCallBack
  | startTimeWheel
  | notifyOne
  deriving DecidableEq

/-- `worker::start` of the home side; all but the first is in the handler of the connect. -/
def homeStart : List Action :=
  [.connect, .incrementStatus, .setCallBack, .startTimeWheel, .notifyOne, .listen]

/-- `worker::start` of the VPS side. -/
def vpsStart : List Action := [.listen, .incrementStatus, .setCallBack, .startTimeWheel, .notifyOne]

/-- A thread that does not run yet, one with the actions it has before it, and one whose
connect has failed. -/
inductive Thread where
  | none
  | running (rest : List Action)
  | failed
  deriving DecidableEq

/-- No handler is running, so that the loop can take what was posted to it: the connect is
pending or has failed, or the worker is ready. -/
def Thread.Idle : Thread → Prop
  | .running [] => True
  | .running (.connect :: _) => True
  | .failed => True
  | _ => False

/-- `checking` is the connect of `checkSeverAlive`, `spawning i` the loop of
`startThreadPool`, `ended` the end of the program. -/
inductive Main where
  | checking
  | spawning (i : Nat)
  | waiting (status : MainStatus)
  | ended
  deriving DecidableEq

def Main.wake : Main → Main
  | .waiting status => .waiting (Startup.wake status)
  | main => main

/-- Accepted sockets are `posted` to a worker, and it builds a session for each. -/
structure Launch (threadSize : Nat) where
  sonThreadStatus : Int
  main : Main
  workers : Fin threadSize → Thread
  posted : Fin threadSize → Nat
  registered : Fin threadSize → Nat

namespace Launch
variable {threadSize : Nat}

inductive Event (threadSize : Nat) where
  | check (ec : Bool)
  | spawn
  | act (i : Fin threadSize) (ec : Bool)
  | test
  | block
  | accept (i : Fin threadSize)
  | registerSession (i : Fin threadSize)

/-- `sonThreadStatus` is what the counter holds when the program starts. -/
def init (sonThreadStatus : Int) (main : Main) : Launch threadSize :=
  ⟨sonThreadStatus, main, fun _ => .none, fun _ => 0, fun _ => 0⟩

def setWorker (s : Launch threadSize) (i : Fin threadSize) (thread : Thread) : Launch threadSize :=
  { s with workers := Function.update s.workers i thread }

@[simp] theorem setWorker_self (s : Launch threadSize) (i : Fin threadSize) (thread : Thread) :
    (s.setWorker i thread).workers i = thread := Function.update_self ..

theorem setWorker_other (s : Launch threadSize) {i j : Fin threadSize} (other : j ≠ i)
    (thread : Thread) : (s.setWorker i thread).workers j = s.workers j :=
  Function.update_of_ne other ..

/-- One action of a worker. -/
def perform (s : Launch threadSize) (i : Fin threadSize) (action : Action) (rest : List Action)
    (ec : Bool) : Launch threadSize :=
  let s := s.setWorker i (if ec then .failed else .running rest)
  match action with
  | .incrementStatus => { s with sonThreadStatus := s.sonThreadStatus + 1 }
  | .notifyOne => { s with main := s.main.wake }
  | _ => s

/-- The threads of a program, `start` being what each worker does first. -/
inductive Step (start : List Action) :
    Launch threadSize → Event threadSize → Launch threadSize → Prop
  | check {s ec} : s.main = .checking →
      Step start s (.check ec) { s with main := if ec then .ended else .spawning 0 }
  | spawn {s} {i : Fin threadSize} : s.main = .spawning i →
      Step start s .spawn { s.setWorker i (.running start) with main := .spawning (i + 1) }
  | spawned {s} : s.main = .spawning threadSize →
      Step start s .spawn { s with main := .waiting .testing }
  | act {s i action rest ec} : s.workers i = .running (action :: rest) →
      (ec = true → action = .connect) → Step start s (.act i ec) (s.perform i action rest ec)
  | test {s} : s.main = .waiting .testing →
      Step start s .test
        { s with main :=
            .waiting (if s.sonThreadStatus = threadSize then .passed else .refused) }
  | block {s} : s.main = .waiting .refused → Step start s .block { s with main := .waiting .blocked }
  | accept {s i} : s.main = .waiting .passed →
      Step start s (.accept i) { s with posted := Function.update s.posted i (s.posted i + 1) }
  | registerSession {s i} : (s.workers i).Idle → 0 < s.posted i →
      Step start s (.registerSession i)
        { s with
          posted := Function.update s.posted i (s.posted i - 1)
          registered := Function.update s.registered i (s.registered i + 1) }

/-- The worker has counted itself. -/
def Counted : Thread → Prop
  | .running rest => .incrementStatus ∉ rest
  | _ => False

instance : DecidablePred Counted
  | .running rest => inferInstanceAs (Decidable (.incrementStatus ∉ rest))
  | .none => inferInstanceAs (Decidable False)
  | .failed => inferInstanceAs (Decidable False)

def counted (s : Launch threadSize) : Finset (Fin threadSize) :=
  Finset.univ.filter fun i => Counted (s.workers i)

/-- A program that counts each worker once, and not before its connect is through. -/
structure Proper (start : List Action) : Prop where
  once : start.Nodup
  counts : .incrementStatus ∈ start
  connects : ∀ rest, .connect :: rest <:+ start → .incrementStatus ∈ rest

theorem homeStart_proper : Proper homeStart := by
  refine ⟨by decide, by decide, ?_⟩
  simp [homeStart, List.suffix_cons_iff]

theorem vpsStart_proper : Proper vpsStart := by
  refine ⟨by decide, by decide, ?_⟩
  simp [vpsStart, List.suffix_cons_iff]

section
variable {start : List Action} {s t : Launch threadSize} {e : Event threadSize}
  {i : Fin threadSize} {thread : Thread} {c : Int}

theorem mem_counted : i ∈ s.counted ↔ Counted (s.workers i) := by simp [counted]

/-- A worker that goes on counted, or uncounted. -/
theorem counted_same (same : Counted thread ↔ Counted (s.workers i)) :
    (s.setWorker i thread).counted = s.counted := by
  ext j
  rw [mem_counted, mem_counted]
  by_cases here : j = i
  · subst here
    rw [setWorker_self]
    exact same
  · rw [s.setWorker_other here]

/-- A worker that counts itself. -/
theorem counted_more (new : ¬ Counted (s.workers i)) (now : Counted thread) :
    (s.setWorker i thread).counted.card = s.counted.card + 1 := by
  have more : (s.setWorker i thread).counted = insert i s.counted := by
    ext j
    rw [Finset.mem_insert, mem_counted, mem_counted]
    by_cases here : j = i
    · subst here
      rw [setWorker_self]
      exact iff_of_true now (.inl rfl)
    · rw [s.setWorker_other here]
      exact (or_iff_right here).symm
  rw [more, Finset.card_insert_of_notMem (mem_counted.not.mpr new)]

/-- What holds in every run that starts with `c` in the counter. -/
structure Holds (c : Int) (start : List Action) (s : Launch threadSize) : Prop where
  suffix : ∀ i rest, s.workers i = .running rest → rest <:+ start
  status : s.sonThreadStatus = c + s.counted.card
  passed : s.main = .waiting .passed → ∃ m : Nat, m ≤ s.counted.card ∧ c + m = threadSize
  unborn : s.main = .checking ∨ s.main = .ended → ∀ i, s.workers i = .none
  spawning : ∀ k, s.main = .spawning k → ∀ i : Fin threadSize, k ≤ i → s.workers i = .none
  idle : s.main ≠ .waiting .passed → ∀ i, s.posted i = 0 ∧ s.registered i = 0

theorem init_holds (c : Int) {main : Main} (early : main = .checking ∨ main = .spawning 0) :
    Holds c start (init c main : Launch threadSize) := by
  have none : (init c main : Launch threadSize).counted = ∅ := by
    ext i
    rw [mem_counted]
    exact iff_of_false id (Finset.notMem_empty i)
  refine ⟨?_, ?_, ?_, fun _ _ => rfl, fun _ _ _ _ => rfl, fun _ _ => ⟨rfl, rfl⟩⟩
  · intro i rest running
    cases running
  · rw [none]
    simp [init]
  · rcases early with rfl | rfl <;> exact fun passed => by cases passed

/-! Only `++sonThreadStatus_` makes a counted worker of one that was not. -/

theorem counted_increment {rest : List Action} (once : (Action.incrementStatus :: rest).Nodup)
    (running : s.workers i = .running (.incrementStatus :: rest)) :
    (s.setWorker i (.running rest)).counted.card = s.counted.card + 1 := by
  apply counted_more
  · rw [running]
    exact fun counted => counted List.mem_cons_self
  · exact (List.nodup_cons.mp once).1

theorem counted_other (proper : Proper start) {action : Action} {rest : List Action} {ec : Bool}
    (suffix : action :: rest <:+ start) (running : s.workers i = .running (action :: rest))
    (fails : ec = true → action = .connect) (other : action ≠ .incrementStatus) :
    (s.setWorker i (if ec then .failed else .running rest)).counted = s.counted := by
  apply counted_same
  rw [running]
  cases ec with
  | true =>
      cases fails rfl
      have later := proper.connects rest suffix
      exact iff_of_false id fun counted => counted (List.mem_cons_of_mem _ later)
  | false =>
      change .incrementStatus ∉ rest ↔ .incrementStatus ∉ action :: rest
      rw [List.mem_cons, or_iff_right other.symm]

theorem wake_eq (main : Main) :
    main.wake = main ∨ main = .waiting .blocked ∧ main.wake = .waiting .testing := by
  cases main with
  | waiting status =>
      cases status with
      | blocked => exact .inr ⟨rfl, rfl⟩
      | _ => exact .inl rfl
  | _ => exact .inl rfl

/-- What an action leaves as it is. -/
theorem perform_cases (s : Launch threadSize) (i : Fin threadSize) (action : Action)
    (rest : List Action) (ec : Bool) :
    (s.perform i action rest ec).workers =
      (s.setWorker i (if ec then .failed else .running rest)).workers ∧
    ((s.perform i action rest ec).main = s.main ∨
      s.main = .waiting .blocked ∧ (s.perform i action rest ec).main = .waiting .testing) ∧
    (s.perform i action rest ec).posted = s.posted ∧
    (s.perform i action rest ec).registered = s.registered ∧
    (s.perform i action rest ec).sonThreadStatus =
      s.sonThreadStatus + if action = .incrementStatus then 1 else 0 := by
  cases action with
  | incrementStatus => exact ⟨rfl, .inl rfl, rfl, rfl, rfl⟩
  | notifyOne => exact ⟨rfl, wake_eq s.main, rfl, rfl, (Int.add_zero _).symm⟩
  | _ => exact ⟨rfl, .inl rfl, rfl, rfl, (Int.add_zero _).symm⟩

theorem counted_congr (workers : t.workers = s.workers) : t.counted = s.counted := by
  rw [counted, counted, workers]

/-- A worker does its next action. -/
theorem Holds.act (h : Holds c start s) (proper : Proper start) {action : Action}
    {rest : List Action} {ec : Bool} (running : s.workers i = .running (action :: rest))
    (fails : ec = true → action = .connect) : Holds c start (s.perform i action rest ec) := by
  have suffix := h.suffix i _ running
  have once : (action :: rest).Nodup := proper.once.sublist suffix.sublist
  obtain ⟨workers, main, posted, registered, status⟩ := s.perform_cases i action rest ec
  have counts : (s.perform i action rest ec).counted.card =
      s.counted.card + if action = .incrementStatus then 1 else 0 := by
    rw [counted_congr workers]
    by_cases increment : action = .incrementStatus
    · subst increment
      cases ec with
      | true => cases fails rfl
      | false => exact counted_increment once running
    · rw [counted_other proper suffix running fails increment, if_neg increment, Nat.add_zero]
  have same {m : Main} (now : (s.perform i action rest ec).main = m)
      (awake : m ≠ .waiting .testing) : s.main = m := by
    rcases main with same | ⟨-, woken⟩
    · exact same.symm.trans now
    · exact absurd (now.symm.trans woken) awake
  refine ⟨?_, ?_, ?_, ?_, ?_, ?_⟩
  · intro j rest' found
    rw [workers] at found
    by_cases here : j = i
    · subst here
      rw [setWorker_self] at found
      cases ec with
      | true => cases found
      | false =>
          cases found
          exact (List.suffix_cons _ _).trans suffix
    · rw [s.setWorker_other here] at found
      exact h.suffix j rest' found
  · rw [status, counts, h.status]
    split <;> simp [Int.add_assoc]
  · intro passed
    obtain ⟨m, few, sum⟩ := h.passed (same passed (by simp))
    exact ⟨m, by omega, sum⟩
  · intro early
    have unborn := h.unborn (early.imp (same · (by simp)) (same · (by simp))) i
    cases running.symm.trans unborn
  · intro k spawning j later
    have none := h.spawning k (same spawning (by simp))
    rw [workers]
    by_cases here : j = i
    · subst here
      cases running.symm.trans (none j later)
    · rw [s.setWorker_other here]
      exact none j later
  · intro unpassed
    rw [posted, registered]
    apply h.idle
    intro passed
    rcases main with same | ⟨blocked, -⟩
    · exact unpassed (same.trans passed)
    · cases blocked.symm.trans passed

/-- The next thread starts. -/
theorem Holds.spawn (h : Holds c start s) (proper : Proper start) (spawning : s.main = .spawning i) :
    Holds c start { s.setWorker i (.running start) with main := .spawning (i + 1) } := by
  have none := h.spawning i spawning
  have fresh : (s.setWorker i (.running start)).counted = s.counted := by
    apply counted_same
    rw [none i (Nat.le_refl _)]
    exact iff_of_false (fun counted => counted proper.counts) id
  refine ⟨?_, ?_, fun passed => (by cases passed), ?_, ?_, ?_⟩
  · intro j rest running
    by_cases here : j = i
    · subst here
      cases (setWorker_self ..).symm.trans running
      exact List.suffix_refl _
    · exact h.suffix j rest ((s.setWorker_other here _).symm.trans running)
  · change s.sonThreadStatus = c + (s.setWorker i (.running start)).counted.card
    rw [fresh]
    exact h.status
  · rintro (checking | ended)
    · cases checking
    · cases ended
  · intro k next j later
    cases next
    have here : j ≠ i := by
      rintro rfl
      omega
    exact (s.setWorker_other here _).trans (none j (by omega))
  · exact fun _ => h.idle (by rw [spawning]; simp)

theorem holds_step (h : Holds c start s) (proper : Proper start) (step : Step start s e t) :
    Holds c start t := by
  cases step with
  | @check ec checking =>
      refine ⟨h.suffix, h.status, ?_, fun _ => h.unborn (.inl checking), ?_, ?_⟩
      · cases ec <;> exact fun passed => by cases passed
      · exact fun _ _ i _ => h.unborn (.inl checking) i
      · exact fun _ => h.idle (by rw [checking]; simp)
  | spawn spawning => exact h.spawn proper spawning
  | spawned spawning =>
      refine ⟨h.suffix, h.status, fun passed => (by cases passed), ?_, fun _ next => (by cases next),
        fun _ => h.idle (by rw [spawning]; simp)⟩
      rintro (checking | ended)
      · cases checking
      · cases ended
  | act running fails => exact h.act proper running fails
  | test testing =>
      refine ⟨h.suffix, h.status, ?_, ?_, fun _ next => (by cases next),
        fun _ => h.idle (by rw [testing]; simp)⟩
      · intro passed
        refine ⟨s.counted.card, Nat.le_refl _, ?_⟩
        rw [← h.status]
        by_contra other
        rw [if_neg other] at passed
        cases passed
      · rintro (checking | ended)
        · cases checking
        · cases ended
  | block refused =>
      refine ⟨h.suffix, h.status, fun passed => (by cases passed), ?_, fun _ next => (by cases next),
        fun _ => h.idle (by rw [refused]; simp)⟩
      rintro (checking | ended)
      · cases checking
      · cases ended
  | accept passed =>
      exact ⟨h.suffix, h.status, h.passed, h.unborn, h.spawning,
        fun unpassed => absurd passed unpassed⟩
  | @registerSession i _ posted =>
      refine ⟨h.suffix, h.status, h.passed, h.unborn, h.spawning, ?_⟩
      intro unpassed
      have idle := (h.idle unpassed i).1
      omega

theorem reachable_holds (proper : Proper start) {main : Main}
    (early : main = .checking ∨ main = .spawning 0)
    (reachable : Reachable (Step start) (· = init c main) s) : Holds c start s := by
  refine reachable.invariant (I := Holds c start) ?_ fun _ _ _ h step => holds_step h proper step
  rintro s rfl
  exact init_holds c early

theorem counted_le (s : Launch threadSize) : s.counted.card ≤ threadSize := by
  have most := s.counted.card_le_univ
  rwa [Fintype.card_fin] at most

/-- Whoever is past the barrier has seen all workers, if the counter started at zero. -/
theorem Holds.all_counted (h : Holds 0 start s) (passed : s.main = .waiting .passed)
    (i : Fin threadSize) : Counted (s.workers i) := by
  obtain ⟨m, few, sum⟩ := h.passed passed
  have most := s.counted_le
  have full : s.counted = Finset.univ := by
    apply Finset.eq_univ_of_card
    rw [Fintype.card_fin]
    omega
  rw [← mem_counted, full]
  exact Finset.mem_univ i

/-- A worker that has been counted is not waiting for its connect, nor has it failed. -/
theorem Holds.ready (h : Holds c start s) (proper : Proper start) (counted : Counted (s.workers i))
    (idle : (s.workers i).Idle) : s.workers i = .running [] := by
  cases running : s.workers i with
  | none =>
      rw [running] at counted
      exact counted.elim
  | failed =>
      rw [running] at counted
      exact counted.elim
  | running rest =>
      rw [running] at counted idle
      cases rest with
      | nil => rfl
      | cons action rest =>
          cases action with
          | connect =>
              have later := proper.connects rest (h.suffix i _ running)
              exact absurd (List.mem_cons_of_mem _ later) counted
          | _ => exact idle.elim

/-- A worker that has built a session is ready, and stays so. -/
theorem Holds.ready_step (h : Holds 0 start s) (proper : Proper start)
    (ready : ∀ i, 0 < s.registered i → s.workers i = .running []) (step : Step start s e t) :
    ∀ i, 0 < t.registered i → t.workers i = .running [] := by
  intro j some
  cases step with
  | @spawn i spawning =>
      have idle := (h.idle (by rw [spawning]; simp) j).2
      change 0 < s.registered j at some
      omega
  | @act i action rest ec running _ =>
      obtain ⟨workers, -, -, registered, -⟩ := s.perform_cases i action rest ec
      rw [registered] at some
      have before := ready j some
      have other : j ≠ i := by
        rintro rfl
        cases running.symm.trans before
      rw [workers, s.setWorker_other other]
      exact before
  | @registerSession i idle posted =>
      by_cases here : j = i
      · subst here
        have passed : s.main = .waiting .passed := by
          by_contra unpassed
          have none := (h.idle unpassed j).1
          omega
        exact h.ready proper (h.all_counted passed j) idle
      · change 0 < Function.update s.registered i _ j at some
        rw [Function.update_of_ne here] at some
        exact ready j some
  | _ => exact ready j some

/-! ### The home side -/

/-- Nothing of this run will ever accept a connection. -/
def Barred (s : Launch threadSize) : Prop :=
  (∃ i, s.workers i = .failed) ∨ s.main = .ended

theorem Holds.barred_step (h : Holds c start s) (step : Step start s e t) (barred : s.Barred) :
    t.Barred := by
  rcases barred with ⟨i, failed⟩ | ended
  · left
    refine ⟨i, ?_⟩
    cases step with
    | @spawn k spawning =>
        have other : i ≠ k := by
          rintro rfl
          cases failed.symm.trans (h.spawning i spawning i (Nat.le_refl _))
        exact (s.setWorker_other other _).trans failed
    | @act k action rest ec running fails =>
        have other : i ≠ k := by
          rintro rfl
          cases failed.symm.trans running
        rw [(s.perform_cases k action rest ec).1, s.setWorker_other other]
        exact failed
    | _ => exact failed
  · right
    cases step with
    | check checking => cases ended.symm.trans checking
    | spawn spawning => cases ended.symm.trans spawning
    | spawned spawning => cases ended.symm.trans spawning
    | @act i action rest ec running _ => cases running.symm.trans (h.unborn (.inr ended) i)
    | test testing => cases ended.symm.trans testing
    | block refused => cases ended.symm.trans refused
    | accept passed => cases ended.symm.trans passed
    | registerSession => exact ended

theorem Holds.barred (h : Holds 0 start s) (barred : s.Barred) (i : Fin threadSize) :
    s.posted i = 0 ∧ s.registered i = 0 := by
  apply h.idle
  intro passed
  rcases barred with ⟨j, failed⟩ | ended
  · have counted := h.all_counted passed j
    rw [failed] at counted
    exact counted
  · cases ended.symm.trans passed

/-- The home side between two steps of its threads. -/
structure Ordered (s : Launch threadSize) : Prop where
  /-- Connections are accepted when every worker is connected and has counted itself. -/
  waits : s.main = .waiting .passed → ∀ i, ∃ rest, s.workers i = .running rest ∧
    rest <:+ [.setCallBack, .startTimeWheel, .notifyOne, .listen]
  accepts : ∀ i, 0 < s.posted i ∨ 0 < s.registered i → s.main = .waiting .passed
  /-- A session is built only on a worker whose wheel runs and that receives. -/
  ready : ∀ i, 0 < s.registered i → s.workers i = .running []
  barred : s.Barred → ∀ es t, Trace (Step homeStart) s es t →
    ∀ i, t.posted i = 0 ∧ t.registered i = 0

/-- In any interleaving of the main thread and the workers, although a worker counts itself
before it has set its callback, started its wheel and received. -/
theorem starts_in_order (reachable : Reachable (Step homeStart) (· = init 0 .checking) s) :
    s.Ordered := by
  obtain ⟨h, ready⟩ : Holds 0 homeStart s ∧
      ∀ i, 0 < s.registered i → s.workers i = .running [] := by
    refine reachable.invariant (I := fun s : Launch threadSize => Holds 0 homeStart s ∧
      ∀ i, 0 < s.registered i → s.workers i = .running []) ?_ ?_
    · rintro s rfl
      exact ⟨init_holds 0 (.inl rfl), fun i some => by cases some⟩
    · rintro s e t ⟨h, ready⟩ step
      exact ⟨holds_step h homeStart_proper step, h.ready_step homeStart_proper ready step⟩
  refine ⟨?_, ?_, ready, ?_⟩
  · intro passed i
    have counted := h.all_counted passed i
    cases running : s.workers i with
    | none =>
        rw [running] at counted
        cases counted
    | failed =>
        rw [running] at counted
        cases counted
    | running rest =>
        rw [running] at counted
        refine ⟨rest, rfl, ?_⟩
        have suffix := h.suffix i rest running
        rw [homeStart, List.suffix_cons_iff, List.suffix_cons_iff] at suffix
        rcases suffix with rfl | rfl | later
        · exact absurd (by decide) counted
        · exact absurd (by decide) counted
        · exact later
  · intro i some
    by_contra unpassed
    have idle := h.idle unpassed i
    omega
  · intro barred es t trace
    have later : Holds 0 homeStart t ∧ t.Barred :=
      trace.invariant (I := fun s => Holds 0 homeStart s ∧ s.Barred)
        (fun _ _ _ h step => ⟨holds_step h.1 homeStart_proper step, h.1.barred_step step h.2⟩)
        ⟨h, barred⟩
    exact later.1.barred later.2

end

/-- One worker and one connection. -/
theorem starts_in_order_accepted : ∃ s : Launch 1, s.registered 0 = 1 ∧ s.Ordered := by
  have acts {s : Launch 1} {action : Action} {rest : List Action}
      (running : s.workers 0 = .running (action :: rest)) :
      Step homeStart s (.act 0 false) (s.perform 0 action rest false) :=
    .act running fun failed => by cases failed
  have checks : Step homeStart (init 0 .checking : Launch 1) (.check false) _ := .check rfl
  have starts := Trace.cons checks (.cons (.spawn (i := 0) rfl) (.single (.spawned rfl)))
  have counts := starts.append (.cons (acts rfl) (.cons (acts rfl) (.cons (acts rfl)
    (.cons (acts rfl) (.cons (acts rfl) (.single (acts rfl)))))))
  have run := counts.append (.cons (.test rfl) (.cons (.accept (i := 0) rfl)
    (.single (.registerSession (i := 0) trivial (by decide)))))
  exact ⟨_, rfl, starts_in_order ⟨_, _, rfl, run⟩⟩

/-! ### The VPS side -/

section
variable {start : List Action} {s t : Launch threadSize} {e : Event threadSize}
  {i : Fin threadSize} {c : Int}

/-- The loop of `startThreadPool`. -/
theorem exists_spawned (start : List Action) (c : Int) {k : Nat} (few : k ≤ threadSize) :
    ∃ es s, Trace (Step start) (init c (.spawning 0) : Launch threadSize) es s ∧
      s.main = .spawning k ∧ s.sonThreadStatus = c ∧
      ∀ i, s.workers i = if i.val < k then .running start else .none := by
  induction k with
  | zero => exact ⟨[], _, .nil _, rfl, rfl, fun i => rfl⟩
  | succ k ih =>
      obtain ⟨es, s, trace, spawning, status, workers⟩ := ih (by omega)
      let i : Fin threadSize := ⟨k, few⟩
      refine ⟨_, _, trace.append (.single (.spawn (i := i) spawning)), rfl, status, fun j => ?_⟩
      by_cases here : j = i
      · subst here
        rw [if_pos (Nat.lt_succ_self k)]
        exact setWorker_self ..
      · have other : j.val ≠ k := fun same => here (Fin.ext same)
        refine (s.setWorker_other here _).trans ((workers j).trans ?_)
        exact if_congr (by omega) rfl rfl

/-- Workers run until they are counted, and the main thread does not. -/
theorem exists_counting {s : Launch threadSize} (testing : s.main = .waiting .testing)
    (is : List (Fin threadSize)) (distinct : is.Nodup)
    (running : ∀ i ∈ is, s.workers i = .running vpsStart) :
    ∃ es t, Trace (Step vpsStart) s es t ∧ t.main = .waiting .testing ∧
      t.sonThreadStatus = s.sonThreadStatus + is.length := by
  induction is generalizing s with
  | nil => exact ⟨[], s, .nil s, testing, (Int.add_zero _).symm⟩
  | cons i is ih =>
      obtain ⟨fresh, distinct⟩ := List.nodup_cons.mp distinct
      let u := s.perform i .listen vpsStart.tail false
      let v := u.perform i .incrementStatus vpsStart.tail.tail false
      have first : Step vpsStart s (.act i false) u :=
        .act (running i List.mem_cons_self) fun failed => by cases failed
      have second : Step vpsStart u (.act i false) v :=
        .act (setWorker_self ..) fun failed => by cases failed
      have rest (j : Fin threadSize) (member : j ∈ is) : v.workers j = .running vpsStart := by
        have other : j ≠ i := fun same => fresh (same ▸ member)
        refine (u.setWorker_other other _).trans ((s.setWorker_other other _).trans ?_)
        exact running j (List.mem_cons_of_mem _ member)
      obtain ⟨es, t, trace, still, status⟩ := ih (s := v) testing distinct rest
      refine ⟨_, t, .cons first (.cons second trace), still, ?_⟩
      rw [status, List.length_cons]
      change s.sonThreadStatus + 1 + _ = _
      push_cast
      omega

theorem exists_passed (c : Int) {m : Nat} (sum : c + m = threadSize) (few : m ≤ threadSize) :
    ∃ s : Launch threadSize, Reachable (Step vpsStart) (· = init c (.spawning 0)) s ∧
      s.main = .waiting .passed ∧ s.counted.card = m := by
  obtain ⟨es, s, spawned, spawning, status, workers⟩ :=
    exists_spawned vpsStart c (Nat.le_refl threadSize)
  let u : Launch threadSize := { s with main := .waiting .testing }
  have all (i : Fin threadSize) : u.workers i = .running vpsStart :=
    (workers i).trans (if_pos i.isLt)
  obtain ⟨fs, v, counting, testing, status'⟩ :=
    exists_counting (s := u) rfl ((List.finRange threadSize).take m)
      ((List.nodup_finRange _).sublist (List.take_sublist ..)) fun i _ => all i
  have total : v.sonThreadStatus = threadSize := by
    rw [status', List.length_take, List.length_finRange, Nat.min_eq_left few]
    exact (congrArg (· + (m : Int)) status).trans sum
  have passes : Step vpsStart v .test _ := .test testing
  rw [if_pos total] at passes
  have run := spawned.append (.cons (.spawned spawning) (counting.append (.single passes)))
  refine ⟨_, ⟨_, _, rfl, run⟩, rfl, ?_⟩
  have holds := reachable_holds vpsStart_proper (.inr rfl) ⟨_, _, rfl, run⟩
  have counted := holds.status
  change v.sonThreadStatus = _ at counted
  omega

/-- The constructor of the VPS side leaves `sonThreadStatus_` as it is. For each value `c`
that it may hold: when the barrier waits for all workers, when it lets anything through, and
with how few of them counted. -/
theorem waits_for_all_iff (threadSize : Nat) (c : Int) :
    ((∀ s : Launch threadSize, Reachable (Step vpsStart) (· = init c (.spawning 0)) s →
        s.main = .waiting .passed → ∀ i, Counted (s.workers i)) ↔ ¬ (0 < c ∧ c ≤ threadSize)) ∧
      ((∃ s : Launch threadSize, Reachable (Step vpsStart) (· = init c (.spawning 0)) s ∧
        s.main = .waiting .passed) ↔ 0 ≤ c ∧ c ≤ threadSize) ∧
      (0 ≤ c → c ≤ threadSize → ∃ s : Launch threadSize,
        Reachable (Step vpsStart) (· = init c (.spawning 0)) s ∧ s.main = .waiting .passed ∧
          (s.counted.card : Int) = threadSize - c) := by
  have passes (low : 0 ≤ c) (high : c ≤ threadSize) : ∃ s : Launch threadSize,
      Reachable (Step vpsStart) (· = init c (.spawning 0)) s ∧ s.main = .waiting .passed ∧
        (s.counted.card : Int) = threadSize - c := by
    obtain ⟨s, reachable, passed, counted⟩ :=
      @exists_passed threadSize c (threadSize - c).toNat (by omega) (by omega)
    exact ⟨s, reachable, passed, by omega⟩
  have range {s : Launch threadSize} (h : Holds c vpsStart s) (passed : s.main = .waiting .passed) :
      0 ≤ c ∧ c ≤ threadSize := by
    obtain ⟨m, few, sum⟩ := h.passed passed
    have most := s.counted_le
    omega
  refine ⟨⟨?_, ?_⟩, ⟨?_, ?_⟩, passes⟩
  · rintro waits ⟨low, high⟩
    obtain ⟨s, reachable, passed, fewer⟩ := passes (by omega) high
    have full : s.counted = Finset.univ :=
      Finset.eq_univ_of_forall fun i => mem_counted.mpr (waits s reachable passed i)
    rw [full, Finset.card_univ, Fintype.card_fin] at fewer
    omega
  · intro outside s reachable passed
    have h := reachable_holds vpsStart_proper (.inr rfl) reachable
    have inside := range h passed
    obtain rfl : c = 0 := by omega
    exact h.all_counted passed
  · rintro ⟨s, reachable, passed⟩
    exact range (reachable_holds vpsStart_proper (.inr rfl) reachable) passed
  · rintro ⟨low, high⟩
    obtain ⟨s, reachable, passed, -⟩ := passes low high
    exact ⟨s, reachable, passed⟩

end
end Launch
end TransparentProxyNet.Server
