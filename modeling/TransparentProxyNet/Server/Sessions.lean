import Mathlib.Data.Set.Card
import TransparentProxyNet.Server.Acceptor
import TransparentProxyNet.Session.Closing
import TransparentProxyNet.Worker.Sessions

/-! What the counters of the accept loop say about the sessions of the workers. The handler
of an accept counts the connection and posts its socket; the worker builds and registers the
session later, and nothing takes a session off the counter again. -/
namespace TransparentProxyNet.Server
open Machine

/-- `posted` counts the accepted sockets on their way to each worker. -/
structure System (threadSize : Nat) where
  acceptor : Acceptor threadSize
  workers : Fin threadSize → Home.Worker
  posted : Fin threadSize → Nat

inductive Event (threadSize : Nat) where
  | accept (ec : Bool)
  | worker (i : Fin threadSize) (e : Worker.Event)

/-- The sessions that a worker has built. -/
def builtSessions (w : Home.Worker) : Set Nat := {this | w.sessions this ≠ none}

def openSessions (w : Home.Worker) : Set Nat := {this | w.Open this}

def closedSessions (w : Home.Worker) : Set Nat :=
  {this | ∃ s, w.sessions this = some s ∧ s.sessionClose = true}

namespace System
variable {threadSize : Nat} [NeZero threadSize]

def setWorker (s : System threadSize) (i : Fin threadSize) (w : Home.Worker) : System threadSize :=
  { s with workers := Function.update s.workers i w }

def setPosted (s : System threadSize) (i : Fin threadSize) (n : Nat) : System threadSize :=
  { s with posted := Function.update s.posted i n }

def acceptHandler (s : System threadSize) (ec : Bool) : System threadSize :=
  let i := s.acceptor.workerPtr
  { if ec then s else s.setPosted i (s.posted i + 1) with
    acceptor := s.acceptor.acceptHandler ec }

/-- A worker registers a session only for a socket that has been posted to it. -/
inductive Step (A : AesGcm) (other : Int → Fin 4) :
    System threadSize → Event threadSize → System threadSize → Prop
  | accept {s ec} : Step A other s (.accept ec) (s.acceptHandler ec)
  | registerSession {s i this randomId w'} : 0 < s.posted i →
      Home.Step A other (s.workers i) (.registerSession this randomId) w' →
      Step A other s (.worker i (.registerSession this randomId))
        ((s.setPosted i (s.posted i - 1)).setWorker i w')
  | worker {s i e w'} : (∀ this randomId, e ≠ .registerSession this randomId) →
      Home.Step A other (s.workers i) e w' → Step A other s (.worker i e) (s.setWorker i w')

def Started (s : System threadSize) : Prop :=
  s.acceptor = .start ∧ (∀ i, (s.workers i).Started) ∧ ∀ i, s.posted i = 0

/-- No accepted socket is still being posted. -/
def Quiet (s : System threadSize) : Prop := ∀ i, s.posted i = 0

/-- The counters are those of the open sessions, and the worker that is chosen has the
fewest. -/
structure CountsOpen (s : System threadSize) : Prop where
  counted : ∀ i, (s.acceptor.sessionSize i).toNat = (openSessions (s.workers i)).ncard
  fewest : ∀ i, (openSessions (s.workers (getThreadWorker s.acceptor.sessionSize))).ncard ≤
    (openSessions (s.workers i)).ncard

/-- No handler of a read or a write is given an error, the end of a stream included, and no
counter goes beyond its range. -/
def NoneCloses (s : System threadSize) : Event threadSize → Prop
  | .accept ec => ec = false →
      (s.acceptor.sessionSize s.acceptor.workerPtr).toNat + 1 < 2 ^ 32
  | .worker _ e => ∀ this f, e = .session this f → ¬ Session.Fails f

end System

/-! ### The sessions of one worker -/

section
variable {A : AesGcm} {other : Int → Fin 4} {w w' : Home.Worker} {e : Worker.Event}

/-- A session that has been built is open or closed. -/
theorem open_add_closed (finite : (builtSessions w).Finite) :
    (openSessions w).ncard + (closedSessions w).ncard = (builtSessions w).ncard := by
  have split : builtSessions w = openSessions w ∪ closedSessions w := by
    ext this
    constructor
    · intro built
      obtain ⟨s, found⟩ := Option.ne_none_iff_exists'.mp built
      cases closed : s.sessionClose with
      | false => exact .inl ⟨s, found, closed⟩
      | true => exact .inr ⟨s, found, closed⟩
    · rintro (⟨s, found, -⟩ | ⟨s, found, -⟩)
      · exact Option.ne_none_iff_exists'.mpr ⟨s, found⟩
      · exact Option.ne_none_iff_exists'.mpr ⟨s, found⟩
  have apart : Disjoint (openSessions w) (closedSessions w) := by
    rw [Set.disjoint_left]
    rintro this ⟨s, found, unclosed⟩ ⟨t, same, closed⟩
    cases found.symm.trans same
    cases closed.symm.trans unclosed
  rw [split] at finite ⊢
  rw [Set.ncard_union_eq apart (finite.subset Set.subset_union_left)
    (finite.subset Set.subset_union_right)]

theorem built_step (h : w.Holds) (step : Home.Step A other w e w')
    (other : ∀ this randomId, e ≠ .registerSession this randomId) :
    builtSessions w' = builtSessions w := by
  ext this
  cases found : w.sessions this with
  | none =>
      refine iff_of_false (fun built => ?_) (fun built => built found)
      obtain ⟨t, found'⟩ := Option.ne_none_iff_exists'.mp built
      obtain ⟨randomId, -, eq, -⟩ := Home.step_new h step found found'
      exact other this randomId eq
  | some s =>
      obtain ⟨t, found', -⟩ := Home.step_moves h step found
      exact iff_of_true (Option.ne_none_iff_exists'.mpr ⟨t, found'⟩)
        (Option.ne_none_iff_exists'.mpr ⟨s, found⟩)

theorem built_register {this : Nat} {randomId : SessionId} (h : w.Holds)
    (step : Home.Step A other w (.registerSession this randomId) w') :
    this ∉ builtSessions w ∧ builtSessions w' = insert this (builtSessions w) := by
  cases step with
  | common step => cases step
  | @registerSession _ _ sessionId nextTime endpoint _ unused new registered =>
      obtain ⟨v, ran, -, sessions, -⟩ :=
        Home.registerSession_eq h unused new sessionId nextTime endpoint
      cases ran.symm.trans registered
      refine ⟨fun built => built unused, ?_⟩
      ext p
      by_cases here : p = this
      · simp [builtSessions, sessions, here]
      · simp [builtSessions, sessions, here]

/-- Only a failing handler closes a session. -/
theorem closed_step (h : w.Holds) (step : Home.Step A other w e w')
    (safe : ∀ this f, e = .session this f → ¬ Session.Fails f)
    (none : closedSessions w = ∅) : closedSessions w' = ∅ := by
  rw [Set.eq_empty_iff_forall_notMem] at none ⊢
  rintro this ⟨t, found', closed⟩
  cases found : w.sessions this with
  | none =>
      obtain ⟨randomId, endpoint, -, rfl⟩ := Home.step_new h step found found'
      cases closed
  | some s =>
      have unclosed : s.sessionClose ≠ true := fun closed => none this ⟨s, found, closed⟩
      obtain ⟨u, same, moves⟩ := Home.step_moves h step found
      cases same.symm.trans found'
      cases moves with
      | idle _ => exact unclosed closed
      | @handler f _ u socket moved =>
          rcases (Home.handle_closed moved.2).mp closed with before | fails | rfl
          · exact unclosed before
          · exact safe this f rfl fails
          · cases socket
      | input moved => exact unclosed ((Home.inputToKcp_sessionClose moved.2).symm.trans closed)

end

/-! ### The counters -/

/-- The counter of a worker has gone up for every session that was built and for every
socket on its way. -/
structure Balanced (w : Home.Worker) (sessionSize : UInt32) (posted : Nat) : Prop where
  holds : w.Holds
  finite : (builtSessions w).Finite
  counted : sessionSize.toNat = ((builtSessions w).ncard + posted) % 2 ^ 32

section
variable {A : AesGcm} {other : Int → Fin 4} {w w' : Home.Worker} {sessionSize : UInt32}
  {posted : Nat}

theorem built_started (started : w.Started) : builtSessions w = ∅ := by
  obtain ⟨timeWheel, buf, -, fresh⟩ := started
  rw [fresh]
  exact Set.eq_empty_iff_forall_notMem.mpr fun this built => built rfl

theorem balanced_started (started : w.Started) : Balanced w 0 0 := by
  refine ⟨Worker.started_holds started, ?_, ?_⟩
  · rw [built_started started]
    exact Set.finite_empty
  · rw [built_started started, Set.ncard_empty]
    rfl

theorem Balanced.post (h : Balanced w sessionSize posted) :
    Balanced w (sessionSize + 1) (posted + 1) where
  holds := h.holds
  finite := h.finite
  counted := by
    rw [UInt32.toNat_add, h.counted, UInt32.toNat_one]
    omega

theorem Balanced.register (h : Balanced w sessionSize posted) (waiting : 0 < posted) {this : Nat}
    {randomId : SessionId} (step : Home.Step A other w (.registerSession this randomId) w') :
    Balanced w' sessionSize (posted - 1) := by
  obtain ⟨new, built⟩ := built_register h.holds step
  refine ⟨Home.step_holds h.holds step, ?_, ?_⟩
  · rw [built]
    exact h.finite.insert this
  · rw [h.counted, built, Set.ncard_insert_of_notMem new h.finite, Nat.add_assoc,
      Nat.add_sub_cancel' waiting]

theorem Balanced.step (h : Balanced w sessionSize posted) {e : Worker.Event}
    (step : Home.Step A other w e w')
    (other : ∀ this randomId, e ≠ .registerSession this randomId) :
    Balanced w' sessionSize posted := by
  have built := built_step h.holds step other
  refine ⟨Home.step_holds h.holds step, ?_, ?_⟩
  · rw [built]
    exact h.finite
  · rw [built]
    exact h.counted

/-- With nothing on its way, the counter is that of the open sessions only by the sessions
that are closed being none, or a multiple of its range. -/
theorem Balanced.counts_open_iff (h : Balanced w sessionSize 0) :
    sessionSize.toNat = (openSessions w).ncard ↔
      (openSessions w).ncard < 2 ^ 32 ∧ 2 ^ 32 ∣ (closedSessions w).ncard := by
  have counted := h.counted
  rw [Nat.add_zero, ← open_add_closed h.finite] at counted
  rw [counted, Nat.dvd_iff_mod_eq_zero]
  omega

/-- What holds of a worker as long as none of its sessions closes. -/
structure AllOpen (w : Home.Worker) (sessionSize : UInt32) (posted : Nat) : Prop where
  balanced : Balanced w sessionSize posted
  below : (builtSessions w).ncard + posted < 2 ^ 32
  closed : closedSessions w = ∅

theorem allOpen_started (started : w.Started) : AllOpen w 0 0 := by
  refine ⟨balanced_started started, ?_, ?_⟩
  · rw [built_started started, Set.ncard_empty]
    decide
  · obtain ⟨timeWheel, buf, -, fresh⟩ := started
    rw [fresh]
    exact Set.eq_empty_iff_forall_notMem.mpr fun this ⟨s, found, _⟩ => by cases found

theorem AllOpen.post (h : AllOpen w sessionSize posted) (room : sessionSize.toNat + 1 < 2 ^ 32) :
    AllOpen w (sessionSize + 1) (posted + 1) where
  balanced := h.balanced.post
  below := by
    rw [h.balanced.counted, Nat.mod_eq_of_lt h.below] at room
    exact room
  closed := h.closed

theorem AllOpen.register (h : AllOpen w sessionSize posted) (waiting : 0 < posted) {this : Nat}
    {randomId : SessionId} (step : Home.Step A other w (.registerSession this randomId) w') :
    AllOpen w' sessionSize (posted - 1) where
  balanced := h.balanced.register waiting step
  below := by
    obtain ⟨new, built⟩ := built_register h.balanced.holds step
    rw [built, Set.ncard_insert_of_notMem new h.balanced.finite, Nat.add_assoc,
      Nat.add_sub_cancel' waiting]
    exact h.below
  closed := closed_step h.balanced.holds step (by rintro _ _ ⟨⟩) h.closed

theorem AllOpen.step (h : AllOpen w sessionSize posted) {e : Worker.Event}
    (step : Home.Step A other w e w')
    (other : ∀ this randomId, e ≠ .registerSession this randomId)
    (safe : ∀ this f, e = .session this f → ¬ Session.Fails f) :
    AllOpen w' sessionSize posted where
  balanced := h.balanced.step step other
  below := by
    rw [built_step h.balanced.holds step other]
    exact h.below
  closed := closed_step h.balanced.holds step safe h.closed

end

namespace System
variable {threadSize : Nat} [NeZero threadSize] {A : AesGcm} {other : Int → Fin 4}
  {s s' : System threadSize} {e : Event threadSize}

def Ledger (s : System threadSize) : Prop :=
  ∀ i, Balanced (s.workers i) (s.acceptor.sessionSize i) (s.posted i)

def AllOpen (s : System threadSize) : Prop :=
  ∀ i, Server.AllOpen (s.workers i) (s.acceptor.sessionSize i) (s.posted i)

omit [NeZero threadSize] in
@[simp] theorem setWorker_self (s : System threadSize) (i : Fin threadSize) (w : Home.Worker) :
    (s.setWorker i w).workers i = w := by simp [setWorker]

/-- What a worker can do by itself, it can do in the system. -/
theorem exists_worker {i : Fin threadSize} {f : Worker.Event} {w w' : Home.Worker}
    (here : s.workers i = w) (step : Home.Step A other w f w')
    (unregistered : ∀ this randomId, f ≠ .registerSession this randomId) :
    ∃ s', Step A other s (.worker i f) s' ∧ s'.workers i = w' ∧ s'.posted = s.posted ∧
      s'.acceptor = s.acceptor := by
  subst here
  exact ⟨s.setWorker i w', .worker unregistered step, s.setWorker_self i w', rfl, rfl⟩

theorem started_allOpen (started : s.Started) : s.AllOpen := by
  obtain ⟨acceptor, workers, posted⟩ := started
  intro i
  rw [acceptor, posted]
  exact allOpen_started (workers i)

theorem started_ledger (started : s.Started) : s.Ledger :=
  fun i => (started_allOpen started i).balanced

/-- A step changes the session map, the counter and the sockets on their way of one worker
at most. -/
theorem step_pointwise {P : Home.Worker → UInt32 → Nat → Prop}
    (h : ∀ i, P (s.workers i) (s.acceptor.sessionSize i) (s.posted i)) (step : Step A other s e s')
    (post : ∀ i, e = .accept false → i = s.acceptor.workerPtr →
      P (s.workers i) (s.acceptor.sessionSize i + 1) (s.posted i + 1))
    (register : ∀ i this randomId w', 0 < s.posted i →
      Home.Step A other (s.workers i) (.registerSession this randomId) w' →
      P w' (s.acceptor.sessionSize i) (s.posted i - 1))
    (move : ∀ i f w', e = .worker i f → (∀ this randomId, f ≠ .registerSession this randomId) →
      Home.Step A other (s.workers i) f w' → P w' (s.acceptor.sessionSize i) (s.posted i))
    (j : Fin threadSize) : P (s'.workers j) (s'.acceptor.sessionSize j) (s'.posted j) := by
  cases step with
  | @accept ec =>
      cases ec with
      | true => exact h j
      | false =>
          change P (s.workers j) (Function.update s.acceptor.sessionSize s.acceptor.workerPtr _ j)
            (Function.update s.posted s.acceptor.workerPtr _ j)
          by_cases here : j = s.acceptor.workerPtr
          · subst here
            rw [Function.update_self, Function.update_self]
            exact post _ rfl rfl
          · rw [Function.update_of_ne here, Function.update_of_ne here]
            exact h j
  | @registerSession i this randomId w' waiting registered =>
      change P (Function.update s.workers i w' j) (s.acceptor.sessionSize j)
        (Function.update s.posted i _ j)
      by_cases here : j = i
      · subst here
        rw [Function.update_self, Function.update_self]
        exact register j this randomId w' waiting registered
      · rw [Function.update_of_ne here, Function.update_of_ne here]
        exact h j
  | @worker i f w' unregistered moved =>
      change P (Function.update s.workers i w' j) (s.acceptor.sessionSize j) (s.posted j)
      by_cases here : j = i
      · subst here
        rw [Function.update_self]
        exact move j f w' rfl unregistered moved
      · rw [Function.update_of_ne here]
        exact h j

theorem ledger_step (h : s.Ledger) (step : Step A other s e s') : s'.Ledger :=
  step_pointwise h step (fun i _ _ => (h i).post)
    (fun i _ _ _ waiting registered => (h i).register waiting registered)
    fun i _ _ _ unregistered moved => (h i).step moved unregistered

/-- The choice is right when the counters are. -/
theorem countsOpen_iff (h : s.Ledger) (quiet : s.Quiet) :
    s.CountsOpen ↔ ∀ i, (openSessions (s.workers i)).ncard < 2 ^ 32 ∧
      2 ^ 32 ∣ (closedSessions (s.workers i)).ncard := by
  have each : ∀ i, (s.acceptor.sessionSize i).toNat = (openSessions (s.workers i)).ncard ↔
      (openSessions (s.workers i)).ncard < 2 ^ 32 ∧
        2 ^ 32 ∣ (closedSessions (s.workers i)).ncard := by
    intro i
    have balanced := h i
    rw [quiet i] at balanced
    exact balanced.counts_open_iff
  constructor
  · exact fun counts i => (each i).mp (counts.counted i)
  · intro whole
    have counted := fun i => (each i).mpr (whole i)
    refine ⟨counted, fun i => ?_⟩
    rw [← counted, ← counted]
    exact getThreadWorker_least s.acceptor.sessionSize i

theorem allOpen_step (h : s.AllOpen) (step : Step A other s e s') (good : NoneCloses s e) :
    s'.AllOpen := by
  refine step_pointwise h step ?_ ?_ ?_
  · rintro i rfl rfl
    exact (h _).post (good rfl)
  · intro i this randomId w' waiting registered
    exact (h i).register waiting registered
  · rintro i f w' rfl unregistered moved
    exact (h i).step moved unregistered good

end System

/-- The counters count the open sessions as long as none closes, and with every session that
closes they are one too high. -/
theorem counts_open_while_none_closes (A : AesGcm) (other : Int → Fin 4) :
    (∀ threadSize [NeZero threadSize] (s : System threadSize) es s', s.Started →
      Trace (Guarded System.NoneCloses (System.Step A other)) s es s' → s'.Quiet →
      s'.CountsOpen) ∧
    (∀ threadSize [NeZero threadSize] (s : System threadSize),
      Reachable (System.Step A other) System.Started s → s.Quiet →
      (s.CountsOpen ↔ ∀ i, (openSessions (s.workers i)).ncard < 2 ^ 32 ∧
        2 ^ 32 ∣ (closedSessions (s.workers i)).ncard)) := by
  constructor
  · intro threadSize _ s es s' started trace quiet
    have allOpen := trace.invariant (I := System.AllOpen)
      (fun _ _ _ h step => System.allOpen_step h step.1 step.2) (System.started_allOpen started)
    refine (System.countsOpen_iff (fun i => (allOpen i).balanced) quiet).mpr fun i => ?_
    have below := (allOpen i).below
    have closed := (allOpen i).closed
    rw [← open_add_closed (allOpen i).balanced.finite] at below
    rw [closed, Set.ncard_empty] at below ⊢
    exact ⟨by omega, Nat.dvd_zero _⟩
  · intro threadSize _ s reachable quiet
    have ledger := reachable.invariant (I := System.Ledger) (fun _ => System.started_ledger)
      fun _ _ _ => System.ledger_step
    exact System.countsOpen_iff ledger quiet

/-- A worker whose only session its client has closed. -/
theorem exists_closed (A : AesGcm) (other : Int → Fin 4) : ∃ w v v₁ v₂, w.Started ∧
    Home.Step A other w (.registerSession 7 (.replicate 16 1)) v ∧
    Home.Step A other v (.session 7 (.readDone 0 .eof)) v₁ ∧
    Home.Step A other v₁ (.session 7 (.readHandler 0 .eof)) v₂ ∧ (openSessions v₂).ncard = 0 := by
  obtain ⟨w, v, v₁, started, registers, read, holds, found⟩ := Home.exists_ended A other
  have eof : Home.SessionStep
      (Worker.answered ((Home.registered (.replicate 16 1) ⟨1, 80⟩).readDone 0 .eof))
      (.readHandler 0 .eof) _ := ⟨by decide, rfl⟩
  obtain ⟨v₂, step, -, found₂⟩ := Home.exists_step A other holds found rfl eof
  refine ⟨w, v, v₁, v₂, started, registers, read, step, ?_⟩
  have holds₀ := Worker.started_holds started
  obtain ⟨-, built⟩ := built_register holds₀ registers
  rw [built_started started, ← built_step (Home.step_holds holds₀ registers) read (by simp),
    ← built_step holds step (by simp), insert_empty_eq] at built
  have empty : openSessions v₂ = ∅ := by
    rw [Set.eq_empty_iff_forall_notMem]
    rintro this ⟨s, found', unclosed⟩
    have member : this ∈ builtSessions v₂ := Option.ne_none_iff_exists'.mpr ⟨s, found'⟩
    rw [built, Set.mem_singleton_iff] at member
    subst member
    cases found₂.symm.trans found'
    cases unclosed
  rw [empty, Set.ncard_empty]

/-- A server with one worker, before the first accept. -/
def single (w : Home.Worker) : System 1 := ⟨.start, fun _ => w, fun _ => 0⟩

/-- One connection, which its client closes: the counter stays at one. -/
theorem closed_session_is_counted :
    ¬ ∀ (A : AesGcm) (other : Int → Fin 4) threadSize [NeZero threadSize] (s : System threadSize),
      Reachable (System.Step A other) System.Started s → s.Quiet → s.CountsOpen := by
  intro always
  obtain ⟨w, v, v₁, v₂, started, registers, read, eof, noneOpen⟩ :=
    exists_closed .sample fun _ => 0
  have initial : (single w).Started := ⟨rfl, fun _ => started, fun _ => rfl⟩
  have accepted : System.Step .sample (fun _ => 0) (single w) (.accept false)
    ((single w).acceptHandler false) := .accept
  have built := System.Step.registerSession (s := (single w).acceptHandler false) (i := 0)
    Nat.one_pos registers
  obtain ⟨s₁, ended, here, posted₁, acceptor₁⟩ :=
    System.exists_worker (System.setWorker_self _ (0 : Fin 1) v) read (by rintro _ _ ⟨⟩)
  obtain ⟨s₂, closed, here₂, posted₂, acceptor₂⟩ :=
    System.exists_worker here eof (by rintro _ _ ⟨⟩)
  have trace := Trace.cons accepted (.cons built (.cons ended (.single closed)))
  have quiet : s₂.Quiet := by
    intro i
    rw [posted₂, posted₁, Subsingleton.elim i 0]
    rfl
  have counts := always .sample (fun _ => 0) 1 s₂ ((Reachable.init initial).trace trace) quiet
  have counted := counts.counted 0
  rw [here₂, acceptor₂, acceptor₁, noneOpen] at counted
  exact Nat.one_ne_zero counted

end TransparentProxyNet.Server
