import TransparentProxyNet.Session.Parsing

/-! When a session of the VPS side starts a connect. What holds it back,
`currentCmdStatus_`, changes in the handler of a connect only. -/
namespace TransparentProxyNet.Vps
open Machine
open TransparentProxyNet.Session (Event readLoop status ipAndPort)

/-- The addresses of the `newSession` messages among those that `tryToReadFromKcp` takes. -/
def newSessions (old : Nat → List UInt8) : List (List UInt8) → List Endpoint
  | [] => []
  | message :: queue =>
    if message.length = 0 then []
    else
      let dataPtr := message ++ (old queue.length).drop message.length
      if status dataPtr = CmdStatus.newSession.code then ipAndPort dataPtr :: newSessions old queue
      else newSessions old queue

/-- What an event brings a session to read of them. -/
def addressesRead (s : Session) : Event → List Endpoint
  | .inputToKcp len input old =>
    if s.sessionClose then [] else newSessions old (s.toSession.ikcpInput len input).kcp.rcvQueue
  | _ => []

/-- The endpoints `async_connect` is given between `s` and `t`. -/
def connectsStarted (s t : Session) : Event → List Endpoint
  | .inputToKcp _ _ _ => (t.connects.drop s.connects.length).map Prod.fst
  | _ => []

/-- A session, and what has been so far: the addresses of all `newSession` messages, and
all endpoints that `async_connect` has been given. -/
structure Recorded where
  session : Session
  addresses : List Endpoint
  initiated : List Endpoint

namespace Recorded

def start (sessionId : SessionId) (homeClienEndpoint : Endpoint) (nextTime : UInt32) : Recorded :=
  ⟨Vps.start (.create sessionId homeClienEndpoint) nextTime, [], []⟩

structure Step (c : Recorded) (e : Event) (c' : Recorded) : Prop where
  session : SessionStep c.session e c'.session
  addresses : c'.addresses = c.addresses ++ addressesRead c.session e
  initiated : c'.initiated = c.initiated ++ connectsStarted c.session c'.session e

/-- `async_connect` has been given the address of the first `newSession` message, and no
other. -/
def ConnectsOnce (c : Recorded) : Prop := c.initiated = c.addresses.take 1

/-- Until the handler of a connect has succeeded, only one `newSession` message is read. -/
def OneUntilConnected (c : Recorded) (e : Event) : Prop :=
  c.session.currentCmdStatus = .newSession →
    c.initiated.length + (addressesRead c.session e).length ≤ 1

end Recorded

variable {s t : Session}

/-- What the loop of `tryToReadFromKcp` makes of the connects. -/
structure Connects (s t : Session) (addresses : List Endpoint) : Prop where
  currentCmdStatus : t.currentCmdStatus = s.currentCmdStatus
  sessionClose : t.sessionClose = s.sessionClose
  connects : t.connects = s.connects ++
    if s.currentCmdStatus = .newSession then addresses.map fun ep => (ep, s.outcome) else []

theorem Connects.of_same (status : t.currentCmdStatus = s.currentCmdStatus)
    (flag : t.sessionClose = s.sessionClose) (same : t.connects = s.connects) : Connects s t [] :=
  ⟨status, flag, by simp [same]⟩

theorem Connects.trans {u : Session} {xs ys : List Endpoint} (first : Connects s t xs)
    (second : Connects t u ys) : Connects s u (xs ++ ys) := by
  have outcome : t.outcome = s.outcome := by
    rw [TransparentProxyNet.Session.outcome, first.sessionClose,
      TransparentProxyNet.Session.outcome]
  refine ⟨second.currentCmdStatus.trans first.currentCmdStatus,
    second.sessionClose.trans first.sessionClose, ?_⟩
  rw [second.connects, first.connects, first.currentCmdStatus, outcome, List.append_assoc]
  split <;> simp

theorem connects_trySend {pair : Packet} (sent : trySendTcpToTargetServerMessage s pair = some t) :
    Connects s t [] := by
  rw [trySend_eq] at sent
  split at sent
  · obtain ⟨q, -, rfl⟩ := Option.map_eq_some_iff.mp sent
    exact .of_same rfl rfl rfl
  · cases sent
    exact .of_same rfl rfl rfl

theorem connects_switch {pair : Packet} (switched : switchStatus s pair = some t) :
    Connects s t
      (if status pair.buffer = CmdStatus.newSession.code then [ipAndPort pair.buffer] else []) := by
  by_cases new : status pair.buffer = CmdStatus.newSession.code
  · rw [if_pos new]
    by_cases waiting : s.currentCmdStatus = .newSession
    · cases (switch_newSession new waiting).symm.trans switched
      exact ⟨rfl, rfl, by simp [handShakeWithtargetServer, waiting]⟩
    · have known : status pair.buffer ≠ CmdStatus.normal.code := by rw [new]; decide
      cases (switch_other (fun _ => waiting) known).symm.trans switched
      exact ⟨rfl, rfl, by simp [waiting]⟩
  · rw [if_neg new]
    by_cases normal : status pair.buffer = CmdStatus.normal.code
    · exact connects_trySend ((switch_normal normal).symm.trans switched)
    · cases (switch_other (fun opening => absurd opening new) normal).symm.trans switched
      exact .of_same rfl rfl rfl

theorem connects_readLoop {old : Nat → List UInt8} {queue : List (List UInt8)} {s t : Session}
    (read : readLoop ikcpRecv switchStatus old queue s = some t) :
    Connects s t (newSessions old queue) := by
  induction queue generalizing s with
  | nil =>
      cases read
      exact .of_same rfl rfl rfl
  | cons message queue ih =>
      rw [newSessions]
      by_cases empty : message.length = 0
      · rw [readLoop, if_pos empty] at read
        cases read
        rw [if_pos empty]
        exact .of_same rfl rfl rfl
      · rw [readLoop, if_neg empty] at read
        obtain ⟨u, switched, rest⟩ := Option.bind_eq_some_iff.mp read
        have taken : Connects s (ikcpRecv s message.length) [] := .of_same rfl rfl rfl
        have whole := (taken.trans (connects_switch switched)).trans (ih rest)
        rw [if_neg empty]
        by_cases new : status (message ++ (old queue.length).drop message.length) =
            CmdStatus.newSession.code
        · simpa [new] using whole
        · simpa [new] using whole

theorem connects_resumeTraffic (s : Session) : Connects s (s.lift (·.resumeTraffic)) [] := by
  have same : s.resumeTraffic.currentCmdStatus = s.currentCmdStatus ∧
      s.resumeTraffic.connects = s.connects := by
    unfold TransparentProxyNet.Session.resumeTraffic
    split <;> exact ⟨rfl, rfl⟩
  exact .of_same same.1 s.toSession.resumeTraffic_sessionClose same.2

theorem connects_inputToKcp {len : Int} {input : KcpInput} {old : Nat → List UInt8}
    (handled : inputToKcp s len input old = some t) :
    Connects s t (addressesRead s (.inputToKcp len input old)) := by
  unfold inputToKcp at handled
  simp only [addressesRead]
  split at handled
  · cases handled
    rw [if_pos ‹_›]
    exact .of_same rfl rfl rfl
  · rw [if_neg ‹_›]
    obtain ⟨u, read, rfl⟩ := Option.map_eq_some_iff.mp handled
    have given : Connects s (s.lift (·.ikcpInput len input)) [] := .of_same rfl rfl rfl
    have whole := (given.trans (connects_readLoop read)).trans (connects_resumeTraffic u)
    rwa [List.append_nil, List.nil_append] at whole

/-- What does not start or finish a connect: the connects may end, but none comes or goes. -/
structure KeepsConnects (s t : TransparentProxyNet.Session) : Prop where
  currentCmdStatus : t.currentCmdStatus = s.currentCmdStatus
  connects : t.connects.length = s.connects.length

theorem KeepsConnects.closeSession {s t : TransparentProxyNet.Session} (h : KeepsConnects s t) :
    KeepsConnects s t.closeSession := by
  unfold TransparentProxyNet.Session.closeSession
  split
  · exact h
  · exact ⟨h.currentCmdStatus, by simp [h.connects]⟩

theorem keeps_receiveHandler (s : TransparentProxyNet.Session) (i : Nat) (result : ReadResult) :
    KeepsConnects s (s.receiveHandler i result) := by
  have erased : KeepsConnects s { s with reads := s.reads.eraseIdx i } := ⟨rfl, rfl⟩
  cases result with
  | eof => exact erased.closeSession
  | error => exact erased.closeSession
  | data bytes =>
      simp only [TransparentProxyNet.Session.receiveHandler,
        TransparentProxyNet.Session.checkTrafficStatus]
      split
      · exact erased
      · split <;> exact ⟨rfl, rfl⟩

theorem keeps_writeHandler {i : Nat} {ec : Bool} (handled : writeHandler s i ec = some t) :
    KeepsConnects s.toSession t.toSession := by
  rw [writeHandler_eq] at handled
  cases ec with
  | true =>
      cases handled
      exact KeepsConnects.closeSession ⟨rfl, rfl⟩
  | false =>
      obtain ⟨q, -, rest⟩ := Option.bind_eq_some_iff.mp handled
      obtain ⟨q', -, rfl⟩ := Option.map_eq_some_iff.mp rest
      exact ⟨rfl, rfl⟩

/-- How a step of a session goes with the connects: a datagram starts some, a handler
finishes one, and everything else keeps them. -/
theorem step_connects {e : Event} (step : SessionStep s e t) :
    (Connects s t (addressesRead s e) ∧ ∃ len input old, e = .inputToKcp len input old) ∨
    (s.connects ≠ [] ∧ connectsStarted s t e = [] ∧ addressesRead s e = []) ∨
    (KeepsConnects s.toSession t.toSession ∧ connectsStarted s t e = [] ∧ addressesRead s e =
      []) := by
  obtain ⟨enabled, handled⟩ := step
  cases e with
  | inputToKcp len input old => exact .inl ⟨connects_inputToKcp handled, _, _, _, rfl⟩
  | connectHandler i ec =>
      refine .inr (.inl ⟨?_, rfl, rfl⟩)
      intro none
      simp [TransparentProxyNet.Session.Enabled, none] at enabled
  | readHandler i result =>
      cases handled
      exact .inr (.inr ⟨keeps_receiveHandler s.toSession i result, rfl, rfl⟩)
  | writeHandler i ec => exact .inr (.inr ⟨keeps_writeHandler handled, rfl, rfl⟩)
  | closeSession =>
      cases handled
      exact .inr (.inr ⟨.closeSession ⟨rfl, rfl⟩, rfl, rfl⟩)
  | connectDone i ok =>
      cases handled
      exact .inr (.inr ⟨⟨rfl, List.length_modify ..⟩, rfl, rfl⟩)
  | readDone i result =>
      cases handled
      exact .inr (.inr ⟨⟨rfl, rfl⟩, rfl, rfl⟩)
  | writeDone i ok =>
      cases handled
      exact .inr (.inr ⟨⟨rfl, rfl⟩, rfl, rfl⟩)

namespace Recorded

/-- What is in progress has been started, and nothing but a connect ends the waiting. -/
structure Counts (c : Recorded) : Prop where
  once : c.ConnectsOnce
  connects : c.session.connects ≠ [] → c.initiated ≠ []
  waiting : c.initiated = [] → c.session.currentCmdStatus = .newSession

variable {c c' : Recorded} {e : Event}

/-- While it waits, a session starts a connect for each of the addresses that it reads. -/
theorem Step.initiates (step : Step c e c') : c'.initiated = c.initiated ++
    if c.session.currentCmdStatus = .newSession then addressesRead c.session e else [] := by
  rw [step.initiated]
  rcases step_connects step.session with ⟨h, len, input, old, rfl⟩ | ⟨-, started, read⟩ |
    ⟨-, started, read⟩
  · rw [connectsStarted, h.connects, List.drop_left]
    split <;> simp [Function.comp_def]
  · simp [started, read]
  · simp [started, read]

theorem Counts.once_step (h : c.Counts) (step : Step c e c') (guard : c.OneUntilConnected e) :
    c'.ConnectsOnce := by
  have before := h.once
  unfold ConnectsOnce at before ⊢
  rw [step.initiates, step.addresses, before]
  cases addresses : c.addresses with
  | nil =>
      have none : c.initiated = [] := by rw [before, addresses]; rfl
      have short := guard (h.waiting none)
      rw [none, List.length_nil, Nat.zero_add] at short
      simp [h.waiting none, List.take_of_length_le short]
  | cons ep rest =>
      have one : c.initiated.length = 1 := by simp [before, addresses]
      have silent (waiting : c.session.currentCmdStatus = .newSession) :
          addressesRead c.session e = [] := by
        have short := guard waiting
        exact List.length_eq_zero_iff.mp (by omega)
      split
      · simp [silent ‹_›]
      · simp

theorem Counts.step (h : c.Counts) (step : Step c e c') (guard : c.OneUntilConnected e) :
    c'.Counts := by
  have grows : c'.initiated = [] → c.initiated = [] := by
    rw [step.initiates]
    exact fun none => (List.append_eq_nil_iff.mp none).1
  refine ⟨h.once_step step guard, ?_, ?_⟩
  · rcases step_connects step.session with ⟨kept, -⟩ | ⟨busy, -⟩ | ⟨kept, -⟩
    · intro busy none
      have idle : c.session.connects = [] := by
        by_contra busy
        exact h.connects busy (grows none)
      rw [step.initiates] at none
      rw [kept.connects, idle] at busy
      split at busy
      · rw [if_pos ‹_›] at none
        simp [(List.append_eq_nil_iff.mp none).2] at busy
      · exact busy rfl
    · exact fun _ none => h.connects busy (grows none)
    · intro busy none
      refine h.connects (fun idle => busy ?_) (grows none)
      exact List.length_eq_zero_iff.mp (by rw [kept.connects, idle]; rfl)
  · intro none
    have waiting := h.waiting (grows none)
    rcases step_connects step.session with ⟨kept, -⟩ | ⟨busy, -⟩ | ⟨kept, -⟩
    · exact kept.currentCmdStatus.trans waiting
    · exact absurd (grows none) (h.connects busy)
    · exact kept.currentCmdStatus.trans waiting

/-- A second `newSession` message in that time starts a second connect. -/
theorem Counts.twice (step : Step c e c') (bad : ¬ c.OneUntilConnected e) :
    ¬ c'.ConnectsOnce := by
  intro once
  simp only [OneUntilConnected, not_forall, not_le] at bad
  obtain ⟨waiting, many⟩ := bad
  have more := congrArg List.length (step.initiates.symm.trans once)
  rw [if_pos waiting, List.length_append, List.length_take] at more
  omega

end Recorded

/-- What a `newSession` message does to a session, if it does anything, is to start a
connect. -/
theorem switch_newSession_only (s : Session) {pair : Packet}
    (new : status pair.buffer = CmdStatus.newSession.code) :
    ∃ connects, switchStatus s pair = some { s with connects := s.connects ++ connects } := by
  by_cases waiting : s.currentCmdStatus = .newSession
  · exact ⟨_, switch_newSession new waiting⟩
  · have other : status pair.buffer ≠ CmdStatus.normal.code := by rw [new]; decide
    exact ⟨[], by rw [List.append_nil, switch_other (fun _ => waiting) other]⟩

/-- A session connects once, for its first `newSession` message, exactly in the runs in
which no other one is read before the connect has succeeded; apart from the connects such
a message changes nothing. -/
theorem connects_once_iff (sessionId : SessionId) (homeClienEndpoint : Endpoint)
    (nextTime : UInt32) :
    (∀ es c,
      Trace (Staying Recorded.ConnectsOnce Recorded.Step)
        (.start sessionId homeClienEndpoint nextTime) es c ↔
      Trace (Guarded Recorded.OneUntilConnected Recorded.Step)
        (.start sessionId homeClienEndpoint nextTime) es c) ∧
    ∀ (s : Session) (pair : Packet), status pair.buffer = CmdStatus.newSession.code →
      ∃ connects, switchStatus s pair = some { s with connects := s.connects ++ connects } := by
  refine ⟨fun es c => ?_, fun s pair new => switch_newSession_only s new⟩
  have begins : (Recorded.start sessionId homeClienEndpoint nextTime).Counts :=
    ⟨rfl, fun busy => absurd rfl busy, fun _ => rfl⟩
  have kept : ∀ c e c', Recorded.Counts c → Recorded.Step c e c' → c.OneUntilConnected e →
      c'.Counts := fun _ _ _ h step guard => h.step step guard
  exact staying_iff_guarded kept (fun _ h => h.once)
    (fun _ _ _ _ step bad => Recorded.Counts.twice step bad) begins

/-- Two destinations in one datagram: two connects on one socket. -/
theorem two_connects :
    ¬ ∀ sessionId homeClienEndpoint nextTime es c,
      Trace Recorded.Step (.start sessionId homeClienEndpoint nextTime) es c → c.ConnectsOnce := by
  intro always
  let c : Recorded := .start (.replicate 16 0) ⟨1, 5000⟩ 10
  let e : Event := .inputToKcp 60 ⟨0, [TransparentProxyNet.Session.statusAndData ⟨1, 80⟩,
    TransparentProxyNet.Session.statusAndData ⟨2, 80⟩]⟩ fun _ => []
  obtain ⟨t, handled⟩ : ∃ t, handle c.session e = some t := ⟨_, by rfl⟩
  have step : Recorded.Step c e
      ⟨t, c.addresses ++ addressesRead c.session e,
        c.initiated ++ connectsStarted c.session t e⟩ := ⟨⟨trivial, handled⟩, rfl, rfl⟩
  refine Recorded.Counts.twice step ?_ (always _ _ _ _ _ (.single step))
  intro guard
  exact absurd (guard rfl) (by decide)

end TransparentProxyNet.Vps
