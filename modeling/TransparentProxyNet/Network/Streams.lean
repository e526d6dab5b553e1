import TransparentProxyNet.Network.Refinement
import TransparentProxyNet.Tunnel.Messages

/-! What the two programs do for all of their sessions at once. -/
namespace TransparentProxyNet
open Machine

namespace Tunnel

/-- What the sessions have asked for says nothing about their streams. -/
theorem Intact.of_alike {endpoint : Endpoint} {connected : Prop} {t u : Tunnel}
    (alike : t.silent = u.silent) (h : t.Intact endpoint connected) :
    u.Intact endpoint connected := by
  have silent : t.silent.Intact endpoint connected :=
    ⟨⟨h.up.kept, h.up.stream, h.up.oneWrite⟩, ⟨h.down.kept, h.down.stream, h.down.oneWrite⟩,
      h.connects, h.gate⟩
  rw [alike] at silent
  exact ⟨⟨silent.up.kept, silent.up.stream, silent.up.oneWrite⟩,
    ⟨silent.down.kept, silent.down.stream, silent.down.oneWrite⟩, silent.connects, silent.gate⟩

end Tunnel

/-- A session of the VPS worker may send to its target server after the handler of its connect,
and not before. -/
theorem Vps.step_gate {A : AesGcm} {other : Int → Fin 4} {w w' : Vps.Worker} {e : Worker.Event}
    {this : Nat} {t : Vps.Session} (h : w.Holds) (step : Vps.Step A other w e w')
    (found : w'.sessions this = some t) (enabled : t.enableToSendToTargetServer = true) :
    (∃ s, w.sessions this = some s ∧ s.enableToSendToTargetServer = true) ∨
      ∃ i, e = .session this (.connectHandler i false) := by
  obtain ⟨known, fresh⟩ := @Vps.step_cases A other w w' e this h step
  cases before : w.sessions this with
  | none =>
      obtain ⟨new, sessionId, len, input, old, u, -, moved, rfl⟩ := fresh before t found
      have opened := (Vps.handle_gate moved.2).mp enabled
      rcases opened with never | ⟨i, other⟩
      · cases never
      · cases other
  | some s =>
      obtain ⟨u, same, moves⟩ := known s before
      cases same.symm.trans found
      cases moves with
      | idle _ => exact .inl ⟨t, rfl, enabled⟩
      | handler _ step =>
          rcases (Vps.handle_gate step.2).mp enabled with was | ⟨i, rfl⟩
          · exact .inl ⟨s, rfl, was⟩
          · exact .inr ⟨i, rfl⟩
      | input step =>
          rcases (Vps.handle_gate step.2).mp enabled with was | ⟨i, other⟩
          · exact .inl ⟨s, rfl, was⟩
          · cases other

namespace Network
variable {ι : Type} [DecidableEq ι] {A : AesGcm} {other : Int → Fin 4} {address : ι → Endpoint}
  {n : Network ι}

/-- The home session at `this` of a worker, and the VPS session with its id. -/
def tunnelOf (n : Network ι) (address : ι → Endpoint) (i : ι) (s : Home.Session) : Tunnel :=
  (n.connection s.sessionId).tunnel s.sessionId (address i) s

theorem Coherent.simulated (h : Coherent A address n) {i : ι} {this : Nat} {s : Home.Session}
    (here : (n.home i).sessions this = some s) :
    ∃ homeNext vpsNext endpoint es t,
      Trace Tunnel.ClosingStep
        (Tunnel.start s.sessionId homeNext vpsNext endpoint (address i)) es t ∧
      t.silent = (n.tunnelOf address i s).silent := by
  obtain ⟨c, es, rfl, run⟩ := h.connections s.sessionId
  have found : (n.connection s.sessionId).home i = some s := (h.home i).lookup here
  obtain ⟨homeNext, vpsNext, endpoint, t, trace, alike⟩ :=
    (Connection.behaves run).simulated i s found
  exact ⟨homeNext, vpsNext, endpoint, _, t, trace, alike⟩

/-! A home worker accepts a connection, and its first segment opens the session of the VPS. -/

def sampleAddress : Bool → Endpoint
  | true => ⟨1, 5000⟩
  | false => ⟨2, 5000⟩

theorem sampleAddress_injective : Function.Injective sampleAddress := by
  intro i j same
  cases i <;> cases j
  · rfl
  · exact absurd same (by decide)
  · exact absurd same (by decide)
  · rfl

def sampleId : SessionId := .replicate 16 1

def sampleSegment : List UInt8 := List.replicate 34 0

/-- What the VPS makes of the first segment. -/
theorem sample_connects : ∃ t, Vps.inputToKcp (Vps.registered
    ⟨4096, .replicate 16 0, ⟨1, 5000⟩, 10⟩ sampleId) sampleSegment.length
      ⟨0, [Session.statusAndData ⟨1, 80⟩]⟩ (fun _ => []) = some t ∧
      t.connects = [(⟨1, 80⟩, none)] := ⟨_, by rfl, by rfl⟩

theorem exists_opened : ∃ n : Network Bool,
    Reachable (Step .sample (fun _ => 0) sampleAddress) Start n ∧
      (n.home true).sessions 7 = some (Home.registered sampleId ⟨1, 80⟩) ∧
      ∃ v, n.vps.sessions 4096 = some v ∧ v.connects = [(⟨1, 80⟩, none)] := by
  obtain ⟨w, started, unused, unknown, -⟩ := Worker.exists_started (S := Session) (α := Packet)
  obtain ⟨u, started', unused', unknown', waiting⟩ :=
    Worker.exists_started (S := Vps.Session) (α := Endpoint × Packet)
  have idle : w.udpSocketWaitForSendDeque = .idle := by
    obtain ⟨wheel, buf, -, rfl⟩ := started
    rfl
  -- The connection is accepted.
  obtain ⟨v, ran, -, sessions, map⟩ :=
    Home.registerSession_eq (Worker.started_holds started) (unused 7) (unknown sampleId)
      (.replicate 16 0) 10 ⟨1, 80⟩
  have here : v.sessions 7 = some (Home.registered sampleId ⟨1, 80⟩) := by
    rw [sessions, Function.update_self]
  have accepts : Step .sample (fun _ => 0) sampleAddress
      ⟨fun _ => w, u, fun _ => .empty, fun _ => .empty⟩ (.home true (.registerSession 7 sampleId))
      ⟨Function.update (fun _ => w) true v, u, fun _ => .empty, fun _ => .empty⟩ :=
    .registerSession (fun _ => unknown sampleId)
      (.registerSession (unused 7) (unknown sampleId) ran)
  -- Its KCP outputs a segment.
  have short : sampleSegment.length ≤ 1250 := by decide
  obtain ⟨x, pair, called, sessions', map', sent, frame⟩ :=
    Worker.exists_kcpCallBack .sample (fun _ pair => pair) (fun _ => 0) (.replicate 32 0)
      (.replicate 12 0) short here ((Home.registerSession_queue ran).trans idle) (.replicate _ 0)
  have outputs : Step .sample (fun _ => 0) sampleAddress
      ⟨Function.update (fun _ => w) true v, u, fun _ => .empty, fun _ => .empty⟩
      (.home true (.kcpCallBack 7 sampleSegment))
      ⟨Function.update (Function.update (fun _ => w) true v) true x, u,
        Histories.note (fun _ => .empty) sampleId (·.outputs sampleSegment), fun _ => .empty⟩ :=
    .home (.kcpCallBack (.replicate _ 0) here short called)
  obtain ⟨home, eq⟩ : ∃ home, home =
      Function.update (Function.update (fun _ => w) true v) true x := ⟨_, rfl⟩
  rw [← eq] at outputs
  have first : home true = x := by rw [eq, Function.update_self]
  have second : home false = w := by rw [eq]; rfl
  have own : ∀ j s, (home j).lookup sampleId = some s → s = Home.registered sampleId ⟨1, 80⟩ := by
    intro j s found
    cases j with
    | true =>
        rw [first, Worker.lookup, sessions', map', map, Function.update_self, Option.bind_some,
          here] at found
        exact (Option.some.inj found).symm
    | false =>
        rw [second, Worker.lookup, unknown] at found
        cases found
  -- The segment arrives.
  change datagram pair = FastAesGcm.sealFrame _ _ _ (sampleId.toList ++ sampleSegment) at frame
  have fits : sampleSegment.length + 84 ≤ bufferSize := by decide
  obtain ⟨y, arrived, receives⟩ : Vps.Receives .sample sampleId sampleSegment
      (FastAesGcm.sealFrame .sample (.replicate 32 0) (.replicate 12 0)
        (sampleId.toList ++ sampleSegment)) u :=
    Vps.receives_frame (Worker.started_holds started') fits
  obtain ⟨z, handled, -, -, t, fed, -, placed⟩ := (receives
    (fun _ => ⟨0, [Session.statusAndData ⟨1, 80⟩]⟩) (fun _ => [])
    ⟨4096, .replicate 16 0, ⟨1, 5000⟩, 10⟩ (unused' 4096)).2 (unknown' sampleId)
  have whole : (datagram pair).take bufferSize = datagram pair :=
    List.take_of_length_le (by rw [frame, sealFrame_size]; exact fits)
  rw [← frame] at arrived handled
  obtain ⟨length, out, segment⟩ := Worker.arrived_segment frame short arrived
  rw [← length] at segment
  rw [← whole] at handled
  have armed : 0 < u.receives := by rw [waiting]; exact Nat.one_pos
  have received : pair ∈ (home true).udpSocketWaitForSendDeque.started := by
    rw [first, sent]
    exact List.mem_singleton_self pair
  have reliable : ∀ j s, (home j).lookup sampleId = some s → Reliable s [sampleSegment] .empty
      sampleSegment sampleSegment.length [Session.statusAndData ⟨1, 80⟩] := by
    intro j s found _
    rw [own j s found]
    exact ⟨List.prefix_refl _, .inr (by decide)⟩
  have opens := @Step.vpsReceive Bool _ .sample (fun _ => 0) sampleAddress
    ⟨home, u, Histories.note (fun _ => .empty) sampleId (·.outputs sampleSegment),
      fun _ => .empty⟩
    true pair y out ⟨sampleId, sampleSegment.length, sampleSegment⟩
    ⟨.success, fun _ => ⟨0, [Session.statusAndData ⟨1, 80⟩]⟩, fun _ => []⟩
    ⟨4096, .replicate 16 0, ⟨1, 5000⟩, 10⟩ z received rfl armed arrived (unused' 4096) rfl segment
    reliable handled
  have start : Start (⟨fun _ => w, u, fun _ => .empty, fun _ => .empty⟩ : Network Bool) :=
    ⟨fun _ => started, started', fun _ => rfl, fun _ => rfl⟩
  have run := Trace.cons accepts (.cons outputs (.single opens))
  refine ⟨_, ⟨_, _, start, run⟩, ?_, Worker.answered t, ?_, ?_⟩
  · change (home true).sessions 7 = _
    rw [first, sessions', here]
  · change z.sessions 4096 = _
    rw [placed, Function.update_self]
    rfl
  · obtain ⟨t', fed', connects⟩ := sample_connects
    cases fed'.symm.trans fed
    exact connects

/-- Every session of every home worker has had, with the VPS session of its id, the run of a
tunnel, whatever the other sessions do and whatever becomes of the datagrams. -/
theorem sessions_are_tunnels (injective : Function.Injective address)
    (reachable : Reachable (Step A other address) Start n) {i : ι} {this : Nat} {s : Home.Session}
    (here : (n.home i).sessions this = some s) :
    ∃ homeNext vpsNext endpoint es t,
      Trace Tunnel.ClosingStep
        (Tunnel.start s.sessionId homeNext vpsNext endpoint (address i)) es t ∧
      t.silent = (n.tunnelOf address i s).silent :=
  (reachable_coherent injective reachable).simulated here

theorem sessions_are_tunnels_opened : ∃ (n : Network Bool) (s : Home.Session) (v : Vps.Session),
    (n.home true).sessions 7 = some s ∧ n.vps.sessions 4096 = some v ∧
      v.connects = [(⟨1, 80⟩, none)] ∧ ∃ homeNext vpsNext endpoint es t,
        Trace Tunnel.ClosingStep
          (Tunnel.start s.sessionId homeNext vpsNext endpoint ⟨1, 5000⟩) es t ∧
        t.silent = (n.tunnelOf sampleAddress true s).silent := by
  obtain ⟨n, reachable, here, v, there, connects⟩ := exists_opened
  exact ⟨n, _, v, here, there, connects,
    sessions_are_tunnels sampleAddress_injective reachable here⟩

/-- No session is given what another one has sent, and no home worker is sent what is
another one's. -/
structure Isolated (A : AesGcm) (address : ι → Endpoint) (n : Network ι) : Prop where
  toVps : ∀ sessionId, ∀ data ∈ (n.vpsHistory sessionId).input,
    data ∈ (n.homeHistory sessionId).output
  toHome : ∀ sessionId, ∀ data ∈ (n.homeHistory sessionId).input,
    data ∈ (n.vpsHistory sessionId).output
  /-- A VPS session answers one home worker, and that has the session with its id. -/
  owner : ∀ this v, n.vps.sessions this = some v → ∃ i s, (n.home i).lookup v.sessionId = some s ∧
    v.homeClienEndpoint = address i ∧ ∀ j t, (n.home j).lookup v.sessionId = some t → j = i
  /-- A datagram for a home worker carries a segment for one of its own sessions. -/
  sent : ∀ i pair, (address i, pair) ∈ n.vps.udpSocketWaitForSendDeque.entries →
    ∃ sessionId s, (n.home i).lookup sessionId = some s ∧
      Worker.Framed A (n.vpsHistory sessionId).output sessionId pair

theorem Coherent.isolated (h : Coherent A address n) (injective : Function.Injective address) :
    n.Isolated A address := by
  refine ⟨fun id => (h.orderly id).toVps, fun id => (h.orderly id).toHome, ?_, ?_⟩
  · intro this v here
    obtain ⟨i, own, answers⟩ := (h.orderly v.sessionId).opened v (h.vps.lookup here)
    obtain ⟨s, found⟩ := Option.isSome_iff_exists.mp own
    refine ⟨i, s, found, answers, ?_⟩
    intro j t found'
    exact (h.orderly v.sessionId).owner j i (congrArg Option.isSome found') own
  · intro i pair member
    obtain ⟨id, v, pair', found, eq, framed⟩ := h.vps.framed _ member
    obtain ⟨dest, rfl⟩ := Prod.mk.inj eq
    obtain ⟨j, own, answers⟩ := (h.orderly id).opened v found
    obtain rfl : j = i := injective (answers.symm.trans dest)
    obtain ⟨s, found'⟩ := Option.isSome_iff_exists.mp own
    exact ⟨id, s, found', framed⟩

/-- Across all sessions, all home workers, and all that a network does to datagrams. -/
theorem sessions_isolated (injective : Function.Injective address)
    (reachable : Reachable (Step A other address) Start n) : n.Isolated A address :=
  (reachable_coherent injective reachable).isolated injective

theorem sessions_isolated_opened : ∃ (n : Network Bool) (v : Vps.Session),
    n.vps.sessions 4096 = some v ∧ n.Isolated .sample sampleAddress := by
  obtain ⟨n, reachable, -, v, there, -⟩ := exists_opened
  exact ⟨n, v, there, sessions_isolated sampleAddress_injective reachable⟩

/-! The connects of the VPS. -/

/-- The handler of a connect has succeeded for the VPS session with this id. -/
def Connected (n : Network ι) (es : List (Event ι)) (sessionId : SessionId) : Prop :=
  ∃ this i, n.vps.sessionMap sessionId = some this ∧
    Event.vps (.session this (.connectHandler i false)) ∈ es

/-- A step of the network is one of the VPS worker, or leaves that worker alone. -/
theorem step_vps {n' : Network ι} {e : Event ι} (step : Step A other address n e n') :
    n'.vps = n.vps ∨ ∃ f, e = .vps f ∧ Vps.Step A other n.vps f n'.vps := by
  cases step with
  | home | registerSession | homeError | homeReceive => exact .inl rfl
  | vps own => exact .inr ⟨_, rfl, .common own.common⟩
  | vpsError step => exact .inr ⟨_, rfl, step⟩
  | vpsReceive _ _ waiting arrived unused _ _ _ handled =>
      exact .inr ⟨_, rfl, .receive waiting arrived unused handled⟩

/-- The session has its connect among the events. -/
def Gated (es : List (Event ι)) (n : Network ι) : Prop :=
  ∀ this v, n.vps.sessions this = some v → v.enableToSendToTargetServer = true →
    ∃ i, Event.vps (.session this (.connectHandler i false)) ∈ es

theorem gated_step {n' : Network ι} {es : List (Event ι)} {e : Event ι} (gated : n.Gated es)
    (holds : n.vps.Holds) (step : Step A other address n e n') : n'.Gated (es ++ [e]) := by
  intro this v found enabled
  rcases step_vps step with same | ⟨f, rfl, moved⟩
  · rw [same] at found
    obtain ⟨i, member⟩ := gated this v found enabled
    exact ⟨i, List.mem_append_left _ member⟩
  · rcases Vps.step_gate holds moved found enabled with ⟨u, before, enabled⟩ | ⟨i, rfl⟩
    · obtain ⟨i, member⟩ := gated this u before enabled
      exact ⟨i, List.mem_append_left _ member⟩
    · exact ⟨i, List.mem_append_right _ (List.mem_singleton_self _)⟩

theorem run_gated (injective : Function.Injective address) {n₀ : Network ι}
    {es : List (Event ι)} (start : Start n₀) (run : Trace (Step A other address) n₀ es n) :
    n.Gated es := by
  have first : n₀.Gated [] := by
    obtain ⟨-, ⟨wheel, buf, -, eq⟩, -⟩ := start
    intro this v found
    rw [eq] at found
    cases found
  exact (run.log (I := fun es n => Coherent A address n ∧ n.Gated es)
    (fun es m e m' h step => ⟨h.1.step injective step, gated_step h.2 h.1.vps.holds step⟩)
    ⟨start_coherent start, first⟩).2

/-- No session of the network loses, repeats, reorders or invents a byte, or gets a byte of
another session. -/
theorem streams_intact (injective : Function.Injective address) {n₀ : Network ι}
    {es : List (Event ι)} (start : Start n₀) (run : Trace (Step A other address) n₀ es n) {i : ι}
    {this : Nat} {s : Home.Session} (here : (n.home i).sessions this = some s) :
    ∃ endpoint, s.kcp.sent.head? = some (Session.statusAndData endpoint) ∧
      (n.tunnelOf address i s).Intact endpoint (n.Connected es s.sessionId) := by
  obtain ⟨homeNext, vpsNext, endpoint, fs, t, trace, alike⟩ :=
    (reachable_coherent injective ⟨n₀, es, start, run⟩).simulated here
  have measured : t.Measured endpoint :=
    trace.invariant (I := Tunnel.Measured endpoint) (fun _ _ _ h step => h.step step)
      (Tunnel.start_measured s.sessionId homeNext vpsNext endpoint (address i))
  refine ⟨endpoint, ?_, (measured.joined.intact ?_).of_alike alike⟩
  · obtain ⟨pieces, sent, -⟩ := measured.home.sent
    have same : t.home.kcp.sent = s.kcp.sent := congrArg (fun t => t.home.kcp.sent) alike
    rw [← same, sent]
    rfl
  · intro enabled
    have same : t.vps.enableToSendToTargetServer =
        ((n.vps.lookup s.sessionId).getD
          (.create s.sessionId (address i))).enableToSendToTargetServer :=
      congrArg (fun t => t.vps.enableToSendToTargetServer) alike
    rw [enabled, Worker.lookup] at same
    cases map : n.vps.sessionMap s.sessionId with
    | none =>
        rw [map] at same
        cases same
    | some p =>
        cases found : n.vps.sessions p with
        | none =>
            rw [map, Option.bind_some, found] at same
            cases same
        | some v =>
            rw [map, Option.bind_some, found] at same
            obtain ⟨i, member⟩ := run_gated injective start run p v found same.symm
            exact ⟨p, i, map, member⟩

theorem streams_intact_opened : ∃ (n : Network Bool) (es : List (Event Bool)) (s : Home.Session),
    (n.home true).sessions 7 = some s ∧
      ∃ endpoint, s.kcp.sent.head? = some (Session.statusAndData endpoint) ∧
        (n.tunnelOf sampleAddress true s).Intact endpoint (n.Connected es s.sessionId) := by
  obtain ⟨n, ⟨n₀, es, start, run⟩, here, -⟩ := exists_opened
  exact ⟨n, es, _, here, streams_intact sampleAddress_injective start run here⟩

end Network
end TransparentProxyNet
