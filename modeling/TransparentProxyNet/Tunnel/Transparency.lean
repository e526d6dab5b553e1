import Mathlib.Data.List.Infix
import TransparentProxyNet.Tunnel.Relay

/-! Up to the first close or error the tunnel is transparent: what one application
writes is what the other one reads. -/
namespace TransparentProxyNet.Tunnel
open Machine

/-- The handler of a connect has succeeded. -/
def Connected (es : List Event) : Prop := ∃ e ∈ es, ∃ i, e = .vps (.connectHandler i false)

/-- One direction: `near` has read the bytes `read`, and `far` has been given the messages
`delivered`. What `far` has submitted is a prefix of what has been read, and all of it
when nothing is under way any more. -/
structure Carried (near : Session) (read : List UInt8) (delivered : List (List UInt8))
    (far : Session) : Prop where
  stream : far.submitted <+: read
  whole : near.unsent = [] → delivered = near.kcp.sent → far.tcpDataWaitForSendDeque.items = [] →
    far.submitted = read
  oneWrite : far.tcpDataWaitForSendDeque.pending.length ≤ 1

/-- What holds after the events `es`. -/
structure Transparent (endpoint : Endpoint) (es : List Event) (t : Tunnel) : Prop where
  /-- The first message makes the VPS connect to `endpoint`, once. -/
  connecting : ¬ Connected es → t.vps.connects.map Prod.fst = (t.toVps.take 1).map fun _ => endpoint
  connected : Connected es → t.vps.connects = []
  gate : ¬ Connected es → t.vps.tcpDataWaitForSendDeque.started = []
  up : Carried t.home t.homeRead t.toVps t.vps.toSession
  down : Carried t.vps.toSession t.vpsRead t.toHome t.home
  /-- No queue waits without a write. -/
  homePump : t.home.tcpDataWaitForSendDeque.items ≠ [] → t.home.tcpDataWaitForSendDeque.pending ≠ []
  vpsPump : Connected es → t.vps.tcpDataWaitForSendDeque.items ≠ [] →
    t.vps.tcpDataWaitForSendDeque.pending ≠ []
  /-- Every event that can happen next is handled. -/
  handled : ∀ e, t.Enabled e → (t.handle e).isSome

structure Invariant (endpoint : Endpoint) (t : Tunnel) : Prop where
  home : Home.Side endpoint t.toHome t.homeRead t.home
  vps : Vps.Side endpoint t.toVps t.vpsRead t.vps
  homeQueue : t.home.kcp.rcvQueue = []
  vpsQueue : t.vps.kcp.rcvQueue = []
  toVps : t.toVps <+: t.home.kcp.sent
  toHome : t.toHome <+: t.vps.kcp.sent

theorem start_invariant (sessionId : SessionId) (homeNext vpsNext : UInt32)
    (endpoint homeClienEndpoint : Endpoint) :
    (start sessionId homeNext vpsNext endpoint homeClienEndpoint).Invariant endpoint := by
  refine ⟨⟨⟨rfl, ⟨[], rfl, rfl, fun _ => nofun⟩, ?_, Nat.le_refl 1, fun busy => by cases busy⟩,
    rfl, [], rfl, rfl⟩, ?_, rfl, rfl, List.nil_prefix, List.nil_prefix⟩
  · intro result member
    cases List.mem_singleton.mp member
  · exact ⟨⟨rfl, ⟨[], rfl, rfl, fun _ => nofun⟩, fun _ => nofun, Nat.zero_le 1,
      fun busy => by cases busy⟩, .inl ⟨rfl, rfl, rfl, rfl, rfl, rfl, fun _ => rfl⟩, [], rfl, rfl⟩

variable {endpoint : Endpoint} {t : Tunnel}

/-- Every event that can happen is handled and keeps the invariant. -/
theorem Invariant.step (h : Invariant endpoint t) {e : Event} (enabled : t.Enabled e) :
    ∃ t', t.handle e = some t' ∧ Invariant endpoint t' := by
  cases e with
  | home e =>
      obtain ⟨s, handled, side, grows, queue⟩ := h.home.event enabled.1 enabled.2
      exact ⟨{ t with home := s, homeRead := t.homeRead ++ e.bytesRead },
        by rw [handle, handled]; rfl, side, h.vps, queue.trans h.homeQueue, h.vpsQueue,
        h.toVps.trans grows, h.toHome⟩
  | vps e =>
      obtain ⟨s, handled, side, grows, queue⟩ := h.vps.event enabled.1 enabled.2
      exact ⟨{ t with vps := s, vpsRead := t.vpsRead ++ e.bytesRead }, by rw [handle, handled]; rfl,
        h.home, side, h.homeQueue, queue.trans h.vpsQueue, h.toVps, h.toHome.trans grows⟩
  | toVps len acked arrived old =>
      have speaks := h.home.sends.speaks.mono enabled.1
      obtain ⟨s, handled, side, grows, queue⟩ := h.vps.input h.vpsQueue acked enabled.2 speaks old
      exact ⟨{ t with vps := s, toVps := t.toVps ++ arrived }, by rw [handle, handled]; rfl,
        h.home, side, h.homeQueue, queue, enabled.1, h.toHome.trans grows⟩
  | toHome len acked arrived old =>
      have speaks := h.vps.sends.speaks.mono enabled.1
      obtain ⟨s, handled, side, grows, queue⟩ := h.home.input h.homeQueue acked enabled.2 speaks old
      exact ⟨{ t with home := s, toHome := t.toHome ++ arrived }, by rw [handle, handled]; rfl,
        side, h.vps, queue, h.vpsQueue, h.toVps.trans grows, enabled.1⟩

theorem gate_step {t' : Tunnel} {e : Event} (handled : t.handle e = some t') :
    t'.vps.enableToSendToTargetServer = true ↔
      t.vps.enableToSendToTargetServer = true ∨ ∃ i, e = .vps (.connectHandler i false) := by
  cases e with
  | vps e =>
      obtain ⟨s, run, rfl⟩ := Option.map_eq_some_iff.mp handled
      simp [Vps.handle_gate run]
  | toVps len acked arrived old =>
      obtain ⟨s, run, rfl⟩ := Option.map_eq_some_iff.mp handled
      simp [Vps.inputToKcp_gate run]
  | home e =>
      obtain ⟨s, -, rfl⟩ := Option.map_eq_some_iff.mp handled
      simp
  | toHome len acked arrived old =>
      obtain ⟨s, -, rfl⟩ := Option.map_eq_some_iff.mp handled
      simp

/-- The gate is open exactly from the connect on, whatever else the steps may be. -/
theorem gate_iff {S : Tunnel → Event → Tunnel → Prop}
    (handled : ∀ t e t', S t e t' → t.handle e = some t') {sessionId : SessionId}
    {homeNext vpsNext : UInt32} {homeClienEndpoint : Endpoint} {es : List Event}
    (run : Trace S (start sessionId homeNext vpsNext endpoint homeClienEndpoint) es t) :
    t.vps.enableToSendToTargetServer = true ↔ Connected es := by
  have latch := run.latch (P := fun t => t.vps.enableToSendToTargetServer = true)
    fun _ _ _ step => gate_step (handled _ _ _ step)
  simpa [start, Vps.start, Vps.Session.create, Connected] using latch

/-- The two halves of a direction meet in the messages delivered. -/
theorem carried {header : List (List UInt8)} {near far : Session} {read : List UInt8}
    {delivered : List (List UInt8)}
    (sends : near.Sends header read) (opening : contents header = [])
    (part : delivered <+: near.kcp.sent)
    (log : Logged far.tcpDataWaitForSendDeque (contents delivered))
    (oneWrite : far.tcpDataWaitForSendDeque.pending.length ≤ 1) :
    Carried near read delivered far := by
  have all := sends.all opening
  refine ⟨?_, ?_, oneWrite⟩
  · have given : (contents delivered).flatten <+: (contents near.kcp.sent).flatten :=
      List.IsPrefix.flatten (contents_mono part)
    exact log.submitted.trans (given.trans ⟨_, all⟩)
  · intro sent arrived none
    rw [log.submitted_all none, arrived, ← all, sent, List.append_nil]

theorem running_short {q : Pump.Queue Packet} (h : q.Running) :
    q.pending.length ≤ 1 ∧ (q.items ≠ [] → q.pending ≠ []) := by
  rcases h.pending_eq with ⟨items, pending⟩ | ⟨op, rest, items, pending⟩ <;> simp [items, pending]

/-- Whatever the two applications send, however their reads cut it and in whatever order
messages are delivered and operations end. -/
theorem stream_transparent {sessionId : SessionId} {homeNext vpsNext : UInt32}
    {endpoint homeClienEndpoint : Endpoint} {es : List Event} {t : Tunnel}
    (run : Trace Step (start sessionId homeNext vpsNext endpoint homeClienEndpoint) es t) :
    t.Transparent endpoint es := by
  have h : t.Invariant endpoint := by
    refine run.invariant ?_ (start_invariant sessionId homeNext vpsNext endpoint homeClienEndpoint)
    rintro t e t' h ⟨enabled, handled⟩
    obtain ⟨u, same, kept⟩ := h.step enabled
    cases same.symm.trans handled
    exact kept
  have gate := gate_iff (fun _ _ _ step => step.2) run
  have homeWrites := running_short h.home.running
  have down := carried h.vps.sends rfl h.toHome h.home.log homeWrites.1
  have up := carried h.home.sends (contents_statusAndData endpoint) h.toVps h.vps.log
  have handled : ∀ e, t.Enabled e → (t.handle e).isSome := by
    intro e enabled
    obtain ⟨t', handled, -⟩ := h.step enabled
    rw [handled]
    rfl
  rcases h.vps.phase with waiting | relaying
  · have off : ¬ Connected es := by
      rw [← gate, waiting.disabled]
      exact Bool.false_ne_true
    exact ⟨fun _ => waiting.connects, fun on => absurd on off, fun _ => waiting.started,
      up (by rw [waiting.pending]; exact Nat.zero_le 1), down, homeWrites.2,
        fun on => absurd on off, handled⟩
  · have on : Connected es := gate.mp relaying.enabled
    have vpsWrites := running_short relaying.running
    exact ⟨fun off => absurd on off, fun _ => relaying.connects, fun off => absurd on off,
      up vpsWrites.1, down,
      homeWrites.2, fun _ => vpsWrites.2, handled⟩

/-- Data that reaches the VPS while it connects. -/
def earlyData : List Event :=
  [.toVps 34 0 [Session.statusAndData ⟨1, 80⟩] fun _ => [], .home (.readDone 0 (.data [7, 8])),
    .home (.readHandler 0 (.data [7, 8])), .vps (.connectDone 0 true),
      .toVps 30 0 [normalMessage [7, 8]] fun _ => [],
    .vps (.connectHandler 0 false)]

theorem stream_transparent_early :
    ∃ t, earlyData.foldlM next (start (.replicate 16 0) 10 10 ⟨1, 80⟩ ⟨0, 0⟩) = some t ∧
    t.vps.toSession.submitted = [7, 8] ∧ t.Transparent ⟨1, 80⟩ earlyData := by
  obtain ⟨t, run, written⟩ :
      ∃ t, earlyData.foldlM next (start (.replicate 16 0) 10 10 ⟨1, 80⟩ ⟨0, 0⟩) = some t ∧
      t.vps.toSession.submitted = [7, 8] := ⟨_, by rfl, by rfl⟩
  exact ⟨t, run, written, stream_transparent (.of_foldlM (fun _ _ _ => step_of_next) run)⟩

end TransparentProxyNet.Tunnel
