import TransparentProxyNet.Network.Streams
import TransparentProxyNet.Worker.Requests

/-! The workers of a network, each in the memory of its own pool. What one program sends
never makes the other one ask for more than a node, so the memory of all of them is safe. -/
namespace TransparentProxyNet
open Machine

/-! ### Sizes -/

theorem Session.Sized.of_silent {header : List (List UInt8)} {s t : Session} (h : s.Sized header)
    (alike : s.silent = t.silent) (quiet : t.calls = []) : t.Sized header := by
  obtain ⟨calls, rfl⟩ := silent_eq alike
  refine ⟨h.reads, h.sent, ?_⟩
  intro size member
  rw [quiet] at member
  cases member

namespace Worker
variable {S α : Type} [Served S] {k : Nat} {w w' : Worker S α}

/-- The node of a segment has room for the frame. -/
theorem Fits.own (fits : w.Fits k) {A : AesGcm} {other : Int → Fin 4}
    {handle : S → Session.Event → Option S} {addressed : S → Packet → α} {h h' : Histories}
    {e : Event} (step : OwnStep A other handle addressed w h e w' h')
    (modest : ∀ this s e t, w.sessions this = some s → onSocket e → (base s).Enabled e →
      handle s e = some t → (base t).Modest) : w'.Fits k := by
  cases step with
  | session here step =>
      cases step with
      | session socket here' enabled ran =>
          refine fits.run ran fun s t found => ?_
          cases here'.symm.trans found
          exact modest _ _ _ t found socket enabled
  | @kcpCallBack this s key iv _ buf node here short called =>
      simp only [Worker.kcpCallBack, Option.bind_eq_bind, Option.bind_eq_some_iff] at called
      obtain ⟨-, -, pair, -, q, -, eq⟩ := called
      cases eq
      refine fits.asks rfl ?_
      intro request member
      cases List.mem_singleton.mp member
      simp only [Request.memorySize, bufferPaddingSize, bufferSize]
      omega
  | sent step =>
      cases step
      exact fits.of_same rfl
  | doCurrentTimeWheel step =>
      cases step
      exact fits.of_same rfl

end Worker

/-! ### The network -/

namespace Network
open TransparentProxyNet.Worker (Authentic)

variable {ι : Type} {A : AesGcm} {other : Int → Fin 4} {address : ι → Endpoint}
  {n n' : Network ι} {k : Nat}

structure Fits (structTaskSize : Nat) (n : Network ι) : Prop where
  home : ∀ i, (n.home i).Fits structTaskSize
  vps : n.vps.Fits structTaskSize

theorem start_fits (start : Start n) : n.Fits k :=
  ⟨fun i => Worker.started_fits (start.1 i), Worker.started_fits start.2.1⟩

/-- What the two halves of a tunnel are like between handlers. -/
structure Halves (s : Home.Session) (v : Vps.Session) : Prop where
  home : ∃ endpoint, s.Sized [Session.statusAndData endpoint]
  vps : v.toSession.Sized []
  homeQueue : s.kcp.rcvQueue = []
  vpsQueue : v.kcp.rcvQueue = []

variable [DecidableEq ι]

theorem Fits.update (fits : n.Fits k) {i : ι} {w : Home.Worker} (own : w.Fits k) (j : ι) :
    (Function.update n.home i w j).Fits k := by
  by_cases same : j = i
  · subst same
    rw [Function.update_self]
    exact own
  · rw [Function.update_of_ne same]
    exact fits.home j

namespace Coherent

theorem quiet_home (h : Coherent A address n) {i : ι} {sessionId : SessionId} {s : Home.Session}
    (found : (n.home i).lookup sessionId = some s) : s.calls = [] := by
  obtain ⟨this, -, here⟩ := Option.bind_eq_some_iff.mp found
  exact ((h.home i).holds.quiet this s here).calls

theorem quiet_peer (h : Coherent A address n) (i : ι) (sessionId : SessionId) :
    ((n.connection sessionId).peer sessionId (address i)).calls = [] := by
  cases found : n.vps.lookup sessionId with
  | none => simp only [Connection.peer, connection, found]; rfl
  | some v =>
      obtain ⟨this, -, here⟩ := Option.bind_eq_some_iff.mp found
      simp only [Connection.peer, connection, found]
      exact (h.vps.holds.quiet this v here).calls

theorem halves (h : Coherent A address n) {i : ι} {sessionId : SessionId} {s : Home.Session}
    (found : (n.home i).lookup sessionId = some s) :
    Halves s ((n.connection sessionId).peer sessionId (address i)) := by
  obtain ⟨c, es, rfl, run⟩ := h.connections sessionId
  obtain ⟨homeNext, vpsNext, endpoint, t, trace, alike⟩ :=
    (Connection.behaves run).simulated i s found
  have measured : t.Measured endpoint :=
    trace.invariant (I := Tunnel.Measured endpoint) (fun _ _ _ h step => h.step step)
      (Tunnel.start_measured sessionId homeNext vpsNext endpoint (address i))
  obtain ⟨home, vps, -⟩ := Tunnel.silent_eq_iff.mp alike
  have base : t.vps.toSession.silent =
      ((n.connection sessionId).peer sessionId (address i)).toSession.silent :=
    congrArg Vps.Session.toSession vps
  refine ⟨⟨endpoint, measured.home.of_silent home (h.quiet_home found)⟩,
    measured.vps.of_silent base (h.quiet_peer i sessionId), ?_, ?_⟩
  · exact (congrArg (fun s => s.kcp.rcvQueue) home).symm.trans measured.joined.homeQueue
  · exact (congrArg (fun s => s.kcp.rcvQueue) base).symm.trans measured.joined.vpsQueue

theorem short_arrived {peer : Session} {header : List (List UInt8)} (sized : peer.Sized header)
    (opening : ∀ message ∈ header, message.length ≤ bufferSize) {output : List (List UInt8)}
    {h : History} {data : List UInt8} {len : Int} {arrived : List (List UInt8)}
    (reliable : Reliable peer output h data len arrived) (fed : ∀ x ∈ h.input, x ∈ output)
    (own : data ∈ output) : ∀ message ∈ arrived, message.length ≤ bufferSize := by
  have authentic : ∀ x ∈ h.input ++ [data], x ∈ output := by
    intro x member
    rcases List.mem_append.mp member with before | now
    · exact fed x before
    · cases List.mem_singleton.mp now
      exact own
  intro message member
  apply Tunnel.sized_short sized opening (reliable authentic).1
  exact List.mem_append_right _ member

/-- The step lemma: no handler asks for more than the largest node. -/
theorem fits_step (h : Coherent A address n) (injective : Function.Injective address)
    (small : k ≤ bufferSize) (fits : n.Fits k) {e : Event ι}
    (step : Step A other address n e n') : n'.Fits k := by
  cases step with
  | @home i e w history own =>
      refine ⟨fits.update ((fits.home i).own own ?_), fits.vps⟩
      intro this s e t found socket enabled handled
      obtain ⟨endpoint, sized⟩ := (h.halves ((h.home i).lookup found)).home
      exact (Home.sized_event sized socket enabled handled).asked
  | @vps e w history own =>
      refine ⟨fits.home, fits.vps.own own ?_⟩
      intro this v e t found socket enabled handled
      have here := h.vps.lookup found
      obtain ⟨i, there, -⟩ := (h.orderly v.sessionId).opened v here
      obtain ⟨s, found'⟩ := Option.isSome_iff_exists.mp there
      have sized := (h.halves found').vps
      simp only [Connection.peer, connection] at sized
      rw [show n.vps.lookup v.sessionId = some v from here] at sized
      exact (Vps.sized_event sized socket enabled handled).asked
  | @registerSession i this randomId w nobody step =>
      refine ⟨fits.update ?_, fits.vps⟩
      cases step with
      | common step => cases step
      | registerSession unused new ran =>
          exact (fits.home i).asks (Home.register_requests ran).1 (Worker.small_task small)
  | @homeError i w step =>
      refine ⟨fits.update ?_, fits.vps⟩
      cases step with
      | common step => cases step
      | receiveError waiting handled =>
          cases handled
          exact (fits.home i).of_same rfl
  | @vpsError w step =>
      refine ⟨fits.home, ?_⟩
      cases step with
      | common step => cases step
      | receiveError waiting handled =>
          cases handled
          exact fits.vps.of_same rfl
  | @homeReceive i pair v buf segment calls w sent waiting arrived success found reliable handled =>
      refine ⟨fits.update ?_, fits.vps⟩
      obtain ⟨s, u, here, there, output, length⟩ :=
        h.home_segment injective sent arrived success found
      rw [Home.receiveHandler, if_neg Bool.false_ne_true] at handled
      refine Worker.Fits.decode found handled fun x delivered => ?_
      obtain ⟨b, -, rfl⟩ := Option.map_eq_some_iff.mp arrived
      refine Home.deliver_fits ?_ delivered fun s' t here' fed => ?_
      · exact (fits.home i).of_same rfl
      · cases here.symm.trans here'
        obtain ⟨⟨endpoint, sized⟩, peer, queue, -⟩ := h.halves here
        simp only [Connection.peer, connection, there] at peer
        refine (Home.sized_inputToKcp sized (by simp [queue]) ?_ fed).asked
        exact short_arrived peer (by simp) (reliable u there) (h.orderly _).toHome output
  | @vpsReceive i pair v buf segment calls new w sent source waiting arrived unused success found
      reliable handled =>
      refine ⟨fits.home, ?_⟩
      obtain ⟨s, here, output, length, full⟩ := h.vps_segment sent arrived success found
      rw [Vps.receiveHandler, if_neg Bool.false_ne_true, if_neg full] at handled
      refine Worker.Fits.decode found handled fun x delivered => ?_
      obtain ⟨b, -, rfl⟩ := Option.map_eq_some_iff.mp arrived
      refine Vps.deliver_fits ?_ small delivered fun t fed => ?_
      · exact fits.vps.of_same rfl
      · obtain ⟨⟨endpoint, sized⟩, peer, -, queue⟩ := h.halves here
        rw [source] at fed
        refine (Vps.sized_inputToKcp peer (by simp [queue]) ?_ fed).asked
        exact short_arrived sized (Tunnel.opening_short endpoint) (reliable i s here)
          (h.orderly _).toVps output

end Coherent

/-! ### Every worker in the memory of its pool -/

structure Housed (ι : Type) where
  home : ι → Worker.Housed Home.Session Packet
  vps : Worker.Housed Vps.Session (Endpoint × Packet)
  homeHistory : Histories
  vpsHistory : Histories

namespace Housed

def network (h : Housed ι) : Network ι where
  home i := (h.home i).worker
  vps := h.vps.worker
  homeHistory := h.homeHistory
  vpsHistory := h.vpsHistory

/-- A step of the network, and in the pool of the worker that makes it. -/
def Step (A : AesGcm) (other : Int → Fin 4) (address : ι → Endpoint) (structTaskSize : Nat)
    (h : Housed ι) (e : Event ι × Worker.ReceiveCalls) (h' : Housed ι) : Prop :=
  Network.Step A other address h.network e.1 h'.network ∧
    match e.1 with
    | .home i own =>
      Worker.Housed.Step other (Home.Handles A other) (Home.nodes A structTaskSize) (h.home i)
        (own, e.2) (h'.home i) ∧ (∀ j, j ≠ i → h'.home j = h.home j) ∧ h'.vps = h.vps
    | .vps own =>
      Worker.Housed.Step other (Vps.Handles A other) (Vps.nodes A structTaskSize) h.vps
        (own, e.2) h'.vps ∧ h'.home = h.home

def Started (S : MemoryPool.Setting) (other : Int → Fin 4) (h : Housed ι) : Prop :=
  Network.Start h.network ∧ (∀ i, (h.home i).Started S other) ∧ h.vps.Started S other

/-- What the run lemma carries along. -/
structure Sound (A : AesGcm) (S : MemoryPool.Setting) (other : Int → Fin 4)
    (address : ι → Endpoint) (structTaskSize : Nat) (h : Housed ι) : Prop where
  coherent : Coherent A address h.network
  fits : h.network.Fits structTaskSize
  home : ∀ i, (h.home i).Sound S other structTaskSize (Home.Step A other)
  vps : h.vps.Sound S other structTaskSize (Vps.Step A other)

theorem started_sound {S : MemoryPool.Setting} {h : Housed ι} (started : h.Started S other) :
    h.Sound A S other address k :=
  ⟨start_coherent started.1, start_fits started.1,
    fun i => Worker.Housed.started_sound (started.2.1 i),
    Worker.Housed.started_sound started.2.2⟩

theorem Sound.step {S : MemoryPool.Setting} {h h' : Housed ι} (sound : h.Sound A S other address k)
    (injective : Function.Injective address) (small : k ≤ bufferSize)
    {e : Event ι × Worker.ReceiveCalls} (step : Step A other address k h e h') :
    h'.Sound A S other address k := by
  obtain ⟨taken, memory⟩ := step
  have coherent := sound.coherent.step injective taken
  have fits := sound.coherent.fits_step injective small sound.fits taken
  obtain ⟨e, calls⟩ := e
  cases e with
  | home i own =>
      obtain ⟨acts, others, vps⟩ := memory
      refine ⟨coherent, fits, fun j => ?_, vps ▸ sound.vps⟩
      by_cases same : j = i
      · subst same
        exact ((Home.keeping A other k).follows (sound.home j) acts (fits.home j)).2
      · rw [others j same]
        exact sound.home j
  | vps own =>
      obtain ⟨acts, others⟩ := memory
      refine ⟨coherent, fits, fun j => others ▸ sound.home j, ?_⟩
      exact ((Vps.keeping A other k).follows sound.vps acts fits.vps).2

end Housed

/-- The workers of a network never bring each other to misuse their pools. -/
theorem memories_safe {S : MemoryPool.Setting} {structTaskSize : Nat} {h : Housed ι}
    (injective : Function.Injective address) (small : structTaskSize ≤ bufferSize)
    (reachable : Reachable (Housed.Step A other address structTaskSize) (Housed.Started S other) h) :
    h.network.Fits structTaskSize ∧
      (∀ i, (h.home i).Safe S other structTaskSize (Home.Step A other) (Home.Handles A other)
        (Home.nodes A structTaskSize)) ∧
      h.vps.Safe S other structTaskSize (Vps.Step A other) (Vps.Handles A other)
        (Vps.nodes A structTaskSize) := by
  have sound : h.Sound A S other address structTaskSize :=
    reachable.invariant (I := Housed.Sound A S other address structTaskSize)
      (fun _ => Housed.started_sound) fun _ _ _ sound step => sound.step injective small step
  exact ⟨sound.fits, fun i => (Home.keeping A other structTaskSize).safe (sound.home i),
    (Vps.keeping A other structTaskSize).safe sound.vps⟩

/-- One of two workers accepts a connection. -/
theorem memories_safe_registered : ∃ h : Housed Bool,
    (h.home true).worker.requests = [.buffer bufferSize, .structTask, .buffer bufferSize] ∧
      (h.home true).Safe MemoryPool.megabytes (fun _ => 0) 400 (Home.Step .sample fun _ => 0)
        (Home.Handles .sample fun _ => 0) (Home.nodes .sample 400) := by
  obtain ⟨w, new, -, unknown, -⟩ := Worker.exists_started (S := Session) (α := Packet)
  obtain ⟨st, rfl, started⟩ := Worker.Housed.exists_started new fun _ => 0
  obtain ⟨w', new', -⟩ := Worker.exists_started (S := Vps.Session) (α := Endpoint × Packet)
  obtain ⟨sv, rfl, started'⟩ := Worker.Housed.exists_started new' fun _ => 0
  obtain ⟨p, calls, st', step, requests, -⟩ :=
    Home.exists_accepted .sample (k := 400) started (by decide) sampleId
  have fits : st'.worker.Fits 400 := by
    rw [Worker.Fits, requests]
    decide
  obtain ⟨taken, -⟩ := (Home.keeping .sample (fun _ => 0) 400).follows
    (Worker.Housed.started_sound started) step fits
  let h : Housed Bool := ⟨fun _ => st, sv, fun _ => .empty, fun _ => .empty⟩
  let h' : Housed Bool := { h with home := Function.update h.home true st' }
  have begun : h.Started MemoryPool.megabytes fun _ => 0 :=
    ⟨⟨fun _ => new, new', fun _ => rfl, fun _ => rfl⟩, fun _ => started, started'⟩
  have accepts : Network.Step .sample (fun _ => 0) sampleAddress h.network
      (.home true (.registerSession p sampleId)) h'.network := by
    have home : h'.network.home = Function.update h.network.home true st'.worker := by
      funext i
      exact Function.apply_update (fun _ st => Worker.Housed.worker st) h.home true st' i
    have step := @Network.Step.registerSession Bool _ .sample (fun _ => 0) sampleAddress h.network
      true p sampleId _ (fun _ => unknown sampleId) taken
    rwa [← home] at step
  have own : h'.home true = st' := Function.update_self true st' h.home
  have stepped : Housed.Step .sample (fun _ => 0) sampleAddress 400 h
      (.home true (.registerSession p sampleId), calls) h' :=
    ⟨accepts, own ▸ step, fun j ne => Function.update_of_ne ne .., rfl⟩
  have safe := memories_safe sampleAddress_injective (by decide)
    ((Reachable.init begun).trace (.single stepped))
  exact ⟨h', by rw [own, requests], safe.2.1 true⟩

end Network
end TransparentProxyNet
