import TransparentProxyNet.Network.Model
import TransparentProxyNet.Session.Calls

/-! One session id, on all workers. A connection knows nothing of datagrams, frames, queues
or maps: KCP outputs segments on one side, and the other side is fed with some of them,
again and again perhaps, and in any order. -/
namespace TransparentProxyNet
open Machine

/-- The sessions with one id, and what has passed through them. -/
structure Connection (ι : Type) where
  home : ι → Option Home.Session
  vps : Option Vps.Session
  homeHistory : History
  vpsHistory : History

namespace Connection
variable {ι : Type}

def new : Connection ι := ⟨fun _ => none, none, .empty, .empty⟩

/-- The VPS session, or the one that the first segment will make. -/
def peer (c : Connection ι) (sessionId : SessionId) (endpoint : Endpoint) : Vps.Session :=
  c.vps.getD (.create sessionId endpoint)

/-- The tunnel that a home session is one half of. -/
def tunnel (c : Connection ι) (sessionId : SessionId) (endpoint : Endpoint) (s : Home.Session) :
    Tunnel where
  home := s
  vps := c.peer sessionId endpoint
  toVps := c.vpsHistory.delivered
  toHome := c.homeHistory.delivered
  homeRead := c.homeHistory.read
  vpsRead := c.vpsHistory.read

/-- A step, with the step of the tunnel that it is, if it is one. -/
inductive Step [DecidableEq ι] (address : ι → Endpoint) (sessionId : SessionId) :
    Connection ι → Option Tunnel.Event → Connection ι → Prop
  | home {c i s e t} : c.home i = some s → Worker.onSocket e → s.Enabled e →
      Home.handle s e = some t →
      Step address sessionId c (some (.home e))
        { c with
          home := Function.update c.home i (some t.silent)
          homeHistory := c.homeHistory.reads e.bytesRead }
  | vps {c v e t} : c.vps = some v → Worker.onSocket e → v.toSession.Enabled e →
      Vps.handle v e = some t →
      Step address sessionId c (some (.vps e))
        { c with vps := some t.silent, vpsHistory := c.vpsHistory.reads e.bytesRead }
  | homeOutput {c i s buf} : c.home i = some s →
      Step address sessionId c none { c with homeHistory := c.homeHistory.outputs buf }
  | vpsOutput {c v buf} : c.vps = some v →
      Step address sessionId c none { c with vpsHistory := c.vpsHistory.outputs buf }
  | registerSession {c i endpoint} : (∀ j, c.home j = none) →
      Step address sessionId c none
        { c with home := Function.update c.home i (some (Home.registered sessionId endpoint)) }
  | toHome {c i s v data input old t} : c.home i = some s → c.vps = some v →
      data ∈ c.vpsHistory.output →
      Network.Reliable v.toSession c.vpsHistory.output c.homeHistory data data.length
        input.arrived →
      Home.inputToKcp s data.length input old = some t →
      Step address sessionId c (some (.toHome data.length input.acked input.arrived old))
        { c with
          home := Function.update c.home i (some t.silent)
          homeHistory := c.homeHistory.feeds data input.arrived }
  | toVps {c i s data input old t} : c.home i = some s → data ∈ c.homeHistory.output →
      Network.Reliable s c.homeHistory.output c.vpsHistory data data.length input.arrived →
      Vps.inputToKcp (c.peer sessionId (address i)) data.length input old = some t →
      Step address sessionId c (some (.toVps data.length input.acked input.arrived old))
        { c with vps := some t.silent, vpsHistory := c.vpsHistory.feeds data input.arrived }

end Connection

/-! ### Tunnels that differ in what their sessions have asked for -/

namespace Tunnel

def silent (t : Tunnel) : Tunnel := { t with home := t.home.silent, vps := t.vps.silent }

structure Alike (t u : Tunnel) : Prop where
  home : t.home.silent = u.home.silent
  vps : t.vps.silent = u.vps.silent
  toVps : t.toVps = u.toVps
  toHome : t.toHome = u.toHome
  homeRead : t.homeRead = u.homeRead
  vpsRead : t.vpsRead = u.vpsRead

theorem silent_eq_iff {t u : Tunnel} : t.silent = u.silent ↔ Alike t u := by
  constructor
  · intro same
    exact ⟨congrArg Tunnel.home same, congrArg Tunnel.vps same, (congrArg Tunnel.toVps same :),
      (congrArg Tunnel.toHome same :), (congrArg Tunnel.homeRead same :),
      (congrArg Tunnel.vpsRead same :)⟩
  · rintro ⟨home, vps, toVps, toHome, homeRead, vpsRead⟩
    simp only [silent, home, vps, toVps, toHome, homeRead, vpsRead]

/-- Tunnels that are alike do the same. -/
theorem follows {t u t' : Tunnel} {e : Event} (alike : t.silent = u.silent)
    (step : ClosingStep t e t') : ∃ u', ClosingStep u e u' ∧ t'.silent = u'.silent := by
  obtain ⟨home, vps, toVps, toHome, homeRead, vpsRead⟩ := silent_eq_iff.mp alike
  have homeSent : t.home.kcp.sent = u.home.kcp.sent := congrArg (fun s => s.kcp.sent) home
  have vpsSent : t.vps.kcp.sent = u.vps.kcp.sent := congrArg (fun s => s.kcp.sent) vps
  obtain ⟨possible, handled⟩ := step
  cases e with
  | home e =>
      obtain ⟨s, run, rfl⟩ := Option.map_eq_some_iff.mp handled
      obtain ⟨s', run', same⟩ := (Home.blind_handle e).follows home run
      refine ⟨_, ⟨⟨possible.1, (Session.silent_enabled home e).mp possible.2⟩,
        Option.map_eq_some_iff.mpr ⟨s', run', rfl⟩⟩, ?_⟩
      exact silent_eq_iff.mpr ⟨same, vps, toVps, toHome, congrArg (· ++ _) homeRead, vpsRead⟩
  | vps e =>
      obtain ⟨s, run, rfl⟩ := Option.map_eq_some_iff.mp handled
      obtain ⟨s', run', same⟩ := (Vps.blind_handle e).follows vps run
      have inner : t.vps.toSession.silent = u.vps.toSession.silent :=
        congrArg Vps.Session.toSession vps
      refine ⟨_, ⟨⟨possible.1, (Session.silent_enabled inner e).mp possible.2⟩,
        Option.map_eq_some_iff.mpr ⟨s', run', rfl⟩⟩, ?_⟩
      exact silent_eq_iff.mpr ⟨home, same, toVps, toHome, homeRead, congrArg (· ++ _) vpsRead⟩
  | toVps len acked arrived old =>
      obtain ⟨s, run, rfl⟩ := Option.map_eq_some_iff.mp handled
      obtain ⟨s', run', same⟩ := (Vps.blind_inputToKcp len ⟨acked, arrived⟩ old).follows vps run
      have deliverable : Deliverable u.home.kcp.sent u.toVps len arrived := by
        rw [← homeSent, ← toVps]
        exact possible
      refine ⟨_, ⟨deliverable, Option.map_eq_some_iff.mpr ⟨s', run', rfl⟩⟩, ?_⟩
      exact silent_eq_iff.mpr ⟨home, same, congrArg (· ++ _) toVps, toHome, homeRead, vpsRead⟩
  | toHome len acked arrived old =>
      obtain ⟨s, run, rfl⟩ := Option.map_eq_some_iff.mp handled
      obtain ⟨s', run', same⟩ := (Home.blind_inputToKcp len ⟨acked, arrived⟩ old).follows home run
      have deliverable : Deliverable u.vps.kcp.sent u.toHome len arrived := by
        rw [← vpsSent, ← toHome]
        exact possible
      refine ⟨_, ⟨deliverable, Option.map_eq_some_iff.mpr ⟨s', run', rfl⟩⟩, ?_⟩
      exact silent_eq_iff.mpr ⟨same, vps, toVps, congrArg (· ++ _) toHome, homeRead, vpsRead⟩

end Tunnel
end TransparentProxyNet
