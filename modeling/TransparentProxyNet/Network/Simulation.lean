import TransparentProxyNet.Network.Connection
import Mathlib.Data.List.ReduceOption

/-! A connection is a tunnel: what KCP is fed with was output by its peer, and so KCP keeps
its promise. -/
namespace TransparentProxyNet
open Machine

namespace Vps
variable {s t : Session}

/-! A session keeps the address that its first datagram came from. -/

theorem switchStatus_endpoint {pair : Packet} (switched : switchStatus s pair = some t) :
    t.homeClienEndpoint = s.homeClienEndpoint := by
  unfold switchStatus at switched
  split at switched
  · split at switched <;> cases switched <;> rfl
  · split at switched
    · rw [trySend_eq] at switched
      split at switched
      · obtain ⟨q, -, rfl⟩ := Option.map_eq_some_iff.mp switched
        rfl
      · cases switched
        rfl
    · cases switched
      rfl

theorem inputToKcp_endpoint {len : Int} {input : KcpInput} {old : Nat → List UInt8}
    (handled : inputToKcp s len input old = some t) :
    t.homeClienEndpoint = s.homeClienEndpoint := by
  unfold inputToKcp at handled
  split at handled
  · cases handled
    rfl
  · obtain ⟨u, read, rfl⟩ := Option.map_eq_some_iff.mp handled
    obtain ⟨-, -, endpoint⟩ := TransparentProxyNet.Session.readLoop_drains
      (P := fun _ u => u.homeClienEndpoint = s.homeClienEndpoint)
      (fun message queue u v same pair switched => (switchStatus_endpoint switched).trans same)
      rfl read
    exact endpoint

theorem handle_endpoint {e : TransparentProxyNet.Session.Event} (handled : handle s e = some t) :
    t.homeClienEndpoint = s.homeClienEndpoint := by
  cases e with
  | writeHandler i ec =>
      rw [handle, writeHandler_eq] at handled
      cases ec with
      | true =>
          cases handled
          rfl
      | false =>
          obtain ⟨q, -, rest⟩ := Option.bind_eq_some_iff.mp handled
          obtain ⟨q', -, rfl⟩ := Option.map_eq_some_iff.mp rest
          rfl
  | connectHandler i ec =>
      cases ec with
      | true =>
          cases handled
          rfl
      | false =>
          rw [handle, connectHandler_eq] at handled
          obtain ⟨q, -, rfl⟩ := Option.map_eq_some_iff.mp handled
          rfl
  | inputToKcp len input old => exact inputToKcp_endpoint handled
  | _ =>
      cases handled
      rfl

end Vps

namespace Connection
variable {ι : Type} {address : ι → Endpoint} {sessionId : SessionId}
  {c c' : Connection ι}

/-- One home worker at most has the session, replies go to that worker, and each side is fed
with nothing but what the other one has output. -/
structure Orderly (address : ι → Endpoint) (c : Connection ι) : Prop where
  owner : ∀ i j, (c.home i).isSome → (c.home j).isSome → i = j
  opened : ∀ v, c.vps = some v → ∃ i, (c.home i).isSome ∧ v.homeClienEndpoint = address i
  toVps : ∀ data ∈ c.vpsHistory.input, data ∈ c.homeHistory.output
  toHome : ∀ data ∈ c.homeHistory.input, data ∈ c.vpsHistory.output
  unused : (∀ i, c.home i = none) → c.homeHistory = .empty ∧ c.vpsHistory = .empty

theorem new_orderly : Orderly address (new : Connection ι) := by
  refine ⟨?_, ?_, ?_, ?_, fun _ => ⟨rfl, rfl⟩⟩
  · intro i j here
    cases here
  · intro v found
    cases found
  · intro data member
    cases member
  · intro data member
    cases member

/-- Home sessions come, but do not go or move. -/
theorem isSome_update [DecidableEq ι] {i : ι} {s t : Home.Session} (found : c.home i = some s)
    (j : ι) :
    (Function.update c.home i (some t) j).isSome = (c.home j).isSome := by
  by_cases same : j = i
  · subst same
    rw [Function.update_self, found]
    rfl
  · rw [Function.update_of_ne same]

/-- The connection goes on with the home sessions it has. -/
theorem Orderly.goesOn (h : Orderly address c) {i : ι} (here : (c.home i).isSome)
    (home : ∀ j, (c'.home j).isSome = (c.home j).isSome)
    (opened : ∀ v, c'.vps = some v →
      (∃ u, c.vps = some u ∧ v.homeClienEndpoint = u.homeClienEndpoint) ∨
        v.homeClienEndpoint = address i)
    (toVps : ∀ data ∈ c'.vpsHistory.input, data ∈ c'.homeHistory.output)
    (toHome : ∀ data ∈ c'.homeHistory.input, data ∈ c'.vpsHistory.output) :
    Orderly address c' := by
  refine ⟨?_, ?_, toVps, toHome, ?_⟩
  · intro j k
    rw [home, home]
    exact h.owner j k
  · intro v found
    rcases opened v found with ⟨u, before, same⟩ | new
    · obtain ⟨j, there, own⟩ := h.opened u before
      exact ⟨j, (home j).trans there, same.trans own⟩
    · exact ⟨i, (home i).trans here, new⟩
  · intro nobody
    have gone := home i
    rw [nobody i, here] at gone
    cases gone

theorem Orderly.vps_isSome (h : Orderly address c) {v : Vps.Session} (found : c.vps = some v) :
    ∃ i, (c.home i).isSome :=
  (h.opened v found).imp fun _ there => there.1

theorem Orderly.step [DecidableEq ι] {e : Option Tunnel.Event} (h : Orderly address c)
    (step : Step address sessionId c e c') : Orderly address c' := by
  cases step with
  | home found socket enabled handled =>
      exact h.goesOn (by rw [found]; rfl) (isSome_update found)
        (fun v before => .inl ⟨v, before, rfl⟩) h.toVps h.toHome
  | vps found socket enabled handled =>
      obtain ⟨i, here⟩ := h.vps_isSome found
      refine h.goesOn here (fun _ => rfl) ?_ h.toVps h.toHome
      intro v now
      cases now
      have kept := Vps.handle_endpoint handled
      exact .inl ⟨_, found, kept⟩
  | homeOutput found =>
      refine h.goesOn (by rw [found]; rfl) (fun _ => rfl) (fun v before => .inl ⟨v, before, rfl⟩) ?_
        h.toHome
      exact fun data member => List.mem_append_left _ (h.toVps data member)
  | vpsOutput found =>
      obtain ⟨i, here⟩ := h.vps_isSome found
      refine h.goesOn here (fun _ => rfl) (fun v before => .inl ⟨v, before, rfl⟩) h.toVps ?_
      exact fun data member => List.mem_append_left _ (h.toHome data member)
  | @registerSession i endpoint nobody =>
      have unopened : c.vps = none := by
        cases opened : c.vps with
        | none => rfl
        | some v =>
            obtain ⟨j, there⟩ := h.vps_isSome opened
            rw [nobody j] at there
            cases there
      refine ⟨?_, ?_, h.toVps, h.toHome, ?_⟩
      · have only : ∀ j, (Function.update c.home i
            (some (Home.registered sessionId endpoint)) j).isSome → j = i := by
          intro j there
          by_contra other
          rw [Function.update_of_ne other, nobody j] at there
          cases there
        exact fun j k there there' => (only j there).trans (only k there').symm
      · intro v found
        cases unopened.symm.trans found
      · intro gone
        cases (Function.update_self i _ c.home).symm.trans (gone i)
  | toHome found opened output reliable handled =>
      refine h.goesOn (by rw [found]; rfl) (isSome_update found)
        (fun v before => .inl ⟨v, before, rfl⟩) h.toVps ?_
      intro data member
      rcases List.mem_append.mp member with before | now
      · exact h.toHome data before
      · cases List.mem_singleton.mp now
        exact output
  | @toVps i s data input old t found output reliable handled =>
      refine h.goesOn (i := i) (by rw [found]; rfl) (fun _ => rfl) ?_ ?_ h.toHome
      · intro v now
        cases now
        have kept := Vps.inputToKcp_endpoint handled
        cases opened : c.vps with
        | none =>
            right
            rw [peer, opened] at kept
            exact kept
        | some u =>
            left
            rw [peer, opened] at kept
            exact ⟨u, rfl, kept⟩
      · intro data member
        rcases List.mem_append.mp member with before | now
        · exact h.toVps data before
        · cases List.mem_singleton.mp now
          exact output

/-- The events so far are a run of a tunnel, and its halves are these sessions. -/
def Simulated (address : ι → Endpoint) (sessionId : SessionId) (es : List (Option Tunnel.Event))
    (c : Connection ι) (i : ι) (s : Home.Session) : Prop :=
  ∃ homeNext vpsNext endpoint t,
    Trace Tunnel.ClosingStep (Tunnel.start sessionId homeNext vpsNext endpoint (address i))
      es.reduceOption t ∧ t.silent = (c.tunnel sessionId (address i) s).silent

section
variable {es : List (Option Tunnel.Event)} {i : ι} {s s' : Home.Session}

theorem Simulated.step (h : Simulated address sessionId es c i s) {e : Tunnel.Event} {t : Tunnel}
    (step : Tunnel.ClosingStep (c.tunnel sessionId (address i) s) e t)
    (same : t.silent = (c'.tunnel sessionId (address i) s').silent) :
    Simulated address sessionId (es ++ [some e]) c' i s' := by
  obtain ⟨homeNext, vpsNext, endpoint, u, run, alike⟩ := h
  obtain ⟨u', next, alike'⟩ := Tunnel.follows alike.symm step
  refine ⟨homeNext, vpsNext, endpoint, u', ?_, alike'.symm.trans same⟩
  rw [List.reduceOption_append]
  exact run.append (.single next)

theorem Simulated.stays (h : Simulated address sessionId es c i s)
    (same : (c.tunnel sessionId (address i) s).silent =
      (c'.tunnel sessionId (address i) s').silent) :
    Simulated address sessionId (es ++ [none]) c' i s' := by
  obtain ⟨homeNext, vpsNext, endpoint, u, run, alike⟩ := h
  refine ⟨homeNext, vpsNext, endpoint, u, ?_, alike.trans same⟩
  rw [List.reduceOption_append]
  exact run.append (.nil u)

end

/-- What holds of a connection and of the events that led to it. -/
structure Behaves (address : ι → Endpoint) (sessionId : SessionId)
    (es : List (Option Tunnel.Event)) (c : Connection ι) : Prop where
  orderly : Orderly address c
  silent : (∀ i, c.home i = none) → es.reduceOption = []
  simulated : ∀ i s, c.home i = some s → Simulated address sessionId es c i s

theorem new_behaves : Behaves address sessionId [] (new : Connection ι) := by
  refine ⟨new_orderly, fun _ => rfl, ?_⟩
  intro i s found
  cases found

theorem Behaves.step [DecidableEq ι] {es : List (Option Tunnel.Event)} {e : Option Tunnel.Event}
    (h : Behaves address sessionId es c) (step : Step address sessionId c e c') :
    Behaves address sessionId (es ++ [e]) c' := by
  have orderly := h.orderly.step step
  have only : ∀ i j s s', c.home i = some s → c'.home j = some s' → (c'.home i).isSome → j = i :=
    fun i j s s' _ found' here => orderly.owner j i (by rw [found']; rfl) here
  cases step with
  | @home i s e t found socket enabled handled =>
      have here : Function.update c.home i (some t.silent) i = some t.silent :=
        Function.update_self ..
      refine ⟨orderly, ?_, ?_⟩
      · intro gone
        cases here.symm.trans (gone i)
      · intro j s' found'
        obtain rfl := only i j s s' found found' (congrArg Option.isSome here)
        cases here.symm.trans found'
        refine (h.simulated j s found).step (t := { c.tunnel sessionId (address j) s with
            home := t, homeRead := c.homeHistory.read ++ e.bytesRead }) ⟨⟨socket, enabled⟩, ?_⟩ rfl
        exact congrArg (Option.map _) handled
  | @vps v e t found socket enabled handled =>
      obtain ⟨i, here⟩ := h.orderly.vps_isSome found
      refine ⟨orderly, ?_, ?_⟩
      · intro gone
        cases here.symm.trans (congrArg Option.isSome (gone i))
      · intro j s' found'
        have peer : c.peer sessionId (address j) = v := by rw [Connection.peer, found]; rfl
        refine (h.simulated j s' found').step (t := { c.tunnel sessionId (address j) s' with
            vps := t, vpsRead := c.vpsHistory.read ++ e.bytesRead }) ⟨⟨socket, ?_⟩, ?_⟩ rfl
        · change (c.peer sessionId (address j)).toSession.Enabled e
          rw [peer]
          exact enabled
        · change (Vps.handle (c.peer sessionId (address j)) e).map _ = _
          rw [peer, handled]
          rfl
  | @homeOutput i s buf found =>
      refine ⟨orderly, ?_, fun j s' found' => (h.simulated j s' found').stays rfl⟩
      intro gone
      cases found.symm.trans (gone i)
  | @vpsOutput v buf found =>
      obtain ⟨i, here⟩ := h.orderly.vps_isSome found
      refine ⟨orderly, ?_, fun j s' found' => (h.simulated j s' found').stays rfl⟩
      intro gone
      cases here.symm.trans (congrArg Option.isSome (gone i))
  | @registerSession i endpoint nobody =>
      have here : Function.update c.home i (some (Home.registered sessionId endpoint)) i =
          some (Home.registered sessionId endpoint) := Function.update_self ..
      obtain ⟨homeEmpty, vpsEmpty⟩ := h.orderly.unused nobody
      refine ⟨orderly, ?_, ?_⟩
      · intro gone
        cases here.symm.trans (gone i)
      · intro j s' found'
        obtain rfl := orderly.owner j i (by rw [found']; rfl) (congrArg Option.isSome here)
        cases here.symm.trans found'
        have unopened : c.vps = none := by
          cases opened : c.vps with
          | none => rfl
          | some v =>
              obtain ⟨k, there⟩ := h.orderly.vps_isSome opened
              rw [nobody k] at there
              cases there
        refine ⟨0, 0, endpoint, Tunnel.start sessionId 0 0 endpoint (address j), ?_, ?_⟩
        · rw [List.reduceOption_append, h.silent nobody]
          exact .nil _
        · rw [Tunnel.silent_eq_iff]
          refine ⟨rfl, ?_, ?_, ?_, ?_, ?_⟩
          · simp only [tunnel, peer, unopened]
            rfl
          all_goals
            simp only [tunnel, homeEmpty, vpsEmpty]
            rfl
  | @toHome i s v data input old t found opened output reliable handled =>
      have here : Function.update c.home i (some t.silent) i = some t.silent :=
        Function.update_self ..
      refine ⟨orderly, ?_, ?_⟩
      · intro gone
        cases here.symm.trans (gone i)
      · intro j s' found'
        obtain rfl := only i j s s' found found' (congrArg Option.isSome here)
        cases here.symm.trans found'
        have peer : c.peer sessionId (address j) = v := by rw [Connection.peer, opened]; rfl
        refine (h.simulated j s found).step (t := { c.tunnel sessionId (address j) s with
            home := t, toHome := c.homeHistory.delivered ++ input.arrived }) ⟨?_, ?_⟩ rfl
        · change Tunnel.Deliverable (c.peer sessionId (address j)).kcp.sent _ _ _
          rw [peer]
          exact reliable orderly.toHome
        · exact congrArg (Option.map _) handled
  | @toVps i s data input old t found output reliable handled =>
      refine ⟨orderly, ?_, ?_⟩
      · intro gone
        cases found.symm.trans (gone i)
      · intro j s' found'
        obtain rfl := only i j s s' found found' (by rw [found]; rfl)
        cases found.symm.trans found'
        refine (h.simulated j s found).step (t := { c.tunnel sessionId (address j) s with
            vps := t, toVps := c.vpsHistory.delivered ++ input.arrived }) ⟨?_, ?_⟩ rfl
        · exact reliable orderly.toVps
        · exact congrArg (Option.map _) handled

theorem behaves [DecidableEq ι] {es : List (Option Tunnel.Event)}
    (run : Trace (Step address sessionId) new es c) : Behaves address sessionId es c := by
  have log := run.log (I := Behaves address sessionId)
    (fun _ _ _ _ h step => h.step step) new_behaves
  rwa [List.nil_append] at log

end Connection
end TransparentProxyNet
