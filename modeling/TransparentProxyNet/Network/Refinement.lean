import TransparentProxyNet.Network.Provenance
import TransparentProxyNet.Network.Simulation
import TransparentProxyNet.Worker.Progress

/-! The network is one connection for each id, and a step of the network is a step of one of
them, or of none. -/
namespace TransparentProxyNet
open Buffer Machine FastAesGcm

namespace Worker
variable {S α : Type} {A : AesGcm} {key : Bytes 32} {iv : Bytes 12} {sessionId : SessionId}
  {buf : List UInt8}

/-- The handler finds in its buffer what was framed. -/
theorem segment_frame {v : Worker S α} {rest : List UInt8}
    (shape : v.udpReceiveBuffer.toList = sealFrame A key iv (sessionId.toList ++ buf) ++ rest)
    (short : buf.length ≤ 1250) :
    ∃ out, v.segment A (buf.length + 84) .success = some (out, ⟨sessionId, buf.length, buf⟩) := by
  -- A delivery that goes on only with this segment does go on.
  let only : Worker S α → SessionId → Int → List UInt8 → Option (Worker S α) :=
    fun w id len data => if id = sessionId ∧ len = buf.length ∧ data = buf then some w else none
  obtain ⟨out, decoded⟩ := decode_frame A shape (by omega) only
  rw [decode_eq] at decoded
  have goes : only (v.setBuffer out) sessionId buf.length buf = some (v.setBuffer out) :=
    if_pos ⟨rfl, rfl, rfl⟩
  rw [goes, Option.map_some] at decoded
  obtain ⟨⟨out', id, len, data⟩, found, went⟩ := Option.bind_eq_some_iff.mp decoded
  obtain ⟨u, passed, -⟩ := Option.map_eq_some_iff.mp went
  obtain ⟨rfl, rfl, rfl⟩ : id = sessionId ∧ len = buf.length ∧ data = buf := by
    by_contra other
    cases (if_neg other).symm.trans passed
  exact ⟨out', found⟩

/-- A receive handler that a frame has come to. -/
theorem arrived_segment {w v : Worker S α} {pair : Packet}
    (frame : datagram pair = sealFrame A key iv (sessionId.toList ++ buf))
    (short : buf.length ≤ 1250) (arrived : w.arrive (datagram pair) = some v) :
    ((datagram pair).take bufferSize).length = buf.length + 84 ∧
      ∃ out, v.segment A (buf.length + 84) .success =
        some (out, ⟨sessionId, buf.length, buf⟩) := by
  have size : (datagram pair).length = buf.length + 84 := by rw [frame, sealFrame_size]
  have fits : (datagram pair).length ≤ bufferSize := by
    rw [size]
    simp only [bufferSize]
    omega
  refine ⟨by rw [List.take_of_length_le fits, size], ?_⟩
  obtain ⟨v', arrived', shape⟩ := w.arrive_eq fits
  cases arrived'.symm.trans arrived
  rw [frame] at shape
  exact segment_frame shape short

variable [Served S] {addressed : S → Packet → α} {w v w' : Worker S α} {h h' : Histories}

theorem Authentic.mono (auth : Authentic A addressed w h)
    (grows : ∀ id, (h id).output ⊆ (h' id).output) : Authentic A addressed w h' :=
  auth.next auth.holds auth.posted (fun _ s found => ⟨s, found, rfl⟩) grows fun _ => .inl

theorem Replaced.trans {u : Worker S α} {s t : S} (first : Replaced w v sessionId s)
    (second : Replaced v u sessionId t) : Replaced w u sessionId t := by
  refine ⟨?_, second.posted, second.queue.trans first.queue⟩
  rw [second.lookup, first.lookup, Function.update_idem]

/-- The workers before and after may differ in their buffers and their receives. -/
theorem Replaced.around {u u' : Worker S α} {t : S} (replaced : Replaced v u sessionId t)
    (map : v.sessionMap = w.sessionMap) (sessions : v.sessions = w.sessions)
    (queue : v.udpSocketWaitForSendDeque = w.udpSocketWaitForSendDeque)
    (map' : u'.sessionMap = u.sessionMap) (sessions' : u'.sessions = u.sessions)
    (queue' : u'.udpSocketWaitForSendDeque = u.udpSocketWaitForSendDeque) :
    Replaced w u' sessionId t := by
  refine ⟨?_, ?_, queue'.trans (replaced.queue.trans queue)⟩
  · rw [lookup_congr sessions' map', replaced.lookup, lookup_congr sessions map]
  · rw [map', sessions']
    exact replaced.posted

/-- A handler that a datagram has come to, and that acts on the session of the map. -/
theorem Authentic.received (auth : Authentic A addressed w h) {datagram : List UInt8}
    (arrived : w.arrive datagram = some v) {n : Nat} {calls : ReceiveCalls}
    {deliver : Worker S α → SessionId → Int → List UInt8 → Option (Worker S α)}
    {out : Bytes bufferSize} {len : Int} {data : List UInt8}
    (segment : v.segment A n calls.decrypt = some (out, ⟨sessionId, len, data⟩))
    (handled : v.decode A deliver n calls.decrypt = some w') {P : S → Prop}
    (acts : ∀ x u, Authentic A addressed x h → x.lookup = w.lookup → x.sessions = w.sessions →
      deliver x sessionId len data = some u → ∃ t, P t ∧ Replaced x u sessionId t) :
    ∃ t, P t ∧ Replaced w w' sessionId t := by
  have holds := (auth.holds.arrive arrived).setBuffer out
  have same : v.sessionMap = w.sessionMap ∧ v.sessions = w.sessions ∧
      v.udpSocketWaitForSendDeque = w.udpSocketWaitForSendDeque := by
    obtain ⟨b, -, rfl⟩ := Option.map_eq_some_iff.mp arrived
    exact ⟨rfl, rfl, rfl⟩
  obtain ⟨map, sessions, queue⟩ := same
  rw [decode_eq, segment, Option.bind_some] at handled
  obtain ⟨u, delivered, rfl⟩ := Option.map_eq_some_iff.mp handled
  have receiving : Authentic A addressed (v.setBuffer out) h :=
    auth.of_same holds sessions map fun x member => queue ▸ member
  obtain ⟨t, done, replaced⟩ := acts _ u receiving (lookup_congr sessions map) sessions delivered
  exact ⟨t, done, replaced.around map sessions queue rfl rfl rfl⟩

end Worker

namespace Home
open TransparentProxyNet.Worker (Authentic Replaced answered)

variable {A : AesGcm} {w v w' : Worker} {h : Histories} {sessionId : SessionId}

/-- The handler feeds the segment to the session with the id of the frame. -/
theorem received (auth : Authentic A (fun _ pair => pair) w h) {datagram : List UInt8}
    (arrived : w.arrive datagram = some v) {n : Nat} {calls : Worker.ReceiveCalls}
    {out : Bytes bufferSize} {len : Int} {data : List UInt8}
    (segment : v.segment A n calls.decrypt = some (out, ⟨sessionId, len, data⟩))
    (handled : receiveHandler A v false n calls = some w') {s : Session}
    (found : w.lookup sessionId = some s) :
    ∃ t, inputToKcp s len (calls.ikcp data) calls.old = some t ∧
      Replaced w w' sessionId (answered t) := by
  rw [receiveHandler, if_neg Bool.false_ne_true] at handled
  obtain ⟨-, ⟨t, fed, rfl⟩, replaced⟩ : ∃ u, (∃ t, inputToKcp s len (calls.ikcp data) calls.old =
      some t ∧ answered t = u) ∧ Replaced w w' sessionId u := by
    apply auth.received arrived segment handled
    intro x u auth same _ delivered
    rw [← same] at found
    obtain ⟨this, entry, here⟩ := Option.bind_eq_some_iff.mp found
    obtain rfl : s.sessionId = sessionId := auth.holds.lookup_id found
    simp only [deliver, entry] at delivered
    obtain ⟨t, fed, replaced⟩ := auth.run delivered here fun t fed =>
      (handled_inputToKcp fed).sessionId
    exact ⟨_, ⟨t, fed, rfl⟩, replaced⟩
  exact ⟨t, fed, replaced⟩

end Home

namespace Vps
open TransparentProxyNet.Worker (Authentic Replaced answered)

variable {A : AesGcm} {w v w' : Worker} {h : Histories} {sessionId : SessionId}

/-- So does that of the VPS, which makes the session if there is none. -/
theorem received (auth : Authentic A (fun s pair => (s.homeClienEndpoint, pair)) w h)
    {datagram : List UInt8} (arrived : w.arrive datagram = some v) {n : Nat} (full : n ≠ 0)
    {calls : Worker.ReceiveCalls} {new : NewSession} (unused : w.sessions new.this = none)
    {out : Bytes bufferSize} {len : Int} {data : List UInt8}
    (segment : v.segment A n calls.decrypt = some (out, ⟨sessionId, len, data⟩))
    (handled : receiveHandler A v false n calls new = some w') :
    ∃ t, inputToKcp ((w.lookup sessionId).getD (.create sessionId new.homeClienEndpoint)) len
      (calls.ikcp data) calls.old = some t ∧ Replaced w w' sessionId (answered t) := by
  rw [receiveHandler, if_neg Bool.false_ne_true, if_neg full] at handled
  obtain ⟨-, ⟨t, fed, rfl⟩, replaced⟩ : ∃ u, (∃ t, inputToKcp ((w.lookup sessionId).getD
      (.create sessionId new.homeClienEndpoint)) len (calls.ikcp data) calls.old = some t ∧
        answered t = u) ∧ Replaced w w' sessionId u := by
    apply auth.received arrived segment handled
    intro x u auth same sessions delivered
    rw [← sessions] at unused
    rw [← same]
    cases found : x.lookup sessionId with
    | some s =>
        obtain ⟨this, entry, here⟩ := Option.bind_eq_some_iff.mp found
        obtain rfl : s.sessionId = sessionId := auth.holds.lookup_id found
        simp only [deliver, entry] at delivered
        obtain ⟨t, fed, replaced⟩ := auth.run delivered here fun t fed =>
          (handled_inputToKcp fed).sessionId
        exact ⟨_, ⟨t, fed, rfl⟩, replaced⟩
    | none =>
        have unknown : x.sessionMap sessionId = none := by
          have entered := auth.holds.lookup_isSome sessionId
          rw [found] at entered
          exact Option.not_isSome_iff_eq_none.mp (by rw [← entered]; exact Bool.false_ne_true)
        obtain ⟨y, started, holds, placed, stored⟩ := registerSession_eq auth.holds unused unknown
        simp only [deliver, unknown, started, Option.bind_eq_bind, Option.bind_some] at delivered
        have queue := registerSession_queue started
        have added := auth.added unused unknown placed stored rfl queue
        have auth' : Authentic A (fun s pair => (s.homeClienEndpoint, pair)) y h :=
          auth.replaced holds added (fun s before => by cases found.symm.trans before) fun _ =>
            List.Subset.refl _
        have here : y.sessions new.this = some (registered new sessionId) := by
          rw [placed, Function.update_self]
        obtain ⟨t, fed, replaced⟩ := auth'.run delivered here fun t fed =>
          (handled_inputToKcp fed).sessionId
        exact ⟨_, ⟨t, fed, rfl⟩, added.trans replaced⟩
  exact ⟨t, fed, replaced⟩

end Vps

namespace Network
open TransparentProxyNet.Worker (Authentic Replaced)

variable {ι : Type} {A : AesGcm} {other : Int → Fin 4} {address : ι → Endpoint}

/-- All that the network knows of an id. -/
def connection (n : Network ι) (sessionId : SessionId) : Connection ι where
  home i := (n.home i).lookup sessionId
  vps := n.vps.lookup sessionId
  homeHistory := n.homeHistory sessionId
  vpsHistory := n.vpsHistory sessionId

/-- The datagrams of every worker are its own, and every id has had the run of a
connection. -/
structure Coherent [DecidableEq ι] (A : AesGcm) (address : ι → Endpoint) (n : Network ι) :
    Prop where
  home : ∀ i, Authentic A (fun _ pair => pair) (n.home i) n.homeHistory
  vps : Authentic A (fun s pair => (s.homeClienEndpoint, pair)) n.vps n.vpsHistory
  connections : ∀ sessionId,
    Reachable (Connection.Step address sessionId) (· = .new) (n.connection sessionId)

variable [DecidableEq ι]

theorem connection_home (n : Network ι) (i : ι) (w : Home.Worker) (h : Histories)
    (sessionId : SessionId) :
    connection { n with home := Function.update n.home i w, homeHistory := h } sessionId =
      { n.connection sessionId with
        home := Function.update (n.connection sessionId).home i (w.lookup sessionId)
        homeHistory := h sessionId } := by
  have home : (fun j => (Function.update n.home i w j).lookup sessionId) =
      Function.update (fun j => (n.home j).lookup sessionId) i (w.lookup sessionId) := by
    funext j
    exact Function.apply_update (fun _ w => Worker.lookup w sessionId) n.home i w j
  simp only [connection, home]

/-- An id that a step of a home worker does not concern. -/
theorem connection_same {n : Network ι} {i : ι} {w : Home.Worker} {h : Histories}
    {sessionId : SessionId} (lookup : w.lookup sessionId = (n.home i).lookup sessionId)
    (history : h sessionId = n.homeHistory sessionId) :
    connection { n with home := Function.update n.home i w, homeHistory := h } sessionId =
      n.connection sessionId := by
  rw [connection_home, lookup, history]
  simp only [connection, Function.update_eq_self_iff.mpr]

theorem start_coherent {n : Network ι} (start : Start n) : Coherent A address n := by
  obtain ⟨home, vps, homeEmpty, vpsEmpty⟩ := start
  refine ⟨fun i => Worker.started_authentic (home i), Worker.started_authentic vps, ?_⟩
  intro sessionId
  apply Reachable.init
  have none : ∀ {S α : Type} {w : TransparentProxyNet.Worker S α}, w.Started →
      w.lookup sessionId = none := by
    rintro S α w ⟨wheel, buf, -, rfl⟩
    rfl
  simp only [connection, Connection.new, homeEmpty, vpsEmpty, none vps, none (home _)]

namespace Coherent
variable {n n' : Network ι} {sessionId : SessionId}

theorem orderly (h : Coherent A address n) (sessionId : SessionId) :
    (n.connection sessionId).Orderly address := by
  obtain ⟨c, es, rfl, run⟩ := h.connections sessionId
  exact (Connection.behaves run).orderly

/-- One id at most moves on. -/
theorem moves (h : Coherent A address n) (sessionId : SessionId) {e : Option Tunnel.Event}
    (one : Connection.Step address sessionId (n.connection sessionId) e (n'.connection sessionId))
    (rest : ∀ id, id ≠ sessionId → n'.connection id = n.connection id) (id : SessionId) :
    Reachable (Connection.Step address id) (· = .new) (n'.connection id) := by
  by_cases same : id = sessionId
  · subst same
    exact (h.connections id).trace (.single one)
  · rw [rest id same]
    exact h.connections id

theorem home_update (h : Coherent A address n) {i : ι} {w : Home.Worker} {history : Histories}
    (auth : Authentic A (fun _ pair => pair) w history)
    (grows : ∀ id, (n.homeHistory id).output ⊆ (history id).output) (j : ι) :
    Authentic A (fun _ pair => pair) (Function.update n.home i w j) history := by
  by_cases same : j = i
  · subst same
    rw [Function.update_self]
    exact auth
  · rw [Function.update_of_ne same]
    exact (h.home j).mono grows

theorem ownHome (h : Coherent A address n) {i : ι} {w : Home.Worker} {history : Histories}
    (auth : Authentic A (fun _ pair => pair) w history)
    (effect : Worker.Effect Home.handle (n.home i) n.homeHistory w history) :
    Coherent A address { n with home := Function.update n.home i w, homeHistory := history } := by
  refine ⟨h.home_update auth effect.grows, h.vps, ?_⟩
  cases effect with
  | @handler id s e t found socket enabled handled replaced eq =>
      subst eq
      refine h.moves id (e := some (.home e)) ?_ ?_
      · rw [connection_home, replaced.self, Histories.note_self]
        exact .home found socket enabled handled
      · intro id' apart
        exact connection_same (replaced.apart apart) (Histories.note_other apart ..)
  | @output id s buf found lookup eq =>
      subst eq
      refine h.moves id (e := none) ?_ ?_
      · rw [connection_home, lookup, Histories.note_self]
        have kept : Function.update (n.connection id).home i ((n.home i).lookup id) =
            (n.connection id).home := Function.update_eq_self ..
        rw [kept]
        exact .homeOutput found
      · intro id' apart
        exact connection_same (by rw [lookup]) (Histories.note_other apart ..)
  | none lookup eq =>
      subst eq
      intro id
      rw [connection_same (by rw [lookup]) rfl]
      exact h.connections id

theorem ownVps (h : Coherent A address n) {w : Vps.Worker} {history : Histories}
    (auth : Authentic A (fun s pair => (s.homeClienEndpoint, pair)) w history)
    (effect : Worker.Effect Vps.handle n.vps n.vpsHistory w history) :
    Coherent A address { n with vps := w, vpsHistory := history } := by
  refine ⟨h.home, auth, ?_⟩
  cases effect with
  | @handler id s e t found socket enabled handled replaced eq =>
      subst eq
      refine h.moves id (e := some (.vps e)) ?_ ?_
      · simp only [connection, replaced.self, Histories.note_self]
        exact .vps found socket enabled handled
      · intro id' apart
        simp only [connection, replaced.apart apart, Histories.note_other apart]
  | @output id s buf found lookup eq =>
      subst eq
      refine h.moves id (e := none) ?_ ?_
      · simp only [connection, lookup, Histories.note_self]
        exact .vpsOutput found
      · intro id' apart
        simp only [connection, lookup, Histories.note_other apart]
  | none lookup eq =>
      subst eq
      intro id
      have same : connection { n with vps := w } id = n.connection id := by
        simp only [connection, lookup]
      exact same ▸ h.connections id

/-- A step of a home worker that no session notices. -/
theorem home_same (h : Coherent A address n) {i : ι} {w : Home.Worker}
    (auth : Authentic A (fun _ pair => pair) w n.homeHistory)
    (lookup : w.lookup = (n.home i).lookup) :
    Coherent A address { n with home := Function.update n.home i w } :=
  h.ownHome auth (.none lookup rfl)

theorem registered (h : Coherent A address n) {i : ι} {this : Nat} {randomId : SessionId}
    {w : Home.Worker} (nobody : ∀ j, (n.home j).sessionMap randomId = none)
    (step : Home.Step A other (n.home i) (.registerSession this randomId) w) :
    Coherent A address { n with home := Function.update n.home i w } := by
  have holds := Home.step_holds (h.home i).holds step
  have unknown : ∀ j, (n.home j).lookup randomId = none := fun j => by
    rw [Worker.lookup, nobody j, Option.bind_none]
  cases step with
  | common step => cases step
  | @registerSession _ _ sessionId nextTime endpoint _ unused new ran =>
      obtain ⟨v, same, -, sessions, map⟩ :=
        Home.registerSession_eq (h.home i).holds unused new sessionId nextTime endpoint
      cases same.symm.trans ran
      have queue := Home.registerSession_queue ran
      have replaced := (h.home i).added unused new sessions map rfl queue
      have auth : Authentic A (fun _ pair => pair) w n.homeHistory :=
        (h.home i).replaced holds replaced (fun _ _ => rfl) fun _ => List.Subset.refl _
      refine ⟨h.home_update auth fun _ => List.Subset.refl _, h.vps, ?_⟩
      refine h.moves randomId (e := none) ?_ ?_
      · have moved := connection_home n i w n.homeHistory randomId
        rw [replaced.self] at moved
        rw [moved]
        exact .registerSession unknown
      · intro id apart
        exact connection_same (replaced.apart apart) rfl

/-- What has been sent to a home worker belongs to one of its own sessions. -/
theorem sent_home (h : Coherent A address n) (injective : Function.Injective address) {i : ι}
    {pair : Packet} (sent : (address i, pair) ∈ n.vps.udpSocketWaitForSendDeque.started) :
    ∃ id s v, (n.home i).lookup id = some s ∧ n.vps.lookup id = some v ∧
      Worker.Framed A (n.vpsHistory id).output id pair := by
  obtain ⟨id, v, pair', found, eq, framed⟩ := h.vps.framed _ (List.mem_append_right _ sent)
  obtain ⟨own, rfl⟩ := Prod.mk.inj eq
  obtain ⟨j, here, own'⟩ := (h.orderly id).opened v found
  obtain rfl : j = i := injective (own'.symm.trans own)
  obtain ⟨s, found'⟩ := Option.isSome_iff_exists.mp here
  exact ⟨id, s, v, found', found, framed⟩

/-- What a home worker finds in its buffer was output for one of its own sessions. -/
theorem home_segment (h : Coherent A address n) (injective : Function.Injective address) {i : ι}
    {pair : Packet} {v : Home.Worker} {buf : Bytes bufferSize} {segment : Worker.Segment}
    {calls : Worker.ReceiveCalls}
    (sent : (address i, pair) ∈ n.vps.udpSocketWaitForSendDeque.started)
    (arrived : (n.home i).arrive (datagram pair) = some v) (success : calls.decrypt = .success)
    (found : v.segment A ((datagram pair).take bufferSize).length calls.decrypt =
      some (buf, segment)) :
    ∃ s u, (n.home i).lookup segment.sessionId = some s ∧
      n.vps.lookup segment.sessionId = some u ∧
      segment.data ∈ (n.vpsHistory segment.sessionId).output ∧
      segment.len = segment.data.length := by
  obtain ⟨id, s, u, here, there, key, iv, data, frame, output, short⟩ := h.sent_home injective sent
  obtain ⟨length, out, decoded⟩ := Worker.arrived_segment frame short arrived
  rw [success, length, decoded] at found
  cases found
  exact ⟨s, u, here, there, output, rfl⟩

/-- What the VPS worker finds in its buffer was output for a session of the sender. -/
theorem vps_segment (h : Coherent A address n) {i : ι} {pair : Packet} {v : Vps.Worker}
    {buf : Bytes bufferSize} {segment : Worker.Segment} {calls : Worker.ReceiveCalls}
    (sent : pair ∈ (n.home i).udpSocketWaitForSendDeque.started)
    (arrived : n.vps.arrive (datagram pair) = some v) (success : calls.decrypt = .success)
    (found : v.segment A ((datagram pair).take bufferSize).length calls.decrypt =
      some (buf, segment)) :
    ∃ s, (n.home i).lookup segment.sessionId = some s ∧
      segment.data ∈ (n.homeHistory segment.sessionId).output ∧
      segment.len = segment.data.length ∧ ((datagram pair).take bufferSize).length ≠ 0 := by
  obtain ⟨id, s, pair', here, rfl, key, iv, data, frame, output, short⟩ :=
    (h.home i).framed _ (List.mem_append_right _ sent)
  obtain ⟨length, out, decoded⟩ := Worker.arrived_segment frame short arrived
  rw [success, length, decoded] at found
  cases found
  exact ⟨s, here, output, rfl, by omega⟩

theorem homeReceived (h : Coherent A address n) (injective : Function.Injective address)
    {i : ι} {pair : Packet} {v w : Home.Worker} {buf : Bytes bufferSize} {segment : Worker.Segment}
    {calls : Worker.ReceiveCalls}
    (sent : (address i, pair) ∈ n.vps.udpSocketWaitForSendDeque.started)
    (waiting : 0 < (n.home i).receives) (arrived : (n.home i).arrive (datagram pair) = some v)
    (success : calls.decrypt = .success)
    (found : v.segment A ((datagram pair).take bufferSize).length calls.decrypt =
      some (buf, segment))
    (reliable : ∀ s, n.vps.lookup segment.sessionId = some s →
      Reliable s.toSession (n.vpsHistory segment.sessionId).output
        (n.homeHistory segment.sessionId) segment.data segment.len
        (calls.ikcp segment.data).arrived)
    (handled : Home.receiveHandler A v false ((datagram pair).take bufferSize).length calls =
      some w) :
    Coherent A address { n with
      home := Function.update n.home i w
      homeHistory := n.homeHistory.note segment.sessionId
        (·.feeds segment.data (calls.ikcp segment.data).arrived) } := by
  have received : Home.Step A (fun _ => 0) (n.home i) (.receive false (datagram pair)) w :=
    .receive waiting arrived handled
  have holds := Home.step_holds (h.home i).holds received
  obtain ⟨s, u, here, there, output, length⟩ :=
    h.home_segment injective sent arrived success found
  obtain ⟨id, len, data⟩ := segment
  dsimp only at here there output length reliable ⊢
  subst length
  obtain ⟨t, fed, replaced⟩ := Home.received (h.home i) arrived found handled here
  have grows := Worker.feeds_subset n.homeHistory id data (calls.ikcp data).arrived
  have auth := (h.home i).replaced holds replaced (fun _ _ => rfl) grows
  refine ⟨h.home_update auth grows, h.vps, ?_⟩
  refine h.moves id (e := some (.toHome data.length (calls.ikcp data).acked
    (calls.ikcp data).arrived calls.old)) ?_ ?_
  · rw [connection_home, replaced.self, Histories.note_self]
    exact .toHome here there output (reliable u there) fed
  · intro id' apart
    exact connection_same (replaced.apart apart) (Histories.note_other apart ..)

theorem vpsReceived (h : Coherent A address n) {i : ι} {pair : Packet} {v w : Vps.Worker}
    {buf : Bytes bufferSize} {segment : Worker.Segment} {calls : Worker.ReceiveCalls}
    {new : Vps.NewSession} (sent : pair ∈ (n.home i).udpSocketWaitForSendDeque.started)
    (source : new.homeClienEndpoint = address i) (waiting : 0 < n.vps.receives)
    (arrived : n.vps.arrive (datagram pair) = some v) (unused : n.vps.sessions new.this = none)
    (success : calls.decrypt = .success)
    (found : v.segment A ((datagram pair).take bufferSize).length calls.decrypt =
      some (buf, segment))
    (reliable : ∀ j s, (n.home j).lookup segment.sessionId = some s →
      Reliable s (n.homeHistory segment.sessionId).output (n.vpsHistory segment.sessionId)
        segment.data segment.len (calls.ikcp segment.data).arrived)
    (handled : Vps.receiveHandler A v false ((datagram pair).take bufferSize).length calls new =
      some w) :
    Coherent A address { n with
      vps := w
      vpsHistory := n.vpsHistory.note segment.sessionId
        (·.feeds segment.data (calls.ikcp segment.data).arrived) } := by
  have received : Vps.Step A (fun _ => 0) n.vps (.receive false (datagram pair)) w :=
    .receive waiting arrived unused handled
  have holds := Vps.step_holds h.vps.holds received
  obtain ⟨s, here, output, length, full⟩ := h.vps_segment sent arrived success found
  obtain ⟨id, len, data⟩ := segment
  dsimp only at here output length reliable ⊢
  subst length
  obtain ⟨t, fed, replaced⟩ := Vps.received h.vps arrived full unused found handled
  rw [source] at fed
  have grows := Worker.feeds_subset n.vpsHistory id data (calls.ikcp data).arrived
  have auth := h.vps.replaced holds replaced (fun u found => by
    have kept := Vps.inputToKcp_endpoint fed
    rw [found] at kept
    funext pair
    exact congrArg (·, pair) kept) grows
  refine ⟨h.home, auth, ?_⟩
  refine h.moves id (e := some (.toVps data.length (calls.ikcp data).acked
    (calls.ikcp data).arrived calls.old)) ?_ ?_
  · simp only [connection, replaced.self, Histories.note_self]
    exact .toVps here output (reliable i s here) fed
  · intro id' apart
    simp only [connection, replaced.apart apart, Histories.note_other apart]

theorem step (h : Coherent A address n) (injective : Function.Injective address) {e : Event ι}
    (step : Step A other address n e n') : Coherent A address n' := by
  cases step with
  | @home i e w history own =>
      obtain ⟨auth, effect⟩ := (h.home i).own
        (fun _ _ _ enabled run => Home.handled_step ⟨enabled, run⟩) (fun _ _ _ _ => rfl) own
      exact h.ownHome auth effect
  | @vps e w history own =>
      obtain ⟨auth, effect⟩ := h.vps.own
        (fun _ _ _ enabled run => Vps.handled_step ⟨enabled, run⟩)
        (fun s _ t run => by
          have kept := Vps.handle_endpoint run
          funext pair
          exact congrArg (·, pair) kept) own
      exact h.ownVps auth effect
  | registerSession nobody step => exact h.registered nobody step
  | @homeError i w step =>
      have holds := Home.step_holds (h.home i).holds step
      cases step with
      | common step => cases step
      | receiveError waiting handled =>
          cases handled
          exact h.home_same ((h.home i).of_same holds rfl rfl fun _ => id) rfl
  | @vpsError w step =>
      have holds := Vps.step_holds h.vps.holds step
      cases step with
      | common step => cases step
      | receiveError waiting handled =>
          cases handled
          exact h.ownVps (h.vps.of_same holds rfl rfl fun _ => id) (.none rfl rfl)
  | homeReceive sent waiting arrived success found reliable handled =>
      exact h.homeReceived injective sent waiting arrived success found reliable handled
  | vpsReceive sent source waiting arrived unused success found reliable handled =>
      exact h.vpsReceived sent source waiting arrived unused success found reliable handled

end Coherent

theorem reachable_coherent (injective : Function.Injective address) {n : Network ι}
    (reachable : Reachable (Step A other address) Start n) : Coherent A address n :=
  reachable.invariant (I := Coherent A address) (fun _ => start_coherent) fun _ _ _ h step =>
    h.step injective step

end Network
end TransparentProxyNet
