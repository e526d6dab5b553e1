import TransparentProxyNet.Network.Model
import TransparentProxyNet.Worker.Frames

/-! Where the datagrams of a worker come from: each of them is the frame of a segment that
KCP has output for one of its sessions. -/
namespace TransparentProxyNet
open Buffer Machine FastAesGcm

namespace Udp
variable {α : Type} {q q' : Pump.Queue α}

theorem mem_enqueue {pair a : α} (pushed : tryTosendUdpMessageToRemoteServer q pair = some q')
    (member : a ∈ q'.entries) : a ∈ q.entries ∨ a = pair := by
  rw [tryTosend_eq] at pushed
  split at pushed
  · cases pushed
    exact .inl member
  · exact Pump.Queue.mem_submit pushed member

theorem mem_sent {i : Nat} {ec : Bool} (handled : sendHandler q i ec = some q') {a : α}
    (member : a ∈ q'.entries) : a ∈ q.entries := by
  rw [sendHandler_eq] at handled
  obtain ⟨mid, popped, rest⟩ := Option.bind_eq_some_iff.mp handled
  have kept : a ∈ mid.entries := by
    cases ec with
    | true =>
        cases rest
        exact member
    | false =>
        simp only [Bool.false_eq_true, if_false, Pump.Queue.resume] at rest
        split at rest
        · cases rest
          exact member
        · exact Pump.Queue.mem_start rest member
  exact Pump.Queue.mem_popFront popped kept

end Udp

namespace Worker
variable {S α : Type}

theorem lookup_congr {w w' : Worker S α} (sessions : w'.sessions = w.sessions)
    (map : w'.sessionMap = w.sessionMap) : w'.lookup = w.lookup := by
  funext id
  rw [lookup, lookup, sessions, map]

variable [Served S]

/-- The datagram carries a segment out of `output`, under the id. -/
def Framed (A : AesGcm) (output : List (List UInt8)) (sessionId : SessionId) (pair : Packet) :
    Prop :=
  ∃ key iv buf, datagram pair = sealFrame A key iv (sessionId.toList ++ buf) ∧ buf ∈ output ∧
    buf.length ≤ 1250

theorem Framed.mono {A : AesGcm} {output output' : List (List UInt8)} {sessionId : SessionId}
    {pair : Packet} (h : Framed A output sessionId pair) (grows : output ⊆ output') :
    Framed A output' sessionId pair := by
  obtain ⟨key, iv, buf, frame, member, short⟩ := h
  exact ⟨key, iv, buf, frame, grows member, short⟩

/-- Every session is found under its own id, and every datagram that waits or was ever sent
belongs to one of them. -/
structure Authentic (A : AesGcm) (addressed : S → Packet → α) (w : Worker S α) (h : Histories) :
    Prop where
  holds : w.Holds
  posted : ∀ this s, w.sessions this = some s → w.sessionMap (base s).sessionId = some this
  framed : ∀ x ∈ w.udpSocketWaitForSendDeque.entries, ∃ sessionId s pair,
    w.lookup sessionId = some s ∧ addressed s pair = x ∧
      Framed A (h sessionId).output sessionId pair

section
variable {A : AesGcm} {addressed : S → Packet → α} {w w' : Worker S α} {h h' : Histories}
  {this : Nat} {s t : S} {sessionId : SessionId}

theorem Holds.lookup_id (holds : w.Holds) (found : w.lookup sessionId = some s) :
    (base s).sessionId = sessionId := by
  obtain ⟨this, entry, here⟩ := Option.bind_eq_some_iff.mp found
  obtain ⟨u, same, own⟩ := holds.mapped sessionId this entry
  cases here.symm.trans same
  exact own

theorem Holds.lookup_isSome (holds : w.Holds) (sessionId : SessionId) :
    (w.lookup sessionId).isSome = (w.sessionMap sessionId).isSome := by
  cases entry : w.sessionMap sessionId with
  | none => simp [lookup, entry]
  | some this =>
      obtain ⟨u, here, -⟩ := holds.mapped sessionId this entry
      simp [lookup, entry, here]

theorem Authentic.lookup (auth : Authentic A addressed w h) (here : w.sessions this = some s) :
    w.lookup (base s).sessionId = some s := by
  rw [Worker.lookup, auth.posted this s here]
  exact here

/-- What the handlers do for one session, seen through the map. -/
structure Replaced (w w' : Worker S α) (sessionId : SessionId) (t : S) : Prop where
  lookup : w'.lookup = Function.update w.lookup sessionId (some t)
  posted : ∀ this s, w'.sessions this = some s → w'.sessionMap (base s).sessionId = some this
  queue : w'.udpSocketWaitForSendDeque = w.udpSocketWaitForSendDeque

theorem Replaced.self (replaced : Replaced w w' sessionId t) :
    w'.lookup sessionId = some t := by
  rw [replaced.lookup, Function.update_self]

theorem Replaced.apart (replaced : Replaced w w' sessionId t) {id : SessionId}
    (apart : id ≠ sessionId) : w'.lookup id = w.lookup id := by
  rw [replaced.lookup, Function.update_of_ne apart]

/-- A function that runs for a session and keeps its id. -/
theorem Authentic.run (auth : Authentic A addressed w h) {f : S → Option S}
    (ran : w.run this f = some w') (here : w.sessions this = some s)
    (kept : ∀ t, f s = some t → (base t).sessionId = (base s).sessionId) :
    ∃ t, f s = some t ∧ Replaced w w' (base s).sessionId (answered t) := by
  obtain ⟨u, t, timeWheel, here', handled, -, rfl⟩ := run_cases ran
  cases here.symm.trans here'
  have own : (base (answered t)).sessionId = (base s).sessionId := by
    rw [base_answered]
    exact kept t handled
  refine ⟨t, handled, ?_, ?_, rfl⟩
  · funext id
    by_cases same : id = (base s).sessionId
    · subst same
      rw [Function.update_self, Worker.lookup]
      exact (congrArg (Option.bind · _) (auth.posted this s here)).trans settle_self
    · rw [Function.update_of_ne same]
      change (w.sessionMap id).bind _ = (w.sessionMap id).bind _
      cases entry : w.sessionMap id with
      | none => rfl
      | some p =>
          apply settle_other
          rintro rfl
          obtain ⟨v, there, own'⟩ := auth.holds.mapped id p entry
          cases here.symm.trans there
          exact same own'.symm
  · intro p v found
    by_cases same : p = this
    · subst same
      cases settle_self.symm.trans found
      exact (congrArg w.sessionMap own).trans (auth.posted p s here)
    · rw [settle_other same] at found
      exact auth.posted p v found

/-- A session that is new, under an id that is new. -/
theorem Authentic.added (auth : Authentic A addressed w h) (unused : w.sessions this = none)
    (unknown : w.sessionMap sessionId = none)
    (sessions : w'.sessions = Function.update w.sessions this (some t))
    (map : w'.sessionMap = Function.update w.sessionMap sessionId (some this))
    (own : (base t).sessionId = sessionId)
    (queue : w'.udpSocketWaitForSendDeque = w.udpSocketWaitForSendDeque) :
    Replaced w w' sessionId t := by
  refine ⟨?_, ?_, queue⟩
  · funext id
    by_cases same : id = sessionId
    · subst same
      rw [Function.update_self, Worker.lookup, map, Function.update_self, Option.bind_some,
        sessions, Function.update_self]
    · rw [Function.update_of_ne same, Worker.lookup, Worker.lookup, map,
        Function.update_of_ne same]
      cases entry : w.sessionMap id with
      | none => rfl
      | some p =>
          rw [Option.bind_some, Option.bind_some, sessions]
          apply Function.update_of_ne
          rintro rfl
          obtain ⟨v, there, -⟩ := auth.holds.mapped id p entry
          cases unused.symm.trans there
  · intro p v found
    rw [map]
    by_cases same : p = this
    · subst same
      rw [sessions, Function.update_self] at found
      cases found
      rw [own, Function.update_self]
    · rw [sessions, Function.update_of_ne same] at found
      have before := auth.posted p v found
      have apart : (base v).sessionId ≠ sessionId := by
        intro eq
        rw [eq, unknown] at before
        cases before
      rw [Function.update_of_ne apart]
      exact before

/-- A step that leaves every session where its datagrams find it, and whose new datagrams
have a session, keeps the worker authentic. -/
theorem Authentic.next (auth : Authentic A addressed w h) (holds : w'.Holds)
    (posted : ∀ this s, w'.sessions this = some s → w'.sessionMap (base s).sessionId = some this)
    (lookup : ∀ id s, w.lookup id = some s → ∃ t, w'.lookup id = some t ∧ addressed t = addressed s)
    (grows : ∀ id, (h id).output ⊆ (h' id).output)
    (entries : ∀ x ∈ w'.udpSocketWaitForSendDeque.entries,
      x ∈ w.udpSocketWaitForSendDeque.entries ∨ ∃ id s pair, w'.lookup id = some s ∧
        addressed s pair = x ∧ Framed A (h' id).output id pair) :
    Authentic A addressed w' h' := by
  refine ⟨holds, posted, ?_⟩
  intro x member
  rcases entries x member with before | new
  · obtain ⟨id, s, pair, found, rfl, frame⟩ := auth.framed x before
    obtain ⟨t, found', same⟩ := lookup id s found
    exact ⟨id, t, pair, found', congrFun same pair, frame.mono (grows id)⟩
  · exact new

theorem Authentic.replaced (auth : Authentic A addressed w h) (holds : w'.Holds)
    (replaced : Replaced w w' sessionId t)
    (same : ∀ s, w.lookup sessionId = some s → addressed t = addressed s)
    (grows : ∀ id, (h id).output ⊆ (h' id).output) : Authentic A addressed w' h' := by
  apply auth.next holds replaced.posted _ grows
  · intro x member
    rw [replaced.queue] at member
    exact .inl member
  · intro id s found
    by_cases here : id = sessionId
    · subst here
      exact ⟨t, replaced.self, same s found⟩
    · exact ⟨s, (replaced.apart here).trans found, rfl⟩

/-- A step that no session notices. -/
theorem Authentic.of_same (auth : Authentic A addressed w h) (holds : w'.Holds)
    (sessions : w'.sessions = w.sessions) (map : w'.sessionMap = w.sessionMap)
    (entries : ∀ x ∈ w'.udpSocketWaitForSendDeque.entries,
      x ∈ w.udpSocketWaitForSendDeque.entries) : Authentic A addressed w' h := by
  have lookup := lookup_congr sessions map
  apply auth.next holds _ _ (fun _ => List.Subset.refl _) fun x member => .inl (entries x member)
  · rw [sessions, map]
    exact auth.posted
  · rw [lookup]
    exact fun id s found => ⟨s, found, rfl⟩

/-- `kcpCallBack` queues the frame of its segment, under the id of its session. -/
theorem kcpCallBack_framed {other : Int → Fin 4} {key : Bytes 32} {iv : Bytes 12}
    {buf : List UInt8} {node : Bytes (payloadSize other (buf.length + bufferPaddingSize))}
    (short : buf.length ≤ 1250) (here : w.sessions this = some s)
    (called : w.kcpCallBack A addressed (.success key iv) this node buf = some w') :
    ∃ pair q, datagram pair = sealFrame A key iv ((base s).sessionId.toList ++ buf) ∧
      Udp.tryTosendUdpMessageToRemoteServer w.udpSocketWaitForSendDeque (addressed s pair) =
        some q ∧ w'.udpSocketWaitForSendDeque = q ∧ w'.sessions = w.sessions ∧
      w'.sessionMap = w.sessionMap := by
  have built :=
    buildFrame_success A key iv (base s).sessionId node (room_of_segment short) (by omega)
  have size := sealFrame_size A key iv (base s).sessionId buf
  simp only [kcpCallBack, here, built, Option.bind_eq_bind, Option.bind_some,
    Option.bind_eq_some_iff] at called
  obtain ⟨q, pushed, eq⟩ := called
  cases eq
  refine ⟨_, q, ?_, pushed, rfl, rfl, rfl⟩
  exact List.take_left' size

/-- On an empty queue the send starts at once. -/
theorem exists_kcpCallBack (A : AesGcm) (addressed : S → Packet → α) (other : Int → Fin 4)
    (key : Bytes 32) (iv : Bytes 12) {buf : List UInt8} (short : buf.length ≤ 1250)
    (here : w.sessions this = some s) (idle : w.udpSocketWaitForSendDeque = .idle)
    (node : Bytes (payloadSize other (buf.length + bufferPaddingSize))) :
    ∃ w' pair, w.kcpCallBack A addressed (.success key iv) this node buf = some w' ∧
      w'.sessions = w.sessions ∧ w'.sessionMap = w.sessionMap ∧
      w'.udpSocketWaitForSendDeque.started = [addressed s pair] ∧
      datagram pair = sealFrame A key iv ((base s).sessionId.toList ++ buf) := by
  have built :=
    buildFrame_success A key iv (base s).sessionId node (room_of_segment short) (by omega)
  have size := sealFrame_size A key iv (base s).sessionId buf
  simp only [kcpCallBack, here, built, idle, Option.bind_eq_bind, Option.bind_some]
  refine ⟨_, _, rfl, rfl, rfl, rfl, ?_⟩
  exact List.take_left' size

/-- What a step of the worker's own does: a handler of one of its sessions runs, or KCP
outputs a segment for one of them, or no session has to do with it. -/
inductive Effect (handle : S → Session.Event → Option S) (w : Worker S α) (h : Histories)
    (w' : Worker S α) (h' : Histories) : Prop
  | handler {sessionId s e t} : w.lookup sessionId = some s → onSocket e → (base s).Enabled e →
      handle s e = some t → Replaced w w' sessionId (answered t) →
      h' = h.note sessionId (·.reads e.bytesRead) → Effect handle w h w' h'
  | output {sessionId s buf} : w.lookup sessionId = some s → w'.lookup = w.lookup →
      h' = h.note sessionId (·.outputs buf) → Effect handle w h w' h'
  | none : w'.lookup = w.lookup → h' = h → Effect handle w h w' h'

theorem output_subset (f : History → History) (grows : ∀ h, h.output ⊆ (f h).output)
    (h : Histories) (sessionId id : SessionId) :
    (h id).output ⊆ (h.note sessionId f id).output := by
  by_cases same : id = sessionId
  · subst same
    rw [h.note_self]
    exact grows (h id)
  · rw [Histories.note_other same]
    exact List.Subset.refl _

theorem feeds_subset (h : Histories) (sessionId : SessionId) (data : List UInt8)
    (arrived : List (List UInt8)) (id : SessionId) :
    (h id).output ⊆ (h.note sessionId (·.feeds data arrived) id).output := by
  apply output_subset
  exact fun _ => List.Subset.refl _

theorem Effect.grows {handle : S → Session.Event → Option S}
    (effect : Effect handle w h w' h') (id : SessionId) : (h id).output ⊆ (h' id).output := by
  cases effect with
  | handler _ _ _ _ _ eq =>
      rw [eq]
      apply output_subset
      exact fun _ => List.Subset.refl _
  | output _ _ eq =>
      rw [eq]
      apply output_subset
      exact fun _ => List.subset_append_left _ _
  | none _ eq =>
      rw [eq]
      exact List.Subset.refl _

theorem Authentic.own {other : Int → Fin 4} {handle : S → Session.Event → Option S} {e : Event}
    (auth : Authentic A addressed w h)
    (handled : ∀ s e t, (base s).Enabled e → handle s e = some t →
      Session.Handled (base s) (base t))
    (kept : ∀ s e t, handle s e = some t → addressed (answered t) = addressed s)
    (step : OwnStep A other handle addressed w h e w' h') :
    Authentic A addressed w' h' ∧ Effect handle w h w' h' := by
  cases step with
  | @session this s e w' here step =>
      have holds := auth.holds.common handled step
      cases step with
      | session socket here' enabled ran =>
          cases here.symm.trans here'
          obtain ⟨t, run, replaced⟩ :=
            auth.run ran here fun t run => (handled s e t enabled run).sessionId
          refine ⟨auth.replaced holds replaced ?_ (output_subset _ ?_ h _),
            .handler (auth.lookup here) socket enabled run replaced rfl⟩
          · intro u found
            cases (auth.lookup here).symm.trans found
            exact kept s e t run
          · exact fun _ => List.Subset.refl _
  | @kcpCallBack this s key iv w' buf node here short called =>
      have step : CommonStep A other handle addressed w (.kcpCallBack this buf) w' :=
        .kcpCallBack node called
      have holds := auth.holds.common handled step
      obtain ⟨pair, q, frame, pushed, queue, sessions, map⟩ := kcpCallBack_framed short here called
      have lookup := lookup_congr sessions map
      refine ⟨auth.next holds ?_ ?_ (output_subset _ ?_ h _) ?_,
        .output (auth.lookup here) lookup rfl⟩
      · rw [sessions, map]
        exact auth.posted
      · rw [lookup]
        exact fun id s found => ⟨s, found, rfl⟩
      · exact fun _ => List.subset_append_left _ _
      · intro x member
        rw [queue] at member
        apply (Udp.mem_enqueue pushed member).imp id
        rintro rfl
        refine ⟨_, s, pair, lookup ▸ auth.lookup here, rfl, key, iv, buf, frame, ?_, short⟩
        rw [h.note_self]
        exact List.mem_append_right _ List.mem_cons_self
  | sent step =>
      have holds := auth.holds.common handled step
      cases step with
      | sent pending done =>
          exact ⟨auth.of_same holds rfl rfl fun x member => Udp.mem_sent done member, .none rfl rfl⟩
  | doCurrentTimeWheel step =>
      have holds := auth.holds.common handled step
      cases step with
      | doCurrentTimeWheel ticks => exact ⟨auth.of_same holds rfl rfl fun x => id, .none rfl rfl⟩

theorem started_authentic (started : w.Started) : Authentic A addressed w h := by
  refine ⟨started_holds started, ?_, ?_⟩ <;> obtain ⟨wheel, buf, -, rfl⟩ := started
  · intro this s found
    cases found
  · intro x member
    cases member

end
end Worker
end TransparentProxyNet
