import TransparentProxyNet.MemoryPool.SizeClass
import TransparentProxyNet.Worker.Rejected
import TransparentProxyNet.Worker.Sessions

/-! A KCP segment on its way from the `kcpCallBack` of one program to the receive handler
of the other. -/
namespace TransparentProxyNet
open Buffer Machine FastAesGcm

/-! ### Sending -/

/-- The bytes that `asio::buffer` makes of a packet. -/
def datagram (pair : Packet) : List UInt8 := pair.buffer.take pair.len.toNat

theorem sealFrame_size (A : AesGcm) (key : Bytes 32) (iv : Bytes 12) (sessionId : SessionId)
    (buf : List UInt8) :
    (sealFrame A key iv (sessionId.toList ++ buf)).length = buf.length + 84 := by
  rw [sealFrame_length, List.length_append, List.Vector.toList_length]
  omega

/-- The plaintext comes between the room for key and IV and the room for the tag. -/
theorem written_plain (sessionId : SessionId) {n : Nat} (node : Bytes n) {buf : List UInt8}
    (room : buf.length + 84 ≤ n) : ∃ node₁ node₂ head spare,
      write node keyAndIvOffSet sessionId.toList = some node₁ ∧
      write node₁ (keyAndIvOffSet + sessionIdSize) buf = some node₂ ∧
      head.length = keyAndIvOffSet ∧ spare.length = 24 ∧
      node₂.toList = head ++ (sessionId.toList ++ buf) ++ spare ++
        node.toList.drop (buf.length + 84) := by
  have inside : keyAndIvOffSet + sessionIdSize ≤ n := by
    simp only [keyAndIvOffSet, sessionIdSize]
    omega
  obtain ⟨head, place, rest, shape, lh, lp⟩ := exists_split node inside
  have front : (head ++ place).length = 60 := by simp [lh, lp, keyAndIvOffSet, sessionIdSize]
  have total : rest.length + 60 = n := by
    have := congrArg List.length shape
    rw [List.length_append, front, List.Vector.toList_length] at this
    omega
  obtain ⟨node₁, write₁, shape₁⟩ :=
    write_append sessionId.toList shape lh (by simp [lp, sessionIdSize])
  have split : rest = rest.take buf.length ++
      ((rest.drop buf.length).take 24 ++ (rest.drop buf.length).drop 24) := by
    rw [List.take_append_drop, List.take_append_drop]
  have room₁ : (rest.take buf.length).length = buf.length := by
    rw [List.length_take]
    omega
  rw [split, ← List.append_assoc] at shape₁
  have front₁ : (head ++ sessionId.toList).length = keyAndIvOffSet + sessionIdSize := by
    simp [lh, sessionIdSize]
  obtain ⟨node₂, write₂, shape₂⟩ := write_append buf shape₁ front₁ room₁.symm
  have behind : node.toList.drop (buf.length + 84) = (rest.drop buf.length).drop 24 := by
    rw [shape, List.drop_append, List.drop_of_length_le (by omega), List.nil_append,
      List.drop_drop, front]
    congr 1
  refine ⟨node₁, node₂, head, (rest.drop buf.length).take 24, write₁, write₂, lh, ?_, ?_⟩
  · rw [List.length_take, List.length_drop]
    omega
  · rw [behind]
    simpa using shape₂

theorem buildFrame_success (A : AesGcm) (key : Bytes 32) (iv : Bytes 12) (sessionId : SessionId)
    {n : Nat} (node : Bytes n) {buf : List UInt8} (room : buf.length + 84 ≤ n)
    (small : buf.length + 84 < 2 ^ 31) : Worker.buildFrame A (.success key iv) sessionId node buf =
      some ⟨sealFrame A key iv (sessionId.toList ++ buf) ++ node.toList.drop (buf.length + 84),
        buf.length + 84⟩ := by
  obtain ⟨node₁, node₂, head, spare, write₁, write₂, lh, ls, shape⟩ :=
    written_plain sessionId node room
  have plain : (sessionId.toList ++ buf).length = buf.length + 16 := by
    rw [List.length_append, List.Vector.toList_length, Nat.add_comm]
  have dataSize : (UInt32.ofNat (buf.length + sessionIdSize)).toNat =
      (sessionId.toList ++ buf).length := by
    rw [plain, UInt32.toNat_ofNat_of_lt' (by simp only [UInt32.size, sessionIdSize]; omega)]
    rfl
  obtain ⟨out, encrypted, content⟩ :=
    doEncrypt_success A key iv shape lh ls dataSize (by omega) (by omega)
  have signed : int32 (UInt32.ofNat ((sessionId.toList ++ buf).length + 68)) =
      ((buf.length + 84 : Nat) : Int) := by
    have cast : (UInt32.ofNat ((sessionId.toList ++ buf).length + 68)).toNat = buf.length + 84 := by
      rw [plain, UInt32.toNat_ofNat_of_lt' (by simp only [UInt32.size]; omega)]
    rw [int32_of_lt (by omega), cast]
  simp only [Worker.buildFrame, write₁, write₂, Option.bind_eq_bind, Option.bind_some, encrypted]
  rw [signed, content]
  rfl

/-! ### Receiving -/

namespace Worker
variable {S α : Type}

theorem arrive_eq (w : Worker S α) {datagram : List UInt8} (fits : datagram.length ≤ bufferSize) :
    ∃ v, w.arrive datagram = some v ∧
      v.udpReceiveBuffer.toList = datagram ++ w.udpReceiveBuffer.toList.drop datagram.length := by
  have whole : datagram.take bufferSize = datagram := List.take_of_length_le fits
  have room : 0 + datagram.length ≤ bufferSize := by omega
  obtain ⟨buf, written, content⟩ := write_eq w.udpReceiveBuffer room
  refine ⟨{ w.setBuffer buf with receives := w.receives - 1 }, ?_, content.trans (by simp)⟩
  rw [arrive, whole, written]
  rfl

/-- The handler finds the id and the segment that were framed. -/
theorem decode_frame (A : AesGcm) {key : Bytes 32} {iv : Bytes 12} {sessionId : SessionId}
    {buf rest : List UInt8} {v : Worker S α}
    (shape : v.udpReceiveBuffer.toList = sealFrame A key iv (sessionId.toList ++ buf) ++ rest)
    (small : buf.length + 84 < 2 ^ 31)
    (deliver : Worker S α → SessionId → Int → List UInt8 → Option (Worker S α)) :
    ∃ out, v.decode A deliver (buf.length + 84) .success =
      (deliver (v.setBuffer out) sessionId buf.length buf).map rearm := by
  have plain : (sessionId.toList ++ buf).length = buf.length + 16 := by
    rw [List.length_append, List.Vector.toList_length, Nat.add_comm]
  have cipher := (A.encrypt_length key iv (sessionId.toList ++ buf)).trans plain
  have dataSize : (UInt32.ofNat (buf.length + 84)).toNat =
      (A.encryptUpdate key iv (sessionId.toList ++ buf)).length + 68 := by
    rw [UInt32.toNat_ofNat_of_lt' (by simp only [UInt32.size]; omega), cipher]
  obtain ⟨out, decrypted, content⟩ := doDecrypt_frame A shape dataSize (by omega)
  rw [if_pos rfl, cipher] at decrypted
  rw [A.decrypt_encrypt] at content
  have header : read out keyAndIvOffSet sessionIdSize = some sessionId :=
    read_append sessionId (a := key.toList ++ iv.toList) (by simpa using content)
      (by simp [keyAndIvOffSet])
  have signed : int32 (UInt32.ofNat (buf.length + 16)) - sessionIdSize = (buf.length : Int) := by
    have cast : (UInt32.ofNat (buf.length + 16)).toNat = buf.length + 16 :=
      UInt32.toNat_ofNat_of_lt' (by simp only [UInt32.size]; omega)
    rw [int32_of_lt (by omega), cast]
    simp [sessionIdSize]
  have segment : data out buf.length = buf := by
    have front : (key.toList ++ iv.toList ++ sessionId.toList).length =
        keyAndIvOffSet + sessionIdSize := by
      simp [keyAndIvOffSet, sessionIdSize]
    obtain ⟨behind, cut⟩ : ∃ behind, out.toList = (key.toList ++ iv.toList ++ sessionId.toList) ++
      (buf ++ behind) :=
      ⟨_, by simpa using content⟩
    rw [data, cut, ← front, List.drop_left, Int.toNat_natCast, List.take_left]
  refine ⟨out, ?_⟩
  simp only [decode, decrypted, header, Option.bind_eq_bind, Option.bind_some, signed, segment]
  exact Option.map_eq_bind.symm

/-- A frame has arrived: the handler goes on with its id and its segment. -/
theorem arrive_frame [Served S] (A : AesGcm) (key : Bytes 32) (iv : Bytes 12)
    (sessionId : SessionId)
    {buf : List UInt8} {w : Worker S α} (h : w.Holds) (fits : buf.length + 84 ≤ bufferSize) :
    ∃ v, w.arrive (sealFrame A key iv (sessionId.toList ++ buf)) = some v ∧
      ∀ deliver : Worker S α → SessionId → Int → List UInt8 → Option (Worker S α),
      ∃ u : Worker S α, u.Holds ∧
        u.sessionMap = w.sessionMap ∧ u.sessions = w.sessions ∧
        v.decode A deliver (buf.length + 84) .success =
          (deliver u sessionId buf.length buf).map rearm := by
  have size := sealFrame_size A key iv sessionId buf
  obtain ⟨v, arrived, shape⟩ := w.arrive_eq (size.trans_le fits)
  refine ⟨v, arrived, ?_⟩
  intro deliver
  have small : buf.length + 84 < 2 ^ 31 := Nat.lt_of_le_of_lt fits (by simp [bufferSize])
  obtain ⟨out, decoded⟩ := decode_frame A shape small deliver
  obtain ⟨b, -, placed⟩ := Option.map_eq_some_iff.mp arrived
  exact ⟨v.setBuffer out, (h.arrive arrived).setBuffer out, by rw [← placed]; rfl,
    by rw [← placed]; rfl, decoded⟩

/-- What comes of a worker whose session at `this`, and no other, is given an input. -/
def Fed [Served S] (input : S → Option S) (this : Nat) (s : S) (sessions : Nat → Option S)
    (w' : Worker S α) : Prop :=
  ∃ t, input s = some t ∧ (base t).sessionId = (base s).sessionId ∧
    w'.sessions = Function.update sessions this (some (lift (fun t => { t with calls := [] }) t))

/-- A handler that gives the segment to a session of the map. -/
theorem fed_known [Served S] {w : Worker S α} (h : w.Holds) {sessionId : SessionId} {this : Nat}
    (entry : w.sessionMap sessionId = some this) {input : S → Option S}
    (total : ∀ s, ∃ t, input s = some t)
    (handled : ∀ s t, input s = some t → Session.Handled (base s) (base t)) :
    ∃ s w', w.sessions this = some s ∧ (base s).sessionId = sessionId ∧ w.run this input = some w' ∧
      w'.sessionMap = w.sessionMap ∧ Fed input this s w.sessions w' := by
  obtain ⟨s, found, own⟩ := h.mapped sessionId this entry
  obtain ⟨t, done⟩ := total s
  obtain ⟨timeWheel, called, -⟩ := h.handled found (handled s t done)
  exact ⟨s, _, found, own, run_eq found done called, rfl, t, done, (handled s t done).sessionId,
    rfl⟩

end Worker

theorem Home.switch_total (s : Session) (pair : Packet) : ∃ t, switchStatus s pair = some t := by
  unfold switchStatus
  split
  · obtain ⟨q, pushed⟩ := s.tcpDataWaitForSendDeque.submit_total pair s.outcome
    exact ⟨_, (s.push_eq pair).trans (congrArg _ pushed)⟩
  · exact ⟨s, rfl⟩

theorem Home.inputToKcp_total (len : Int) (input : KcpInput) (old : Nat → List UInt8)
    (s : Session) : ∃ t, inputToKcp s len input old = some t := by
  unfold inputToKcp
  split
  · exact ⟨s, rfl⟩
  · obtain ⟨t, read⟩ := Session.readLoop_total Session.ikcpRecv old switch_total
      (s.ikcpInput len input).kcp.rcvQueue (s.ikcpInput len input)
    exact ⟨_, congrArg _ read⟩

theorem Vps.switch_total (s : Session) (pair : Packet) : ∃ t, switchStatus s pair = some t := by
  unfold switchStatus
  split
  · split <;> exact ⟨_, rfl⟩
  · split
    · rw [trySend_eq]
      split
      · obtain ⟨q, pushed⟩ := s.tcpDataWaitForSendDeque.submit_total pair s.outcome
        exact ⟨_, congrArg _ pushed⟩
      · exact ⟨_, rfl⟩
    · exact ⟨s, rfl⟩

theorem Vps.inputToKcp_total (len : Int) (input : KcpInput) (old : Nat → List UInt8) (s : Session) :
    ∃ t, inputToKcp s len input old = some t := by
  unfold inputToKcp
  split
  · exact ⟨s, rfl⟩
  · obtain ⟨t, read⟩ := TransparentProxyNet.Session.readLoop_total ikcpRecv old switch_total
      (s.lift (·.ikcpInput len input)).kcp.rcvQueue (s.lift (·.ikcpInput len input))
    exact ⟨_, congrArg _ read⟩

/-- `kcpCallBack` builds the frame inside its node, and hands it to the send queue. -/
structure Sent (A : AesGcm) (key : Bytes 32) (iv : Bytes 12) (sessionId : SessionId) {n : Nat}
    (node : Bytes n) (buf : List UInt8) (pair : Packet) : Prop where
  inside : buf.length + 84 ≤ n
  len : pair.len = buf.length + 84
  untouched : pair.buffer.drop (buf.length + 84) = node.toList.drop (buf.length + 84)
  frame : datagram pair = sealFrame A key iv (sessionId.toList ++ buf)
  home : ∀ (w : Home.Worker) this s, w.sessions this = some s → s.sessionId = sessionId →
    Home.kcpCallBack A (.success key iv) w this node buf =
      (Home.tryTosendUdpMessageToRemoteServer w.udpSocketWaitForSendDeque pair).map fun q =>
        { w.getMemory (.buffer (buf.length + bufferPaddingSize)) with
          udpSocketWaitForSendDeque := q }
  vps : ∀ (w : Vps.Worker) this s, w.sessions this = some s → s.sessionId = sessionId →
    Vps.kcpCallBack A (.success key iv) w this node buf =
      (Vps.tryTosendUdpMessageToRemoteServer w.udpSocketWaitForSendDeque
        (s.homeClienEndpoint, pair)).map fun q =>
        { w.getMemory (.buffer (buf.length + bufferPaddingSize)) with
          udpSocketWaitForSendDeque := q }

theorem sent_frame (A : AesGcm) (key : Bytes 32) (iv : Bytes 12) (sessionId : SessionId) {n : Nat}
    (node : Bytes n)
    {buf : List UInt8} (room : buf.length + 84 ≤ n) (small : buf.length + 84 < 2 ^ 31) :
    ∃ pair, Sent A key iv sessionId node buf pair := by
  have built := buildFrame_success A key iv sessionId node room small
  have size := sealFrame_size A key iv sessionId buf
  obtain ⟨pair, shape⟩ : ∃ pair : Packet,
      ⟨sealFrame A key iv (sessionId.toList ++ buf) ++ node.toList.drop (buf.length + 84),
        buf.length + 84⟩ = pair :=
    ⟨_, rfl⟩
  rw [shape] at built
  refine ⟨pair, room, by rw [← shape], ?_, ?_, ?_, ?_⟩
  · rw [← shape]
    exact List.drop_left' size
  · rw [datagram, ← shape]
    exact List.take_left' size
  · intro w this s found own
    subst own
    simp only [Home.kcpCallBack, Worker.kcpCallBack, found, Option.bind_eq_bind, Option.bind_some,
      base, id, built]
    exact Option.map_eq_bind.symm
  · intro w this s found own
    subst own
    simp only [Vps.kcpCallBack, Worker.kcpCallBack, found, Option.bind_eq_bind, Option.bind_some,
      base, built]
    exact Option.map_eq_bind.symm

/-- The home side's receive handler gives the segment to the session with that id. -/
def Home.Receives (A : AesGcm) (sessionId : SessionId) (buf datagram : List UInt8) (w : Worker) :
    Prop :=
  ∃ v, w.arrive datagram = some v ∧ ∀ ikcp old,
    (∀ this, w.sessionMap sessionId = some this → ∃ s w', w.sessions this = some s ∧
      s.sessionId = sessionId ∧
      receiveHandler A v false datagram.length ⟨.success, ikcp, old⟩ = some w' ∧
      w'.sessionMap = w.sessionMap ∧
      Worker.Fed (fun s => inputToKcp s buf.length (ikcp buf) old) this s w.sessions w') ∧
    (w.sessionMap sessionId = none → ∃ w',
      receiveHandler A v false datagram.length ⟨.success, ikcp, old⟩ = some w' ∧
      w'.sessionMap = w.sessionMap ∧ w'.sessions = w.sessions)

/-- So does the VPS side's; without such a session it makes one, stored under the id and
with that id. -/
def Vps.Receives (A : AesGcm) (sessionId : SessionId) (buf datagram : List UInt8) (w : Worker) :
    Prop :=
  ∃ v, w.arrive datagram = some v ∧ ∀ ikcp old new, w.sessions new.this = none →
    (∀ this, w.sessionMap sessionId = some this → ∃ s w', w.sessions this = some s ∧
      s.sessionId = sessionId ∧
      receiveHandler A v false datagram.length ⟨.success, ikcp, old⟩ new = some w' ∧
      w'.sessionMap = w.sessionMap ∧
      Worker.Fed (fun s => inputToKcp s buf.length (ikcp buf) old) this s w.sessions w') ∧
    (w.sessionMap sessionId = none → ∃ w',
      receiveHandler A v false datagram.length ⟨.success, ikcp, old⟩ new = some w' ∧
      w'.sessionMap = Function.update w.sessionMap sessionId (some new.this) ∧
      (registered new sessionId).sessionId = sessionId ∧
      Worker.Fed (fun s => inputToKcp s buf.length (ikcp buf) old) new.this
        (registered new sessionId) w.sessions w')

section
variable {A : AesGcm} {key : Bytes 32} {iv : Bytes 12} {sessionId : SessionId} {buf : List UInt8}

theorem Home.receives_frame {w : Worker} (h : w.Holds) (fits : buf.length + 84 ≤ bufferSize) :
    Receives A sessionId buf (sealFrame A key iv (sessionId.toList ++ buf)) w := by
  obtain ⟨v, arrived, decoded⟩ := Worker.arrive_frame A key iv sessionId h fits
  refine ⟨v, arrived, ?_⟩
  intro ikcp old
  obtain ⟨u, holds, map, sessions, run⟩ := decoded (deliver ⟨.success, ikcp, old⟩)
  have handler : receiveHandler A v false (sealFrame A key iv (sessionId.toList ++ buf)).length
      ⟨.success, ikcp, old⟩ = (deliver ⟨.success, ikcp, old⟩ u sessionId buf.length buf).map
        Worker.rearm := by
    rw [receiveHandler, if_neg Bool.false_ne_true, sealFrame_size, run]
  rw [handler]
  constructor
  · intro this entry
    obtain ⟨s, w', found, own, ran, map', fed⟩ := Worker.fed_known (S := Session) holds
      (map ▸ entry)
      (inputToKcp_total buf.length (ikcp buf) old) fun _ _ => handled_inputToKcp
    rw [sessions] at found fed
    refine ⟨s, w'.rearm, found, own, ?_, map'.trans map, fed⟩
    rw [deliver, map, entry]
    exact congrArg (Option.map Worker.rearm) ran
  · intro unknown
    refine ⟨u.rearm, ?_, map, sessions⟩
    rw [deliver, map, unknown]
    rfl

theorem Vps.receives_frame {w : Worker} (h : w.Holds) (fits : buf.length + 84 ≤ bufferSize) :
    Receives A sessionId buf (sealFrame A key iv (sessionId.toList ++ buf)) w := by
  obtain ⟨v, arrived, decoded⟩ := Worker.arrive_frame A key iv sessionId h fits
  refine ⟨v, arrived, ?_⟩
  intro ikcp old new unused
  obtain ⟨u, holds, map, sessions, run⟩ := decoded (deliver ⟨.success, ikcp, old⟩ new)
  have handler : receiveHandler A v false (sealFrame A key iv (sessionId.toList ++ buf)).length
      ⟨.success, ikcp, old⟩ new = (deliver ⟨.success, ikcp, old⟩ new u sessionId buf.length buf).map
        Worker.rearm := by
    rw [receiveHandler, if_neg Bool.false_ne_true, sealFrame_size, if_neg (by omega), run]
  rw [handler]
  constructor
  · intro this entry
    obtain ⟨s, w', found, own, ran, map', fed⟩ := Worker.fed_known (S := Session) holds
      (map ▸ entry)
      (inputToKcp_total buf.length (ikcp buf) old) fun _ _ => handled_inputToKcp
    rw [sessions] at found fed
    refine ⟨s, w'.rearm, found, own, ?_, map'.trans map, fed⟩
    rw [deliver, map, entry]
    exact congrArg (Option.map Worker.rearm) ran
  · intro unknown
    obtain ⟨made, ran, holds', placed, stored⟩ :=
      registerSession_eq holds (sessions ▸ unused) (map ▸ unknown)
    rw [map] at stored
    rw [sessions] at placed
    obtain ⟨s, w', found, own, input, map', fed⟩ := Worker.fed_known (S := Session) holds'
      (by rw [stored, Function.update_self]) (inputToKcp_total buf.length (ikcp buf) old) fun _ _ =>
        handled_inputToKcp
    rw [placed, Function.update_self] at found
    cases found
    refine ⟨w'.rearm, ?_, map'.trans stored, rfl, ?_⟩
    · rw [deliver, map, unknown]
      simp only [Option.bind_eq_bind, ran, Option.bind_some]
      exact congrArg (Option.map Worker.rearm) input
    · obtain ⟨t, done, kept, final⟩ := fed
      rw [placed, Function.update_idem] at final
      exact ⟨t, done, kept, final⟩

end

/-- A worker that has just got its first session, with a datagram that completes these
messages. -/
theorem Vps.exists_received (messages : List (List UInt8)) {t : Session}
    (fed : inputToKcp (registered ⟨7, .replicate 16 0, ⟨1, 5000⟩, 10⟩ (.replicate 16 0)) 24
      ⟨0, messages⟩ (fun _ => []) = some t) :
    ∃ w w' datagram, Worker.Started w ∧
      Step .sample (fun _ => 0) w (.receive false datagram) w' ∧ w'.Holds ∧
      w'.sessions 7 = some (Worker.answered t) := by
  obtain ⟨w, started, unused, unknown, one⟩ :=
    Worker.exists_started (S := Session) (α := Endpoint × Packet)
  have waiting : 0 < w.receives := by rw [one]; decide
  obtain ⟨datagram, framed⟩ : ∃ datagram, datagram = sealFrame .sample
    (.replicate 32 0) (.replicate 12 0) ((.replicate 16 0 : SessionId).toList ++ .replicate 24 0) :=
    ⟨_, rfl⟩
  have fits : (List.replicate 24 (0 : UInt8)).length + 84 ≤ bufferSize := by decide
  have receives : Receives .sample (.replicate 16 0) (.replicate 24 0) datagram w := by
    rw [framed]
    exact receives_frame (Worker.started_holds started) fits
  obtain ⟨v, arrived, handles⟩ := receives
  obtain ⟨w', received, -, -, u, fed', -, sessions⟩ :=
    (handles (fun _ => ⟨0, messages⟩) (fun _ => []) ⟨7, .replicate 16 0, ⟨1, 5000⟩, 10⟩
      (unused 7)).2 (unknown _)
  have whole : datagram.take bufferSize = datagram := by
    apply List.take_of_length_le
    rw [framed, sealFrame_size]
    exact fits
  have step : Step .sample (fun _ => 0) w (.receive false datagram) w' :=
    .receive waiting arrived (unused 7) (by rw [whole]; exact received)
  refine ⟨w, w', datagram, started, step, step_holds (Worker.started_holds started) step, ?_⟩
  cases fed.symm.trans fed'
  rw [sessions, Function.update_self]
  rfl

/-- A segment that either program frames fits its pool node and the receive buffer of the
other, whose handler gives the same bytes to the session with the same id. -/
theorem frame_round_trip (A : AesGcm) (other : Int → Fin 4) (sessionId : SessionId)
    {buf : List UInt8} (high : buf.length ≤ 1250) (key : Bytes 32) (iv : Bytes 12)
    (node : Bytes (Worker.payloadSize other (buf.length + bufferPaddingSize))) :
    ∃ pair, Sent A key iv sessionId node buf pair ∧ (datagram pair).length = buf.length + 84 ∧
      (datagram pair).length ≤ bufferSize ∧
      (∀ w, Reachable (Home.Step A other) Worker.Started w →
        Home.Receives A sessionId buf (datagram pair) w) ∧
      (∀ w, Reachable (Vps.Step A other) Worker.Started w →
        Vps.Receives A sessionId buf (datagram pair) w) := by
  have enough : buf.length + 128 ≤ Worker.payloadSize other ((buf.length + 128 : Nat) : Int) :=
    MemoryPool.le_payload other (by omega)
  have fits : buf.length + 84 ≤ bufferSize := by
    simp only [bufferSize]
    omega
  have room : buf.length + 84 ≤ Worker.payloadSize other (buf.length + bufferPaddingSize) :=
    Nat.le_trans (by omega) enough
  obtain ⟨pair, sent⟩ := sent_frame A key iv sessionId node room (by omega)
  have size := sealFrame_size A key iv sessionId buf
  refine ⟨pair, sent, ?_, ?_, ?_, ?_⟩
  · rw [sent.frame, size]
  · rw [sent.frame, size]
    exact fits
  · intro w reachable
    rw [sent.frame]
    exact Home.receives_frame (Home.reachable_holds reachable) fits
  · intro w reachable
    rw [sent.frame]
    exact Vps.receives_frame (Vps.reachable_holds reachable) fits

/-- The first segment of a session, framed on the home side, makes its session on a VPS
side that has just started. -/
theorem frame_round_trip_zeros : ∃ pair w', pair.len = 108 ∧
    (∃ v, Worker.arrive (S := Vps.Session) (α := Endpoint × Packet)
        ⟨fun _ => none, fun _ => none, TimeWheel.emptyWheel, .idle, .replicate _ 7, 1,
          [.buffer bufferSize]⟩
        (datagram pair) = some v ∧
      Vps.receiveHandler .sample v false (datagram pair).length
        ⟨.success, fun _ => ⟨0, []⟩, fun _ => []⟩
        ⟨4096, .replicate 16 9, ⟨1, 5000⟩, 10⟩ = some w') ∧
    w'.sessionMap (.replicate 16 0) = some 4096 := by
  have high : (List.replicate 24 (0 : UInt8)).length ≤ 1250 := by decide
  obtain ⟨pair, sent, -, -, -, received⟩ := frame_round_trip .sample (fun _ => 0)
    (.replicate 16 0) high
    (.replicate 32 0) (.replicate 12 0) (.replicate _ 5)
  obtain ⟨v, arrived, handled⟩ := received
    ⟨fun _ => none, fun _ => none, TimeWheel.emptyWheel, .idle, .replicate _ 7, 1,
      [.buffer bufferSize]⟩
    (.init ⟨_, _, ⟨rfl, fun _ => rfl⟩, rfl⟩)
  obtain ⟨w', done, map, -⟩ :=
    (handled (fun _ => ⟨0, []⟩) (fun _ => []) ⟨4096, .replicate 16 9, ⟨1, 5000⟩, 10⟩ rfl).2 rfl
  exact ⟨pair, w', sent.len, ⟨v, arrived, done⟩, by rw [map, Function.update_self]⟩

end TransparentProxyNet
