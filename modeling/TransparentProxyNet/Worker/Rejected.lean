import TransparentProxyNet.Worker.Invariant

/-! What a datagram that cannot be decrypted does to a worker. -/
namespace TransparentProxyNet
open Buffer Machine

namespace Session

/-- What KCP refuses as too short moves nothing. -/
theorem ikcpInput_short {s : Session} {len : Int} (short : len < 24) (input : KcpInput) :
    s.ikcpInput len input = s := by
  rw [Session.ikcpInput, Kcp.ikcp_input, if_pos short]

theorem Quiet.resumeTraffic {s : Session} (quiet : s.Quiet) : s.resumeTraffic = s := by
  unfold Session.resumeTraffic
  split
  · rename_i resumes
    simp only [Bool.and_eq_true, decide_eq_true_eq] at resumes
    exact absurd (quiet.paused resumes.1) (Nat.not_le.mpr resumes.2)
  · rfl

theorem readLoop_drained {S : Type} {recv : S → Nat → S} {switch : S → Packet → Option S}
    {old : Nat → List UInt8} {queue : List (List UInt8)} (drained : Drained queue) (s : S) :
    readLoop recv switch old queue s = some s := by
  match queue, drained with
  | [], _ => rfl
  | message :: queue, drained =>
      have empty : message = [] := drained message rfl
      rw [readLoop, empty]
      rfl

end Session

theorem Home.inputToKcp_short {s : Session} (quiet : s.Quiet) {len : Int} (short : len < 24)
    (input : KcpInput) (old : Nat → List UInt8) : inputToKcp s len input old = some s := by
  unfold inputToKcp
  split
  · rfl
  · rw [Session.ikcpInput_short short, tryToReadFromKcp, Session.readLoop_drained quiet.drained,
      Option.map_some, quiet.resumeTraffic]

theorem Vps.inputToKcp_short {s : Session} (quiet : s.toSession.Quiet) {len : Int}
    (short : len < 24) (input : KcpInput) (old : Nat → List UInt8) :
    inputToKcp s len input old = some s := by
  unfold inputToKcp
  split
  · rfl
  · have same : s.lift (·.ikcpInput len input) = s :=
      lift_same (S := Session) _ s (Session.ikcpInput_short short input)
    have resumed : s.lift (·.resumeTraffic) = s := lift_same (S := Session) _ s quiet.resumeTraffic
    rw [same, tryToReadFromKcp, Session.readLoop_drained quiet.drained, Option.map_some, resumed]

namespace Worker
variable {S α : Type} {A : AesGcm} {w : Worker S α} {datagram : List UInt8} {calls : DecryptCalls}

/-- Only the receive buffer may differ. -/
structure NoTrace (w w' : Worker S α) : Prop where
  sessionMap : w'.sessionMap = w.sessionMap
  sessions : w'.sessions = w.sessions
  timeWheel : w'.timeWheel = w.timeWheel
  udpSocketWaitForSendDeque : w'.udpSocketWaitForSendDeque = w.udpSocketWaitForSendDeque
  receives : w'.receives = w.receives
  requests : w'.requests = w.requests

def bytesHadRead (datagram : List UInt8) : Nat := (datagram.take bufferSize).length

/-- A datagram arrives as `v`; `doDecrypt` leaves `out` in the buffer and returns `r`, and
`sessionId` stands where the id of the datagram would stand. -/
structure Decrypted (A : AesGcm) (w : Worker S α) (datagram : List UInt8) (calls : DecryptCalls)
    (v : Worker S α) (out : Bytes bufferSize) (r : UInt32) (sessionId : SessionId) : Prop where
  arrived : w.arrive datagram = some v
  decrypted : FastAesGcm.doDecrypt A calls v.udpReceiveBuffer
    (UInt32.ofNat (bytesHadRead datagram)) = some (out, r)
  header : read out keyAndIvOffSet sessionIdSize = some sessionId

/-- No datagram makes a worker leave its buffer. -/
theorem decrypted_total (A : AesGcm) (w : Worker S α) (datagram : List UInt8)
    (calls : DecryptCalls) : ∃ v out r sessionId, Decrypted A w datagram calls v out r sessionId ∧
      (r = -1 ∨ r.toNat + 68 = bytesHadRead datagram) := by
  have size : bytesHadRead datagram ≤ bufferSize := List.length_take_le ..
  have room : 0 + (datagram.take bufferSize).length ≤ bufferSize := by
    rw [Nat.zero_add]
    exact size
  obtain ⟨buf, written, -⟩ := write_eq w.udpReceiveBuffer room
  obtain ⟨dataSize, cast⟩ : ∃ dataSize, UInt32.ofNat (bytesHadRead datagram) = dataSize := ⟨_, rfl⟩
  have small : bytesHadRead datagram < 2 ^ 31 := Nat.lt_of_le_of_lt size (by simp [bufferSize])
  have same : dataSize.toNat = bytesHadRead datagram := by
    rw [← cast]
    exact UInt32.toNat_ofNat_of_lt' (by simp only [UInt32.size]; omega)
  obtain ⟨out, r, decrypted, range⟩ :=
    FastAesGcm.doDecrypt_total A calls buf (same.trans_le size) (same.trans_lt small)
  rw [same] at range
  rw [← cast] at decrypted
  have inside : keyAndIvOffSet + sessionIdSize ≤ bufferSize := by decide
  obtain ⟨sessionId, header⟩ := read_total out inside
  refine ⟨{ w.setBuffer buf with receives := w.receives - 1 }, out, r, sessionId,
    ⟨?_, decrypted, header⟩, range⟩
  rw [arrive, written]
  rfl

theorem Decrypted.decode {v : Worker S α} {out : Bytes bufferSize} {r : UInt32}
    {sessionId : SessionId} (h : Decrypted A w datagram calls v out r sessionId)
    (deliver : Worker S α → SessionId → Int → List UInt8 → Option (Worker S α)) :
    v.decode A deliver (bytesHadRead datagram) calls =
      (deliver (v.setBuffer out) sessionId (int32 r - sessionIdSize)
        (data out (int32 r - sessionIdSize))).map rearm := by
  simp only [Worker.decode, h.decrypted, h.header, Option.bind_eq_bind, Option.bind_some]
  exact Option.map_eq_bind.symm

/-- A handler that only arms the next receive. -/
theorem noTrace_rearm {v : Worker S α} (waiting : 0 < w.receives)
    (arrived : w.arrive datagram = some v)
    (out : Bytes bufferSize) : NoTrace w ((v.setBuffer out).rearm) := by
  obtain ⟨buf, -, rfl⟩ := Option.map_eq_some_iff.mp arrived
  refine ⟨rfl, rfl, rfl, rfl, ?_, rfl⟩
  change w.receives - 1 + 1 = w.receives
  omega

end Worker

namespace Home
open Worker

theorem rejected_noTrace {A : AesGcm} {w v : Worker} {datagram : List UInt8} {calls : ReceiveCalls}
    {out : Bytes bufferSize} {r : UInt32} {sessionId : SessionId} (h : w.Holds)
    (waiting : 0 < w.receives) (decrypted : Decrypted A w datagram calls.decrypt v out r sessionId)
    (rejected : int32 r < sessionIdSize) :
    ∃ w', receiveHandler A v false (bytesHadRead datagram) calls = some w' ∧ NoTrace w w' := by
  have holds := h.arrive decrypted.arrived
  refine ⟨_, ?_, noTrace_rearm waiting decrypted.arrived out⟩
  rw [receiveHandler, if_neg Bool.false_ne_true, decrypted.decode]
  refine Option.map_eq_some_iff.mpr ⟨_, ?_, rfl⟩
  unfold deliver
  split
  · rename_i this entry
    obtain ⟨s, found, -⟩ := holds.mapped sessionId this entry
    have quiet := holds.quiet this s found
    exact run_same (w := v.setBuffer out) found (inputToKcp_short quiet (by omega) _ _) quiet.calls
  · rfl

end Home

namespace Vps
open Worker

/-- The session for an unknown id is built, whatever the datagram brings. -/
theorem deliver_unknown (calls : ReceiveCalls) (new : NewSession) {w : Worker}
    {sessionId : SessionId} {len : Int}
    (h : w.Holds) (unused : w.sessions new.this = none) (unknown : w.sessionMap sessionId = none)
    (short : len < 24) (data : List UInt8) :
    ∃ w', deliver calls new w sessionId len data = some w' ∧
      w'.sessions new.this = some (registered new sessionId) := by
  obtain ⟨v, ran, holds, sessions, -⟩ := registerSession_eq h unused unknown
  have found : v.sessions new.this = some (registered new sessionId) := by
    rw [sessions, Function.update_self]
  have quiet := holds.quiet _ _ found
  refine ⟨v, ?_, found⟩
  rw [deliver, unknown]
  simp only [Option.bind_eq_bind, ran, Option.bind_some]
  exact run_same found (inputToKcp_short quiet short _ _) quiet.calls

theorem rejected_noTrace_iff (calls : ReceiveCalls) (new : NewSession) {A : AesGcm} {w v : Worker}
    {datagram : List UInt8} {out : Bytes bufferSize} {r : UInt32} {sessionId : SessionId}
    (h : w.Holds) (waiting : 0 < w.receives) (unused : w.sessions new.this = none)
    (decrypted : Decrypted A w datagram calls.decrypt v out r sessionId)
    (rejected : int32 r < sessionIdSize) :
    ∃ w', receiveHandler A v false (bytesHadRead datagram) calls new = some w' ∧
      (NoTrace w w' ↔ datagram = [] ∨ (w.sessionMap sessionId).isSome) := by
  have holds := h.arrive decrypted.arrived
  obtain ⟨buf, -, arrived⟩ := Option.map_eq_some_iff.mp decrypted.arrived
  by_cases empty : datagram = []
  · refine ⟨listen v, ?_, iff_of_true (noTrace_rearm waiting decrypted.arrived v.udpReceiveBuffer)
      (.inl empty)⟩
    rw [receiveHandler, if_neg Bool.false_ne_true, if_pos (by rw [empty]; rfl)]
  have some : bytesHadRead datagram ≠ 0 := by simp [bytesHadRead, empty, bufferSize]
  rw [receiveHandler, if_neg Bool.false_ne_true, if_neg some, decrypted.decode]
  cases entry : w.sessionMap sessionId with
  | some this =>
      refine ⟨_, ?_, iff_of_true (noTrace_rearm waiting decrypted.arrived out) (.inr rfl)⟩
      refine Option.map_eq_some_iff.mpr ⟨_, ?_, rfl⟩
      have entry : (v.setBuffer out).sessionMap sessionId = .some this := by
        rw [← arrived]
        exact entry
      obtain ⟨s, found, -⟩ := holds.mapped sessionId this entry
      have quiet := holds.quiet this s found
      rw [deliver, entry]
      exact run_same (w := v.setBuffer out) found (inputToKcp_short quiet (by omega) _ _)
        quiet.calls
  | none =>
      have placed : (v.setBuffer out).Holds := holds.setBuffer out
      have short : int32 r - sessionIdSize < 24 := by omega
      obtain ⟨w', delivered, built⟩ := deliver_unknown calls new placed
        (by rw [← arrived]; exact unused)
        (by rw [← arrived]; exact entry) short (data out (int32 r - sessionIdSize))
      refine ⟨w'.rearm, by rw [delivered]; rfl, iff_of_false ?_ (by simp [empty])⟩
      intro noTrace
      have same : w'.sessions = w.sessions := noTrace.sessions
      cases unused.symm.trans (same ▸ built)

end Vps

/-- A datagram that is refused, or too short for an id, leaves no trace on the home side.
On the VPS side it leaves none exactly if it is empty or the bytes at the place of its id
are the id of a session. -/
theorem rejected_leaves_no_trace (A : AesGcm) (other : Int → Fin 4) :
    (∀ w, Reachable (Home.Step A other) Worker.Started w → 0 < w.receives →
      ∀ (datagram : List UInt8) (calls : Worker.ReceiveCalls), ∃ v out r sessionId,
        Worker.Decrypted A w datagram calls.decrypt v out r sessionId ∧
        (int32 r < sessionIdSize → ∃ w', Home.receiveHandler A v false
          (Worker.bytesHadRead datagram) calls = some w' ∧
          Worker.NoTrace w w')) ∧
    (∀ w, Reachable (Vps.Step A other) Worker.Started w → 0 < w.receives →
      ∀ (datagram : List UInt8) (calls : Worker.ReceiveCalls) (new : Vps.NewSession),
        w.sessions new.this = none →
        ∃ v out r sessionId, Worker.Decrypted A w datagram calls.decrypt v out r sessionId ∧
        (int32 r < sessionIdSize →
          ∃ w', Vps.receiveHandler A v false (Worker.bytesHadRead datagram) calls new = some w' ∧
            (Worker.NoTrace w w' ↔ datagram = [] ∨ (w.sessionMap sessionId).isSome))) := by
  constructor
  · intro w reachable waiting datagram calls
    obtain ⟨v, out, r, sessionId, decrypted, -⟩ := Worker.decrypted_total A w datagram calls.decrypt
    exact ⟨v, out, r, sessionId, decrypted, Home.rejected_noTrace (Home.reachable_holds reachable)
      waiting decrypted⟩
  · intro w reachable waiting datagram calls new unused
    obtain ⟨v, out, r, sessionId, decrypted, -⟩ := Worker.decrypted_total A w datagram calls.decrypt
    exact ⟨v, out, r, sessionId, decrypted,
      Vps.rejected_noTrace_iff calls new (Vps.reachable_holds reachable) waiting unused decrypted⟩

/-- A datagram of one byte makes a worker that has just started build a session. -/
theorem one_byte_builds_session :
    ¬ ∀ (A : AesGcm) (other : Int → Fin 4) w, Reachable (Vps.Step A other) Worker.Started w →
      0 < w.receives →
      ∀ (datagram : List UInt8) (calls : Worker.ReceiveCalls) (new : Vps.NewSession),
        w.sessions new.this = none →
        ∀ v out r sessionId, Worker.Decrypted A w datagram calls.decrypt v out r sessionId →
          int32 r < sessionIdSize →
          ∀ w', Vps.receiveHandler A v false (Worker.bytesHadRead datagram) calls new = some w' →
            Worker.NoTrace w w' := by
  intro always
  obtain ⟨w, started, unused, unknown, receives⟩ :=
    Worker.exists_started (S := Vps.Session) (α := Endpoint × Packet)
  have waiting : 0 < w.receives := by rw [receives]; decide
  obtain ⟨v, out, r, sessionId, decrypted, range⟩ := Worker.decrypted_total .sample w [0] .success
  have refused : r = -1 := range.resolve_right fun long => by
    have one : Worker.bytesHadRead [0] = 1 := rfl
    omega
  have rejected : int32 r < sessionIdSize := by rw [refused]; decide
  obtain ⟨w', handled, noTrace⟩ := Vps.rejected_noTrace_iff
    ⟨.success, fun _ => ⟨0, []⟩, fun _ => []⟩
    ⟨0, .replicate 16 0, ⟨0, 0⟩, 10⟩ (Worker.started_holds started) waiting
      (unused 0) decrypted rejected
  have traceless :=
    always _ (fun _ => 0) w (.init started) waiting _ _ _ (unused 0) _ _ _ _ decrypted rejected
      _ handled
  have left := noTrace.mp traceless
  simp [unknown] at left

end TransparentProxyNet
