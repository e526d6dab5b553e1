import TransparentProxyNet.Udp.Buffers
import TransparentProxyNet.Worker.RoundTrip

/-! What `kcpCallBack` puts into the send queue when a call inside `doEncrypt` fails. -/
namespace TransparentProxyNet.Worker
open Buffer Machine Udp FastAesGcm

/-- A segment that KCP hands to `kcpCallBack`: for which session, which node the pool gives
for it, and what the random generator and EVP answer. -/
structure Outgoing (S : Type) where
  session : S
  buf : List UInt8
  low : 24 ≤ buf.length
  high : buf.length ≤ 1250
  node : Nat
  calls : EncryptCalls

inductive SenderEvent (S : Type) where
  | kcpCallBack (segment : Outgoing S)
  | sent (i : Nat) (ec : Bool)

/-- The length that is recorded is that of a segment and 84, and so many bytes at the start
of the node are the frame of the segment. -/
def Complete (A : AesGcm) (pair : Packet) : Prop :=
  ∃ (sessionId : SessionId) (segment : List UInt8) (key : Bytes 32) (iv : Bytes 12),
    24 ≤ segment.length ∧ segment.length ≤ 1250 ∧ pair.len = segment.length + 84 ∧
      datagram pair = sealFrame A key iv (sessionId.toList ++ segment)

section
variable {S α : Type} [Served S] (A : AesGcm) (other : Int → Fin 4) (addressed : S → Packet → α)

/-- `kcpCallBack`, as far as the queue and the nodes are concerned. -/
def callBack (t : Sender α) (segment : Outgoing S) {n : Nat} (content : Bytes n) :
    Option (Sender α) := do
  let pair ← buildFrame A segment.calls (base segment.session).sessionId content segment.buf
  t.enqueue segment.node (addressed segment.session pair)

/-- The exception of `generate_random_aes_key` leaves `kcpCallBack` before anything is
queued. -/
inductive SenderStep : Sender α → SenderEvent S → Sender α → Prop
  | kcpCallBack {t segment t'}
      (content : Bytes (payloadSize other (segment.buf.length + bufferPaddingSize))) :
      segment.node ∉ t.inUse → callBack A addressed t segment content = some t' →
      SenderStep t (.kcpCallBack segment) t'
  | thrown {t segment} : segment.node ∉ t.inUse → segment.calls.keyRand = none →
      SenderStep t (.kcpCallBack segment) t
  | sent {t i op ec t'} : t.queue.pending[i]? = some op → t.sendHandler i ec = some t' →
      SenderStep t (.sent i ec) t'

/-- Only complete frames are queued, and a failure leaves the queue alone and no node
behind. -/
structure Obeys (packet : α → Packet) (t : Sender α) (e : SenderEvent S) (t' : Sender α) :
    Prop where
  complete : ∀ element ∈ t'.queue.items, Complete A (packet element.datagram)
  untouched : ∀ segment, e = .kcpCallBack segment →
    ¬ (segment.calls.keyRand.isSome ∧ segment.calls.Encrypts) →
      t'.queue = t.queue ∧ segment.node ∉ t'.inUse

/-- `encrypt` fails only when the queue is full. -/
def FailsOnlyWhenFull (t : Sender α) : SenderEvent S → Prop
  | .kcpCallBack segment => segment.calls.keyRand.isSome →
      segment.calls.Encrypts ∨ 2048 < t.queue.items.length
  | .sent _ _ => True

end

/-! ### What is built -/

theorem room_of_segment {other : Int → Fin 4} {buf : List UInt8} (high : buf.length ≤ 1250) :
    buf.length + 84 ≤ payloadSize other (buf.length + bufferPaddingSize) := by
  have enough : buf.length + 128 ≤ payloadSize other ((buf.length + 128 : Nat) : Int) :=
    MemoryPool.le_payload other (by omega)
  exact Nat.le_trans (by omega) enough

/-- The `-1` of `encrypt` is a `uint32_t` and an `int` again before it is recorded. -/
theorem buildFrame_failure (A : AesGcm) {calls : EncryptCalls} {key : Bytes 32}
    (keyed : calls.keyRand = some key) (failed : ¬ calls.Encrypts) (sessionId : SessionId) {n : Nat}
    (node : Bytes n) {buf : List UInt8} (room : buf.length + 84 ≤ n)
    (small : buf.length + 84 < 2 ^ 31) :
    ∃ pair, buildFrame A calls sessionId node buf = some pair ∧ pair.len = -1 := by
  have dataSize : (UInt32.ofNat (buf.length + sessionIdSize)).toNat = buf.length + 16 :=
    UInt32.toNat_ofNat_of_lt' (by simp only [UInt32.size, sessionIdSize]; omega)
  obtain ⟨node₁, node₂, -, -, write₁, write₂, -⟩ := written_plain sessionId node room
  obtain ⟨out, encrypted⟩ := doEncrypt_failure A keyed failed node₂
    (.ofNat (buf.length + sessionIdSize)) (by omega) (by omega) (by omega)
  refine ⟨⟨out.toList, int32 (-1)⟩, ?_, rfl⟩
  simp only [buildFrame, write₁, write₂, encrypted, Option.bind_eq_bind, Option.bind_some]
  rfl

/-- Without a key nothing is built. -/
theorem keyed_of_buildFrame {A : AesGcm} {calls : EncryptCalls} {sessionId : SessionId} {n : Nat}
    {node : Bytes n} {buf : List UInt8} {pair : Packet} (high : buf.length ≤ 1250)
    (built : buildFrame A calls sessionId node buf = some pair) :
    ∃ key, calls.keyRand = some key := by
  cases keyed : calls.keyRand with
  | some key => exact ⟨key, rfl⟩
  | none =>
      simp only [buildFrame, Option.bind_eq_bind, Option.bind_eq_some_iff] at built
      obtain ⟨node₁, -, node₂, -, ⟨out, len⟩, encrypted, result⟩ := built
      have nonzero : ¬ UInt32.ofNat (buf.length + sessionIdSize) ≤ 0 := by
        rw [UInt32.le_iff_toNat_le, UInt32.toNat_zero,
          UInt32.toNat_ofNat_of_lt' (by simp only [UInt32.size, sessionIdSize]; omega)]
        simp [sessionIdSize]
      rw [doEncrypt, if_neg nonzero, keyed] at encrypted
      cases encrypted
      cases result

theorem buildFrame_complete (A : AesGcm) (sessionId : SessionId) {n : Nat} (node : Bytes n)
    {buf : List UInt8} (low : 24 ≤ buf.length) (high : buf.length ≤ 1250)
    (room : buf.length + 84 ≤ n) (key : Bytes 32) (iv : Bytes 12) :
    ∃ pair, buildFrame A (.success key iv) sessionId node buf = some pair ∧ Complete A pair := by
  refine ⟨_, buildFrame_success A key iv sessionId node room (by omega),
    sessionId, buf, key, iv, low, high, rfl, ?_⟩
  exact List.take_left' (sealFrame_size A key iv sessionId buf)

theorem not_complete_of_failure {A : AesGcm} {pair : Packet} (failed : pair.len = -1) :
    ¬ Complete A pair := by
  rintro ⟨-, segment, -, -, -, -, len, -⟩
  omega

/-! ### What is queued -/

section
variable {S α : Type} [Served S] {A : AesGcm} {other : Int → Fin 4} {addressed : S → Packet → α}
  {packet : α → Packet}

/-- The frame that a step builds, and what becomes of it. -/
theorem callBack_cases {t t' : Sender α} (holds : t.Holds) {segment : Outgoing S} {n : Nat}
    {content : Bytes n} (fresh : segment.node ∉ t.inUse)
    (done : callBack A addressed t segment content = some t') :
    ∃ pair, buildFrame A segment.calls (base segment.session).sessionId content segment.buf =
        some pair ∧
      Sender.Step t (.enqueue segment.node (addressed segment.session pair)) t' ∧
      t.Handed segment.node (addressed segment.session pair) t' := by
  obtain ⟨pair, built, handed⟩ := Option.bind_eq_some_iff.mp done
  have step := Sender.Step.enqueue fresh handed
  exact ⟨pair, built, step, Sender.handed_of_step holds step⟩

/-- What holds between the handlers of a run without an undetected failure. -/
structure Clean (A : AesGcm) (packet : α → Packet) (t : Sender α) : Prop where
  holds : t.Holds
  complete : ∀ element ∈ t.queue.items, Complete A (packet element.datagram)

theorem clean_kept (unaddressed : ∀ s pair, packet (addressed s pair) = pair) {t t' : Sender α}
    {e : SenderEvent S} (clean : Clean A packet t) (step : SenderStep A other addressed t e t')
    (good : FailsOnlyWhenFull t e) : Clean A packet t' ∧ Obeys A packet t e t' := by
  cases step with
  | @kcpCallBack segment _ content fresh done =>
      obtain ⟨pair, built, handed, outcome⟩ := callBack_cases clean.holds fresh done
      have holds := Sender.holds_step clean.holds handed
      cases outcome with
      | refused _ queue _ released =>
          have complete : ∀ element ∈ t'.queue.items, Complete A (packet element.datagram) :=
            queue ▸ clean.complete
          refine ⟨⟨holds, complete⟩, complete, ?_⟩
          rintro _ ⟨⟩ -
          exact ⟨queue, released⟩
      | accepted room items _ _ =>
          obtain ⟨key, keyed⟩ : ∃ key, segment.calls.keyRand = some key :=
            keyed_of_buildFrame segment.high built
          have encrypts : segment.calls.Encrypts :=
            (good (by simp [keyed])).resolve_right (not_lt.mpr room)
          obtain ⟨iv, calls⟩ := EncryptCalls.eq_success keyed encrypts
          obtain ⟨framed, success, whole⟩ := buildFrame_complete A (base segment.session).sessionId
            content segment.low segment.high (room_of_segment segment.high) key iv
          rw [calls, success] at built
          cases built
          have complete : ∀ element ∈ t'.queue.items, Complete A (packet element.datagram) := by
            intro element member
            rw [items, List.mem_append, List.mem_singleton] at member
            rcases member with old | rfl
            · exact clean.complete element old
            · rwa [unaddressed]
          refine ⟨⟨holds, complete⟩, complete, ?_⟩
          rintro _ ⟨⟩ failed
          exact absurd ⟨by simp [keyed], encrypts⟩ failed
  | thrown fresh _ =>
      refine ⟨clean, clean.complete, ?_⟩
      rintro _ ⟨⟩ -
      exact ⟨rfl, fresh⟩
  | @sent i op ec _ run handled =>
      obtain ⟨u, same, holds, -, items, -⟩ := Sender.sent_total clean.holds run ec
      cases same.symm.trans handled
      have complete : ∀ element ∈ t'.queue.items, Complete A (packet element.datagram) :=
        fun element member => clean.complete element (items ▸ List.mem_cons_of_mem _ member)
      refine ⟨⟨holds, complete⟩, complete, ?_⟩
      rintro _ ⟨⟩

/-- Otherwise the pair with the length `-1` joins the queue. -/
theorem obeys_lost (unaddressed : ∀ s pair, packet (addressed s pair) = pair) {t t' : Sender α}
    {e : SenderEvent S} (clean : Clean A packet t) (step : SenderStep A other addressed t e t')
    (bad : ¬ FailsOnlyWhenFull t e) : ¬ Obeys A packet t e t' := by
  intro obeys
  cases step with
  | @kcpCallBack segment _ content fresh done =>
      simp only [FailsOnlyWhenFull, Classical.not_imp, not_or] at bad
      obtain ⟨drawn, failed, room⟩ := bad
      obtain ⟨key, keyed⟩ := Option.isSome_iff_exists.mp drawn
      obtain ⟨pair, built, -, outcome⟩ := callBack_cases clean.holds fresh done
      obtain ⟨short, failure, len⟩ := buildFrame_failure A keyed failed
        (base segment.session).sessionId content (room_of_segment segment.high)
        (by have := segment.high; omega)
      cases built.symm.trans failure
      cases outcome with
      | refused full _ _ _ => exact room full
      | accepted _ items _ _ =>
          have queued := obeys.complete _ (items ▸ List.mem_append_right _ List.mem_cons_self)
          rw [unaddressed] at queued
          exact not_complete_of_failure len queued
  | thrown _ unkeyed => exact bad fun drawn => by simp [unkeyed] at drawn
  | sent => exact bad trivial

theorem obeying_iff (unaddressed : ∀ s pair, packet (addressed s pair) = pair)
    (es : List (SenderEvent S)) (t : Sender α) :
    Trace (Obeying (Obeys A packet) (SenderStep A other addressed)) .idle es t ↔
      Trace (Guarded FailsOnlyWhenFull (SenderStep A other addressed)) .idle es t :=
  obeying_iff_guarded (R := Obeys A packet) (I := Clean A packet) (G := FailsOnlyWhenFull)
    (fun _ _ _ => clean_kept unaddressed) (fun _ _ _ => obeys_lost unaddressed)
    ⟨Sender.idle_holds, by simp [Sender.idle, Pump.Queue.idle]⟩

/-- The `kcpCallBack` of a worker is a step of its sender. -/
theorem kcpCallBack_sender {w w' : Worker S α} {this : Nat} {segment : Outgoing S}
    (found : w.sessions this = some segment.session)
    {content : Bytes (payloadSize other (segment.buf.length + bufferPaddingSize))}
    (done : w.kcpCallBack A addressed segment.calls this content segment.buf = some w')
    {t : Sender α} (holds : t.Holds) (fresh : segment.node ∉ t.inUse)
    (same : t.queue.map Shared.datagram = w.udpSocketWaitForSendDeque) :
    ∃ t', SenderStep A other addressed t (.kcpCallBack segment) t' ∧
      t'.queue.map Shared.datagram = w'.udpSocketWaitForSendDeque := by
  simp only [kcpCallBack, found, Option.bind_eq_bind, Option.bind_some,
    Option.bind_eq_some_iff] at done
  obtain ⟨pair, built, q, pushed, placed⟩ := done
  cases placed
  obtain ⟨t', enqueued, -, -⟩ :=
    Sender.enqueue_total holds fresh (addressed segment.session pair)
  have called : callBack A addressed t segment content = some t' := by
    rw [callBack, built]
    exact enqueued
  have plain := Sender.step_plain (.enqueue fresh enqueued)
  refine ⟨t', .kcpCallBack content fresh called, ?_⟩
  rw [same] at plain
  cases plain with
  | enqueue done => exact Option.some.inj (done.symm.trans pushed)

end

abbrev HomeSenderStep (A : AesGcm) (other : Int → Fin 4) :=
  SenderStep (S := Home.Session) A other fun _ pair => pair

abbrev VpsSenderStep (A : AesGcm) (other : Int → Fin 4) :=
  SenderStep (S := Vps.Session) A other fun s pair => (s.homeClienEndpoint, pair)

/-- In every state of a run only complete frames are queued, and every failure leaves the
queue alone, exactly if no `encrypt` of the run fails while the queue has room. -/
theorem complete_iff_fails_only_when_full (A : AesGcm) (other : Int → Fin 4) :
    (∀ es t, Trace (Obeying (Obeys A id) (HomeSenderStep A other)) .idle es t ↔
      Trace (Guarded FailsOnlyWhenFull (HomeSenderStep A other)) .idle es t) ∧
    (∀ es t, Trace (Obeying (Obeys A Prod.snd) (VpsSenderStep A other)) .idle es t ↔
      Trace (Guarded FailsOnlyWhenFull (VpsSenderStep A other)) .idle es t) :=
  ⟨obeying_iff fun _ _ => rfl, obeying_iff fun _ _ => rfl⟩

/-- The first segment of a session, for which no IV can be drawn. -/
def ivless : Outgoing Home.Session where
  session := .create (.replicate 16 0)
  buf := List.replicate 24 0
  low := by decide
  high := by decide
  node := 4096
  calls := { EncryptCalls.success (.replicate 32 0) (.replicate 12 0) with ivRand := none }

theorem failure_is_queued : ¬ ∀ A other es t, Trace (HomeSenderStep A other) .idle es t →
    ∀ element ∈ t.queue.items, Complete A element.datagram := by
  intro always
  have failed : ¬ ivless.calls.Encrypts := fun encrypts => Bool.false_ne_true encrypts.1
  have keyed : ivless.calls.keyRand = some (.replicate 32 0) := rfl
  obtain ⟨pair, built, len⟩ := buildFrame_failure .sample keyed failed
    (base ivless.session).sessionId
    (.replicate (payloadSize (fun _ => 0) (ivless.buf.length + bufferPaddingSize)) 0)
    (room_of_segment ivless.high) (by decide)
  obtain ⟨t, enqueued, -, outcome⟩ := Sender.enqueue_total Sender.idle_holds
    (List.not_mem_nil (a := ivless.node)) pair
  have called : callBack .sample (fun _ pair => pair) .idle ivless
      (.replicate (payloadSize (fun _ => 0) (ivless.buf.length + bufferPaddingSize)) 0) =
        some t := by
    rw [callBack, built]
    exact enqueued
  have complete := always .sample (fun _ => 0) _ t
    (.single (.kcpCallBack _ List.not_mem_nil called))
  cases outcome with
  | refused full _ _ _ => exact absurd full (by decide)
  | accepted _ items _ _ =>
      rw [items] at complete
      exact not_complete_of_failure len
        (complete _ (List.mem_append_right _ List.mem_cons_self))

end TransparentProxyNet.Worker
