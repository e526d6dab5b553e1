import TransparentProxyNet.Worker.Rejected
import TransparentProxyNet.Worker.RoundTrip

/-! The receives of a worker, one after the other. The handler of each receive has to
start the next one. -/
namespace TransparentProxyNet
open Buffer Machine

namespace Worker
variable {S α ν : Type}

/-- What a receive handler gives to `inputToKcp`, and the id it looks up for it. -/
structure Segment where
  sessionId : SessionId
  len : Int
  data : List UInt8

/-- What the handlers find in their buffer. -/
def segment (A : AesGcm) (v : Worker S α) (bytesHadRead : Nat) (calls : DecryptCalls) :
    Option (Bytes bufferSize × Segment) := do
  let (buf, r) ← FastAesGcm.doDecrypt A calls v.udpReceiveBuffer (UInt32.ofNat bytesHadRead)
  let len := int32 r - sessionIdSize
  let sessionId ← read buf keyAndIvOffSet sessionIdSize
  return (buf, ⟨sessionId, len, data buf len⟩)

theorem decode_eq (A : AesGcm)
    (deliver : Worker S α → SessionId → Int → List UInt8 → Option (Worker S α)) (v : Worker S α)
    (bytesHadRead : Nat) (calls : DecryptCalls) :
    v.decode A deliver bytesHadRead calls =
      (v.segment A bytesHadRead calls).bind fun (buf, s) =>
        (deliver (v.setBuffer buf) s.sessionId s.len s.data).map rearm := by
  simp only [decode, segment, Option.bind_eq_bind, Option.bind_assoc, Option.pure_def,
    Option.bind_some, Option.map_eq_bind]
  rfl

/-- The end of a receive: with an error, or with a datagram. `new` is what a new session
starts from, if the handler makes one. -/
structure Completion (ν : Type) where
  ec : Bool
  datagram : List UInt8
  calls : ReceiveCalls
  new : ν

section
variable (handler : Worker S α → Bool → Nat → ReceiveCalls → ν → Option (Worker S α))
  (fed : Worker S α → Nat → DecryptCalls → List Segment)

/-- What comes of a completion, and the segments that are fed to sessions. If no receive
is outstanding then nothing does: the datagram stays where it is. -/
def complete (w : Worker S α) (c : Completion ν) : Option (Worker S α × List Segment) :=
  if w.receives = 0 then some (w, [])
  else if c.ec then
    (handler { w with receives := w.receives - 1 } true 0 c.calls c.new).map fun w => (w, [])
  else do
    let v ← w.arrive c.datagram
    let w ← handler v false (bytesHadRead c.datagram) c.calls c.new
    return (w, fed v (bytesHadRead c.datagram) c.calls.decrypt)

def completeAll (w : Worker S α) : List (Completion ν) → Option (Worker S α × List Segment)
  | [] => some (w, [])
  | c :: cs => do
    let (v, first) ← complete handler fed w c
    let (u, rest) ← completeAll v cs
    return (u, first ++ rest)

/-- The completions feed the sessions what they would without the errors, and after each of
them one receive is outstanding. -/
structure Undisturbed (w : Worker S α) (cs : List (Completion ν)) : Prop where
  same : (completeAll handler fed w cs).map Prod.snd =
    (completeAll handler fed w (cs.filter fun c => !c.ec)).map Prod.snd
  armed : ∀ first, first ≠ [] → first <+: cs → ∀ v segments,
    completeAll handler fed w first = some (v, segments) → v.receives = 1

end

section
variable {handler : Worker S α → Bool → Nat → ReceiveCalls → ν → Option (Worker S α)}
  {fed : Worker S α → Nat → DecryptCalls → List Segment} {w u : Worker S α} {c : Completion ν}
  {cs : List (Completion ν)}

theorem completeAll_cons {segments : List Segment}
    (run : completeAll handler fed w (c :: cs) = some (u, segments)) :
    ∃ v first rest, complete handler fed w c = some (v, first) ∧
      completeAll handler fed v cs = some (u, rest) ∧ segments = first ++ rest := by
  simp only [completeAll, Option.bind_eq_bind, Option.bind_eq_some_iff] at run
  obtain ⟨⟨v, first⟩, head, ⟨u, rest⟩, tail, eq⟩ := run
  cases eq
  exact ⟨v, first, rest, head, tail, rfl⟩

/-- What each of the completions keeps, all of them keep. -/
theorem completeAll_keeps {P : Worker S α → Prop}
    (kept : ∀ c ∈ cs, ∀ w v segments, P w → complete handler fed w c = some (v, segments) → P v)
    {segments : List Segment} (run : completeAll handler fed w cs = some (u, segments))
    (start : P w) : P u := by
  induction cs generalizing w segments with
  | nil =>
      cases run
      exact start
  | cons c cs ih =>
      obtain ⟨v, first, rest, head, tail, -⟩ := completeAll_cons run
      have next : P v := kept c List.mem_cons_self _ _ _ start head
      exact ih (fun c member => kept c (List.mem_cons_of_mem _ member)) tail next

end

/-! ### The receives outstanding -/

theorem run_receives [Served S] {w w' : Worker S α} {this : Nat} {f : S → Option S}
    (ran : w.run this f = some w') : w'.receives = w.receives := by
  obtain ⟨s, t, timeWheel, -, -, -, rfl⟩ := run_cases ran
  rfl

theorem common_receives [Served S] {A : AesGcm} {other : Int → Fin 4}
    {handle : S → Session.Event → Option S} {addressed : S → Packet → α} {w w' : Worker S α}
    {e : Event} (step : CommonStep A other handle addressed w e w') :
    w'.receives = w.receives := by
  cases step with
  | session _ _ _ ran => exact run_receives ran
  | kcpCallBack node called =>
      obtain ⟨q, requests, rfl⟩ := kcpCallBack_cases called
      rfl
  | sent _ _ => rfl
  | doCurrentTimeWheel _ => rfl

theorem arrive_receives {w v : Worker S α} {datagram : List UInt8}
    (arrived : w.arrive datagram = some v) : v.receives = w.receives - 1 := by
  obtain ⟨buf, -, rfl⟩ := Option.map_eq_some_iff.mp arrived
  rfl

theorem decode_receives {A : AesGcm}
    {deliver : Worker S α → SessionId → Int → List UInt8 → Option (Worker S α)}
    (kept : ∀ w sessionId len data w', deliver w sessionId len data = some w' →
      w'.receives = w.receives) {v w' : Worker S α} {bytesHadRead : Nat} {calls : DecryptCalls}
    (decoded : v.decode A deliver bytesHadRead calls = some w') : w'.receives = v.receives + 1 := by
  rw [decode_eq] at decoded
  obtain ⟨⟨buf, s⟩, -, mapped⟩ := Option.bind_eq_some_iff.mp decoded
  obtain ⟨u, delivered, rfl⟩ := Option.map_eq_some_iff.mp mapped
  have same : u.receives = v.receives := kept (v.setBuffer buf) _ _ _ _ delivered
  exact congrArg (· + 1) same

/-- A completion takes away the receive that is outstanding, and its handler starts `k` new
ones. -/
theorem complete_receives
    {handler : Worker S α → Bool → Nat → ReceiveCalls → ν → Option (Worker S α)}
    {fed : Worker S α → Nat → DecryptCalls → List Segment} {k : Bool → Nat}
    (starts : ∀ v ec bytesHadRead calls new w, handler v ec bytesHadRead calls new = some w →
      w.receives = v.receives + k ec) {w u : Worker S α} {c : Completion ν}
    {segments : List Segment} (completed : complete handler fed w c = some (u, segments)) :
    u.receives = if w.receives = 0 then 0 else w.receives - 1 + k c.ec := by
  unfold complete at completed
  by_cases none : w.receives = 0
  · rw [if_pos none] at completed
    cases completed
    rw [if_pos none, none]
  · rw [if_neg none] at completed ⊢
    cases error : c.ec with
    | true =>
        rw [if_pos error] at completed
        obtain ⟨x, handled, eq⟩ := Option.map_eq_some_iff.mp completed
        cases eq
        exact starts _ _ _ _ _ _ handled
    | false =>
        rw [if_neg (by rw [error]; exact Bool.false_ne_true)] at completed
        simp only [Option.bind_eq_bind, Option.bind_eq_some_iff] at completed
        obtain ⟨v, arrived, x, handled, eq⟩ := completed
        cases eq
        rw [starts _ _ _ _ _ _ handled, arrive_receives arrived]

end Worker

namespace Home
open Worker (Completion Segment bytesHadRead)

variable {A : AesGcm} {other : Int → Fin 4} {w w' : Worker}

theorem deliver_receives {calls : Worker.ReceiveCalls} {sessionId : SessionId} {len : Int}
    {data : List UInt8} (delivered : deliver calls w sessionId len data = some w') :
    w'.receives = w.receives := by
  unfold deliver at delivered
  split at delivered
  · exact Worker.run_receives delivered
  · cases delivered
    rfl

/-- The exit with an error is the one that starts no receive. -/
theorem receiveHandler_receives {ec : Bool} {byteHadRead : Nat} {calls : Worker.ReceiveCalls}
    (handled : receiveHandler A w ec byteHadRead calls = some w') :
    w'.receives = w.receives + if ec then 0 else 1 := by
  cases ec with
  | true =>
      cases handled
      rfl
  | false =>
      rw [receiveHandler, if_neg Bool.false_ne_true] at handled
      exact Worker.decode_receives (fun _ _ _ _ _ => deliver_receives) handled

theorem step_receives {e : Worker.Event} (step : Step A other w e w') :
    w'.receives ≤ w.receives := by
  cases step with
  | common step => exact (Worker.common_receives step).le
  | receive waiting arrived received =>
      have armed := receiveHandler_receives received
      rw [Worker.arrive_receives arrived, if_neg Bool.false_ne_true] at armed
      omega
  | receiveError waiting received =>
      cases received
      exact Nat.sub_le ..
  | registerSession unused new registered => exact (Worker.run_receives registered).le

theorem reachable_receives (reachable : Reachable (Step A other) Worker.Started w) :
    w.receives ≤ 1 := by
  refine reachable.invariant (I := fun w => w.receives ≤ 1) ?_ ?_
  · rintro w ⟨wheel, buf, -, rfl⟩
    exact Nat.le_refl 1
  · exact fun _ _ _ few step => (step_receives step).trans few

/-- The handler with its arguments in the order of the other program. -/
def handler (A : AesGcm) (w : Worker) (ec : Bool) (byteHadRead : Nat) (calls : Worker.ReceiveCalls)
    (_ : Unit) : Option Worker := receiveHandler A w ec byteHadRead calls

/-- Segments of sessions that do not exist are dropped. -/
def fed (A : AesGcm) (v : Worker) (byteHadRead : Nat) (calls : DecryptCalls) : List Segment :=
  match v.segment A byteHadRead calls with
  | some (_, s) => if (v.sessionMap s.sessionId).isSome then [s] else []
  | none => []

theorem deliver_total (h : w.Holds) (calls : Worker.ReceiveCalls) (sessionId : SessionId)
    (len : Int) (data : List UInt8) : ∃ w', deliver calls w sessionId len data = some w' := by
  cases entry : w.sessionMap sessionId with
  | none => exact ⟨w, by rw [deliver, entry]⟩
  | some this =>
      obtain ⟨s, w', -, -, ran, -⟩ := Worker.fed_known (S := Session) h entry
        (inputToKcp_total len (calls.ikcp data) calls.old) fun _ _ => handled_inputToKcp
      exact ⟨w', by rw [deliver, entry]; exact ran⟩

/-- A completion is a step, and one that the code survives. -/
theorem complete_step (other : Int → Fin 4) (h : w.Holds) (waiting : w.receives ≠ 0)
    (c : Completion Unit) :
    ∃ v segments, Worker.complete (handler A) (fed A) w c = some (v, segments) ∧
      Step A other w (.receive c.ec (if c.ec then [] else c.datagram)) v := by
  obtain ⟨ec, datagram, calls, new⟩ := c
  have waiting' : 0 < w.receives := Nat.pos_of_ne_zero waiting
  cases ec with
  | true =>
      have handled : receiveHandler A { w with receives := w.receives - 1 } true 0 calls =
          some { w with receives := w.receives - 1 } := rfl
      refine ⟨_, [], ?_, .receiveError waiting' handled⟩
      rw [Worker.complete, if_neg waiting]
      rfl
  | false =>
      obtain ⟨v, out, r, sessionId, decrypted, -⟩ :=
        Worker.decrypted_total A w datagram calls.decrypt
      have holds : (v.setBuffer out).Holds := (h.arrive decrypted.arrived).setBuffer out
      obtain ⟨u, delivered⟩ := deliver_total holds calls sessionId (int32 r - sessionIdSize)
        (Worker.data out (int32 r - sessionIdSize))
      have handled : receiveHandler A v false (bytesHadRead datagram) calls = some u.rearm := by
        rw [receiveHandler, if_neg Bool.false_ne_true, decrypted.decode, delivered]
        rfl
      refine ⟨u.rearm, fed A v (bytesHadRead datagram) calls.decrypt, ?_,
        .receive waiting' decrypted.arrived handled⟩
      rw [Worker.complete, if_neg waiting, if_neg Bool.false_ne_true, decrypted.arrived]
      simp only [Option.bind_eq_bind, Option.bind_some, handler, handled]
      rfl

theorem complete_error (w : Worker) {c : Completion Unit} (error : c.ec = true) :
    Worker.complete (handler A) (fed A) w c = some ({ w with receives := w.receives - 1 }, []) := by
  by_cases none : w.receives = 0
  · have same : w.receives - 1 = w.receives := by omega
    rw [Worker.complete, if_pos none, same]
  · rw [Worker.complete, if_neg none, if_pos error]
    rfl

theorem complete_receives {c : Completion Unit} {v : Worker} {segments : List Segment}
    (completed : Worker.complete (handler A) (fed A) w c = some (v, segments)) :
    v.receives = if c.ec then w.receives - 1 else w.receives := by
  rw [Worker.complete_receives (k := fun ec => if ec then 0 else 1)
    (fun _ _ _ _ _ _ handled => receiveHandler_receives handled) completed]
  split <;> split <;> omega

/-- Without a receive nothing more is fed to any session. -/
theorem completeAll_deaf (none : w.receives = 0) (cs : List (Completion Unit)) :
    Worker.completeAll (handler A) (fed A) w cs = some (w, []) := by
  induction cs with
  | nil => rfl
  | cons c cs ih =>
      simp only [Worker.completeAll, Worker.complete, if_pos none, Option.bind_eq_bind,
        Option.bind_some, ih]
      rfl

theorem completeAll_total (h : w.Holds) (cs : List (Completion Unit)) :
    ∃ v segments, Worker.completeAll (handler A) (fed A) w cs = some (v, segments) := by
  induction cs generalizing w with
  | nil => exact ⟨w, [], rfl⟩
  | cons c cs ih =>
      by_cases none : w.receives = 0
      · exact ⟨w, [], completeAll_deaf none _⟩
      · obtain ⟨v, first, completed, step⟩ := complete_step (A := A) (fun _ => 0) h none c
        obtain ⟨u, rest, run⟩ := ih (step_holds h step)
        refine ⟨u, first ++ rest, ?_⟩
        simp only [Worker.completeAll, completed, run, Option.bind_eq_bind, Option.bind_some]
        rfl

/-- One error is enough. -/
theorem completeAll_error (few : w.receives ≤ 1) {cs : List (Completion Unit)}
    {c : Completion Unit} (member : c ∈ cs) (error : c.ec = true) {u : Worker}
    {segments : List Segment}
    (run : Worker.completeAll (handler A) (fed A) w cs = some (u, segments)) :
    u.receives = 0 := by
  induction cs generalizing w segments with
  | nil => cases member
  | cons d cs ih =>
      obtain ⟨v, first, rest, head, tail, -⟩ := Worker.completeAll_cons run
      have counted := complete_receives head
      rcases List.mem_cons.mp member with rfl | later
      · rw [if_pos error] at counted
        have none : v.receives = 0 := by omega
        cases (completeAll_deaf none cs).symm.trans tail
        exact none
      · refine ih ?_ later tail
        rw [counted]
        split <;> omega

theorem undisturbed_iff (h : w.Holds) (few : w.receives ≤ 1) (cs : List (Completion Unit)) :
    Worker.Undisturbed (handler A) (fed A) w cs ↔
      cs = [] ∨ w.receives = 1 ∧ ∀ c ∈ cs, c.ec = false := by
  constructor
  · intro undisturbed
    cases cs with
    | nil => exact .inl rfl
    | cons c cs =>
        right
        constructor
        · obtain ⟨v, segments, run⟩ := completeAll_total h [c]
          have armed := undisturbed.armed [c] (List.cons_ne_nil _ _) ⟨cs, rfl⟩ v segments run
          obtain ⟨v', first, rest, head, tail, -⟩ := Worker.completeAll_cons run
          cases tail
          have counted := complete_receives head
          split at counted <;> omega
        · obtain ⟨v, segments, run⟩ := completeAll_total h (c :: cs)
          have armed :=
            undisturbed.armed _ (List.cons_ne_nil _ _) (List.prefix_refl _) v segments run
          intro d member
          by_contra error
          rw [completeAll_error few member (by simpa using error) run] at armed
          cases armed
  · rintro (rfl | ⟨one, clean⟩)
    · refine ⟨rfl, ?_⟩
      intro first some part
      exact absurd (List.prefix_nil.mp part) some
    · constructor
      · rw [List.filter_eq_self.mpr]
        intro c member
        rw [clean c member]
        rfl
      · intro first _ part v segments run
        refine Worker.completeAll_keeps (P := fun w => w.receives = 1) ?_ run one
        intro c member w v segments one completed
        rw [complete_receives completed, clean c (part.subset member)]
        exact one

end Home

namespace Vps
open Worker (Completion Segment bytesHadRead)

variable {A : AesGcm} {other : Int → Fin 4} {w w' : Worker}

theorem registerSession_receives {sessionId : SessionId} {this : Nat} {nextTime : UInt32}
    (registered : registerSession w sessionId this nextTime = some w') :
    w'.receives = w.receives := by
  unfold registerSession at registered
  exact (Worker.run_receives registered).trans rfl

theorem deliver_receives {calls : Worker.ReceiveCalls} {new : NewSession} {sessionId : SessionId}
    {len : Int} {data : List UInt8} (delivered : deliver calls new w sessionId len data = some w') :
    w'.receives = w.receives := by
  unfold deliver at delivered
  split at delivered
  · exact Worker.run_receives delivered
  · simp only [Option.bind_eq_bind, Option.bind_eq_some_iff] at delivered
    obtain ⟨v, registered, ran⟩ := delivered
    have started : v.receives = w.receives := registerSession_receives
      (w := w.construct new.this (.create new.sessionId new.homeClienEndpoint)) registered
    exact (Worker.run_receives ran).trans started

/-- Every exit starts a receive. -/
theorem receiveHandler_receives {ec : Bool} {bytesHadRead : Nat} {calls : Worker.ReceiveCalls}
    {new : NewSession} (handled : receiveHandler A w ec bytesHadRead calls new = some w') :
    w'.receives = w.receives + 1 := by
  unfold receiveHandler at handled
  split at handled
  · cases handled
    rfl
  · split at handled
    · cases handled
      rfl
    · exact Worker.decode_receives (fun _ _ _ _ _ => deliver_receives) handled

theorem step_receives {e : Worker.Event} (step : Step A other w e w') :
    w'.receives = w.receives := by
  cases step with
  | common step => exact Worker.common_receives step
  | receive waiting arrived _ received =>
      have armed := receiveHandler_receives received
      rw [Worker.arrive_receives arrived] at armed
      omega
  | receiveError waiting received =>
      have armed : w'.receives = w.receives - 1 + 1 := receiveHandler_receives received
      omega

theorem reachable_receives (reachable : Reachable (Step A other) Worker.Started w) :
    w.receives = 1 := by
  refine reachable.invariant (I := fun w => w.receives = 1) ?_ ?_
  · rintro w ⟨wheel, buf, -, rfl⟩
    rfl
  · exact fun _ _ _ one step => (step_receives step).trans one

def fed (A : AesGcm) (v : Worker) (bytesHadRead : Nat) (calls : DecryptCalls) : List Segment :=
  if bytesHadRead = 0 then []
  else
    match v.segment A bytesHadRead calls with
    | some (_, s) => [s]
    | none => []

theorem deliver_total (h : w.Holds) (calls : Worker.ReceiveCalls) {new : NewSession}
    (unused : w.sessions new.this = none) (sessionId : SessionId) (len : Int)
    (data : List UInt8) : ∃ w', deliver calls new w sessionId len data = some w' := by
  have input := inputToKcp_total len (calls.ikcp data) calls.old
  cases entry : w.sessionMap sessionId with
  | none =>
      obtain ⟨made, ran, holds, -, stored⟩ := registerSession_eq h unused entry
      obtain ⟨s, w', -, -, ran', -⟩ := Worker.fed_known (S := Session) holds
        (by rw [stored, Function.update_self]) input fun _ _ => handled_inputToKcp
      refine ⟨w', ?_⟩
      rw [deliver, entry]
      simp only [Option.bind_eq_bind, ran, Option.bind_some]
      exact ran'
  | some this =>
      obtain ⟨s, w', -, -, ran, -⟩ := Worker.fed_known (S := Session) h entry input
        fun _ _ => handled_inputToKcp
      exact ⟨w', by rw [deliver, entry]; exact ran⟩

theorem complete_step (other : Int → Fin 4) (h : w.Holds) (waiting : w.receives ≠ 0)
    {c : Completion NewSession} (unused : w.sessions c.new.this = none) :
    ∃ v segments, Worker.complete (receiveHandler A) (fed A) w c = some (v, segments) ∧
      Step A other w (.receive c.ec (if c.ec then [] else c.datagram)) v := by
  obtain ⟨ec, datagram, calls, new⟩ := c
  have waiting' : 0 < w.receives := Nat.pos_of_ne_zero waiting
  cases ec with
  | true =>
      have handled : receiveHandler A { w with receives := w.receives - 1 } true 0 calls new =
          some (listen { w with receives := w.receives - 1 }) := rfl
      refine ⟨_, [], ?_, .receiveError waiting' handled⟩
      rw [Worker.complete, if_neg waiting]
      rfl
  | false =>
      obtain ⟨v, out, r, sessionId, decrypted, -⟩ :=
        Worker.decrypted_total A w datagram calls.decrypt
      obtain ⟨buf, -, arrived⟩ := Option.map_eq_some_iff.mp decrypted.arrived
      have holds : (v.setBuffer out).Holds := (h.arrive decrypted.arrived).setBuffer out
      have free : (v.setBuffer out).sessions new.this = none := by
        rw [← arrived]
        exact unused
      obtain ⟨u, delivered⟩ := deliver_total holds calls free sessionId (int32 r - sessionIdSize)
        (Worker.data out (int32 r - sessionIdSize))
      have handled : ∃ x, receiveHandler A v false (bytesHadRead datagram) calls new = some x := by
        rw [receiveHandler, if_neg Bool.false_ne_true]
        split
        · exact ⟨_, rfl⟩
        · exact ⟨u.rearm, by rw [decrypted.decode, delivered]; rfl⟩
      obtain ⟨x, handled⟩ := handled
      refine ⟨x, fed A v (bytesHadRead datagram) calls.decrypt, ?_,
        .receive waiting' decrypted.arrived unused handled⟩
      rw [Worker.complete, if_neg waiting, if_neg Bool.false_ne_true, decrypted.arrived]
      simp only [Option.bind_eq_bind, Option.bind_some, handled]
      rfl

/-- An error passes without a trace. -/
theorem complete_error (w : Worker) {c : Completion NewSession} (error : c.ec = true) :
    Worker.complete (receiveHandler A) (fed A) w c = some (w, []) := by
  by_cases none : w.receives = 0
  · rw [Worker.complete, if_pos none]
  · have again : w.receives - 1 + 1 = w.receives := Nat.succ_pred none
    rw [Worker.complete, if_neg none, if_pos error]
    simp [receiveHandler, listen, Worker.rearm, again]

theorem complete_receives {c : Completion NewSession} {v : Worker} {segments : List Segment}
    (completed : Worker.complete (receiveHandler A) (fed A) w c = some (v, segments)) :
    v.receives = w.receives := by
  rw [Worker.complete_receives (k := fun _ => 1)
    (fun _ _ _ _ _ _ handled => receiveHandler_receives handled) completed]
  split <;> omega

theorem completeAll_filter (w : Worker) (cs : List (Completion NewSession)) :
    Worker.completeAll (receiveHandler A) (fed A) w (cs.filter fun c => !c.ec) =
      Worker.completeAll (receiveHandler A) (fed A) w cs := by
  induction cs generalizing w with
  | nil => rfl
  | cons c cs ih =>
      cases error : c.ec with
      | true =>
          rw [List.filter_cons_of_neg (by simp [error]), ih]
          simp [Worker.completeAll, complete_error w error]
      | false =>
          rw [List.filter_cons_of_pos (by simp [error])]
          simp only [Worker.completeAll, ih]

theorem undisturbed (one : w.receives = 1) (cs : List (Completion NewSession)) :
    Worker.Undisturbed (receiveHandler A) (fed A) w cs := by
  constructor
  · rw [completeAll_filter]
  · intro first _ _ v segments run
    refine Worker.completeAll_keeps (P := fun w => w.receives = 1) ?_ run one
    intro c _ w v segments one completed
    exact (complete_receives completed).trans one

end Vps

/-- The VPS side goes on receiving after any errors, and feeds its sessions what it would
have without them. The home side does so only as long as there is no error; after one it
feeds no session any more. -/
theorem receive_errors (A : AesGcm) (other : Int → Fin 4) :
    (∀ w, Reachable (Home.Step A other) Worker.Started w → ∀ cs,
      (Worker.Undisturbed (Home.handler A) (Home.fed A) w cs ↔
        cs = [] ∨ w.receives = 1 ∧ ∀ c ∈ cs, c.ec = false) ∧
      ∀ c, c.ec = true → (Worker.completeAll (Home.handler A) (Home.fed A) w (c :: cs)).map
        Prod.snd = some []) ∧
    (∀ w, Reachable (Vps.Step A other) Worker.Started w → ∀ cs,
      Worker.Undisturbed (Vps.receiveHandler A) (Vps.fed A) w cs ∧
      ∀ c, w.sessions c.new.this = none → ∃ v segments,
        Worker.complete (Vps.receiveHandler A) (Vps.fed A) w c = some (v, segments) ∧
        Vps.Step A other w (.receive c.ec (if c.ec then [] else c.datagram)) v) := by
  constructor
  · intro w reachable cs
    have few := Home.reachable_receives reachable
    refine ⟨Home.undisturbed_iff (Home.reachable_holds reachable) few cs, ?_⟩
    intro c error
    have none : ({ w with receives := w.receives - 1 } : Home.Worker).receives = 0 :=
      Nat.sub_eq_zero_of_le few
    simp only [Worker.completeAll, Home.complete_error w error, Option.bind_eq_bind,
      Option.bind_some, Home.completeAll_deaf none cs]
    rfl
  · intro w reachable cs
    have one := Vps.reachable_receives reachable
    refine ⟨Vps.undisturbed one cs, ?_⟩
    intro c unused
    exact Vps.complete_step other (Vps.reachable_holds reachable) (by omega) unused

/-- One error, and the home side has no receive outstanding. -/
theorem one_error_ends_reception :
    ¬ ∀ (A : AesGcm) (other : Int → Fin 4) w, Reachable (Home.Step A other) Worker.Started w →
      ∀ cs, Worker.Undisturbed (Home.handler A) (Home.fed A) w cs := by
  intro always
  obtain ⟨w, started, -, -, receives⟩ := Worker.exists_started (S := Home.Session) (α := Packet)
  have undisturbed := always .sample (fun _ => 0) w (.init started)
    [⟨true, [], ⟨.success, fun _ => ⟨0, []⟩, fun _ => []⟩, ()⟩]
  rw [Home.undisturbed_iff (Worker.started_holds started) (by omega)] at undisturbed
  simp at undisturbed

end TransparentProxyNet
