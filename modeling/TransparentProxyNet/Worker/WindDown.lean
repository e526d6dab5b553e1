import TransparentProxyNet.Session.Closing
import TransparentProxyNet.Worker.RoundTrip

/-! What still happens in a session once it is closed. Everything that was in progress has
ended, so only handlers are left to run, and each of them leaves less behind. -/
namespace TransparentProxyNet
open Machine Pump

namespace Session

/-- The handlers that an ended read may still bring about: its own, and after data that of
the next read, which fails. -/
def readLeft : Option ReadResult → Nat
  | some (.data _) => 2
  | _ => 1

/-- After a connect that succeeded a read and a write are started, which fail. -/
def connectLeft (outcome : Option Bool) : Nat := if outcome = some true then 3 else 1

def leftovers (s : Session) : Nat :=
  (s.reads.map readLeft).sum + s.tcpDataWaitForSendDeque.pending.length +
    (s.connects.map fun c => connectLeft c.2).sum

theorem readLeft_pos (r : Option ReadResult) : 1 ≤ readLeft r := by
  unfold readLeft
  split <;> decide

theorem connectLeft_pos (outcome : Option Bool) : 1 ≤ connectLeft outcome := by
  unfold connectLeft
  split <;> decide

def broughtData : Option ReadResult → Bool
  | some (.data _) => true
  | _ => false

/-- The session is closed, and nothing is in progress on its socket. -/
structure Over (s : Session) : Prop where
  closed : s.sessionClose = true
  reads : ∀ r ∈ s.reads, r.isSome
  writes : ∀ op ∈ s.tcpDataWaitForSendDeque.pending, op.outcome.isSome
  connects : ∀ c ∈ s.connects, c.2.isSome

/-- What one step may do to a closed session. KCP is given what reads had brought before. -/
structure Unwinds (s : Session) (e : Event) (t : Session) : Prop where
  past : t.Over
  fewer : t.leftovers + (if Worker.onSocket e then 1 else 0) ≤ s.leftovers
  sent : t.kcp.sent.length + t.reads.countP broughtData ≤
    s.kcp.sent.length + s.reads.countP broughtData

section
variable {s t : Session}

theorem sum_eraseIdx {α : Type} (f : α → Nat) {l : List α} {i : Nat} {a : α}
    (there : l[i]? = some a) : ((l.eraseIdx i).map f).sum + f a = (l.map f).sum := by
  obtain ⟨bound, rfl⟩ := List.getElem?_eq_some_iff.mp there
  have same := ((List.getElem_cons_eraseIdx_perm bound).map f).sum_eq
  rw [List.map_cons, List.sum_cons] at same
  omega

theorem countP_eraseIdx {α : Type} (p : α → Bool) {l : List α} {i : Nat} {a : α}
    (there : l[i]? = some a) :
    (l.eraseIdx i).countP p + (if p a then 1 else 0) = l.countP p := by
  obtain ⟨bound, rfl⟩ := List.getElem?_eq_some_iff.mp there
  rw [← (List.getElem_cons_eraseIdx_perm bound).countP_eq, List.countP_cons]

theorem closeSession_closed (closed : s.sessionClose = true) : s.closeSession = s := if_pos closed

theorem over_closeSession (unclosed : s.sessionClose = false) : s.closeSession.Over := by
  rw [closeSession, if_neg (by simp [unclosed])]
  refine ⟨rfl, ?_, ?_, ?_⟩
  · intro r member
    obtain ⟨q, -, rfl⟩ := List.mem_map.mp member
    rfl
  · intro op member
    obtain ⟨q, -, rfl⟩ := List.mem_map.mp member
    rfl
  · intro c member
    obtain ⟨q, -, rfl⟩ := List.mem_map.mp member
    rfl

theorem Unwinds.same (h : s.Over) {e : Event} (off : Worker.onSocket e = false) :
    Unwinds s e s := ⟨h, by simp [off], Nat.le_refl _⟩

/-- Reading from a closed socket fails at once. -/
theorem receiveTcpMessage_closed (closed : s.sessionClose = true) :
    s.receiveTcpMessage = { s with reads := s.reads ++ [some .error] } := by
  rw [receiveTcpMessage, if_pos closed]

theorem Over.receiveTcpMessage (h : s.Over) : s.receiveTcpMessage.Over ∧
    s.receiveTcpMessage.leftovers = s.leftovers + 1 ∧
    s.receiveTcpMessage.reads.countP broughtData = s.reads.countP broughtData := by
  rw [receiveTcpMessage_closed h.closed]
  refine ⟨⟨h.closed, ?_, h.writes, h.connects⟩, ?_, ?_⟩
  · intro r member
    rcases List.mem_append.mp member with old | new
    · exact h.reads r old
    · cases List.mem_singleton.mp new
      rfl
  · simp only [leftovers, List.map_append, List.sum_append, List.map_cons, List.map_nil,
      List.sum_cons, List.sum_nil, readLeft]
    omega
  · simp [List.countP_append, broughtData]

theorem Over.checkTrafficStatus (h : s.Over) : s.checkTrafficStatus.Over ∧
    s.checkTrafficStatus.leftovers ≤ s.leftovers + 1 ∧
    s.checkTrafficStatus.reads.countP broughtData = s.reads.countP broughtData ∧
    s.checkTrafficStatus.kcp = s.kcp := by
  unfold Session.checkTrafficStatus
  split
  · exact ⟨⟨h.closed, h.reads, h.writes, h.connects⟩, Nat.le_succ _, rfl, rfl⟩
  · obtain ⟨past, more, data⟩ := h.receiveTcpMessage
    exact ⟨past, more.le, data, rfl⟩

theorem Over.eraseRead (h : s.Over) (i : Nat) : Over { s with reads := s.reads.eraseIdx i } :=
  ⟨h.closed, fun r member => h.reads r (List.mem_of_mem_eraseIdx member), h.writes, h.connects⟩

/-- A read's handler that starts nothing new. -/
theorem Over.unwinds_eraseRead (h : s.Over) {i : Nat} {result : ReadResult}
    (enabled : s.Enabled (.readHandler i result)) :
    Unwinds s (.readHandler i result) { s with reads := s.reads.eraseIdx i } := by
  have sum := sum_eraseIdx readLeft enabled
  have least := readLeft_pos (some result)
  refine ⟨h.eraseRead i, ?_, Nat.add_le_add_left (List.eraseIdx_sublist ..).countP_le _⟩
  simp only [leftovers, Worker.onSocket, if_true]
  omega

theorem Over.receiveHandler (h : s.Over) {i : Nat} {result : ReadResult}
    (enabled : s.Enabled (.readHandler i result)) :
    Unwinds s (.readHandler i result) (s.receiveHandler i result) := by
  have erased := h.unwinds_eraseRead enabled
  cases result with
  | eof =>
      rw [Session.receiveHandler, closeSession_closed erased.past.closed]
      exact erased
  | error =>
      rw [Session.receiveHandler, closeSession_closed erased.past.closed]
      exact erased
  | data bytes =>
      have sum := sum_eraseIdx readLeft enabled
      have data := countP_eraseIdx broughtData enabled
      simp only [readLeft, broughtData, if_true] at sum data
      simp only [Session.receiveHandler]
      split
      · exact erased
      · obtain ⟨u, sent⟩ : ∃ u, u = { s with
            reads := s.reads.eraseIdx i
            kcp := s.kcp.ikcp_send (CmdStatus.normal.bytes ++ bytes) } := ⟨_, rfl⟩
        have past : u.Over := by
          rw [sent]
          exact ⟨h.closed, erased.past.reads, h.writes, h.connects⟩
        obtain ⟨past', more, same, kcp⟩ := past.checkTrafficStatus
        rw [← sent]
        refine ⟨past', ?_, ?_⟩
        · rw [sent] at more ⊢
          simp only [leftovers, Worker.onSocket, if_true] at more ⊢
          omega
        · rw [same, kcp, sent]
          simp only [Kcp.ikcp_send, List.length_append, List.length_singleton]
          omega

theorem Over.setDeque (h : s.Over) {q : Queue Packet}
    (ended : ∀ op ∈ q.pending, op.outcome.isSome) : (s.setDeque q).Over ∧
    (s.setDeque q).leftovers + s.tcpDataWaitForSendDeque.pending.length =
      s.leftovers + q.pending.length := by
  refine ⟨⟨h.closed, h.reads, ended, h.connects⟩, ?_⟩
  simp only [leftovers, Session.setDeque]
  omega

/-- A write's handler leaves one operation less. -/
theorem Over.unwinds_setDeque (h : s.Over) {i : Nat} {ec : Bool}
    (enabled : s.Enabled (.writeHandler i ec)) {q : Queue Packet}
    (pending : q.pending = s.tcpDataWaitForSendDeque.pending.eraseIdx i) :
    Unwinds s (.writeHandler i ec) (s.setDeque q) := by
  obtain ⟨op, run, -⟩ := Option.map_eq_some_iff.mp enabled
  have one := List.length_eraseIdx_add_one (List.getElem?_eq_some_iff.mp run).1
  obtain ⟨past, more⟩ := h.setDeque (q := q) (by
    rw [pending]
    exact fun op member => h.writes op (List.mem_of_mem_eraseIdx member))
  refine ⟨past, ?_, Nat.le_refl _⟩
  rw [pending] at more
  simp only [Worker.onSocket, if_true]
  omega

theorem Over.eraseConnect (h : s.Over) {i : Nat} {c : Endpoint × Option Bool}
    (there : s.connects[i]? = some c) (currentCmdStatus : CmdStatus) :
    Over { s with connects := s.connects.eraseIdx i, currentCmdStatus } ∧
    leftovers { s with connects := s.connects.eraseIdx i, currentCmdStatus } + connectLeft c.2 =
      s.leftovers := by
  refine ⟨⟨h.closed, h.reads, h.writes,
    fun c member => h.connects c (List.mem_of_mem_eraseIdx member)⟩, ?_⟩
  have sum := sum_eraseIdx (fun c => connectLeft c.2) there
  simp only [leftovers]
  omega

/-- Nothing is in progress that could end. -/
theorem Over.done (h : s.Over) : (∀ i result, ¬ s.Enabled (.readDone i result)) ∧
    (∀ i ok, ¬ s.Enabled (.writeDone i ok)) ∧ ∀ i ok, ¬ s.Enabled (.connectDone i ok) := by
  refine ⟨?_, ?_, ?_⟩
  · rintro i result ⟨running, -⟩
    cases h.reads none (List.mem_of_getElem? running)
  · intro i ok enabled
    obtain ⟨op, run, running⟩ := Option.map_eq_some_iff.mp enabled
    have ended := h.writes op (List.mem_of_getElem? run)
    rw [running] at ended
    cases ended
  · intro i ok enabled
    obtain ⟨c, run, running⟩ := Option.map_eq_some_iff.mp enabled
    have ended := h.connects c (List.mem_of_getElem? run)
    rw [running] at ended
    cases ended

/-- When no handler can run any more, nothing is outstanding. -/
theorem Over.idle (h : s.Over) (none : ∀ e, Worker.onSocket e → ¬ s.Enabled e) :
    s.reads = [] ∧ s.connects = [] ∧ s.tcpDataWaitForSendDeque.pending = [] := by
  refine ⟨?_, ?_, ?_⟩
  · cases reads : s.reads with
    | nil => rfl
    | cons r rest =>
        obtain ⟨result, rfl⟩ := Option.isSome_iff_exists.mp (h.reads r (by simp [reads]))
        exact absurd (by simp [Enabled, reads]) (none (.readHandler 0 result) rfl)
  · cases connects : s.connects with
    | nil => rfl
    | cons c rest =>
        obtain ⟨ok, known⟩ := Option.isSome_iff_exists.mp (h.connects c (by simp [connects]))
        exact absurd (by simp [Enabled, connects, known]) (none (.connectHandler 0 (!ok)) rfl)
  · cases pending : s.tcpDataWaitForSendDeque.pending with
    | nil => rfl
    | cons op rest =>
        obtain ⟨ok, known⟩ := Option.isSome_iff_exists.mp (h.writes op (by simp [pending]))
        exact absurd (by simp [Enabled, pending, known]) (none (.writeHandler 0 (!ok)) rfl)

end
end Session

namespace Home
open TransparentProxyNet.Session (Over Unwinds closeSession_closed over_closeSession)

variable {s t : Session} {e : Session.Event}

/-- A home session connects to nothing, and has one read outstanding at most. -/
structure Tidy (s : Session) : Prop where
  connects : s.connects = []
  oneRead : s.reads.length ≤ 1
  busy : s.trafficBusy → s.reads = []

theorem Tidy.of_same (h : Tidy s) (connects : t.connects = s.connects) (reads : t.reads = s.reads)
    (busy : t.trafficBusy = s.trafficBusy) : Tidy t :=
  ⟨connects.trans h.connects, reads ▸ h.oneRead, by rw [busy, reads]; exact h.busy⟩

theorem Tidy.eraseRead (h : Tidy s) (i : Nat) : Tidy { s with reads := s.reads.eraseIdx i } := by
  refine ⟨h.connects, (List.eraseIdx_sublist ..).length_le.trans h.oneRead, ?_⟩
  intro busy
  exact List.sublist_nil.mp (h.busy busy ▸ List.eraseIdx_sublist ..)

theorem Tidy.closeSession (h : Tidy s) : Tidy s.closeSession := by
  unfold TransparentProxyNet.Session.closeSession
  split
  · exact h
  · refine ⟨by simp [h.connects], by simpa using h.oneRead, ?_⟩
    intro busy
    simp [h.busy busy]

theorem tidy_receiveTcpMessage (connects : s.connects = []) (none : s.reads = [])
    (idle : s.trafficBusy = false) : Tidy s.receiveTcpMessage := by
  refine ⟨connects, by simp [TransparentProxyNet.Session.receiveTcpMessage, none], ?_⟩
  intro busy
  cases idle.symm.trans busy

theorem Tidy.receiveHandler (h : Tidy s) {i : Nat} {result : ReadResult}
    (enabled : s.Enabled (.readHandler i result)) : Tidy (s.receiveHandler i result) := by
  cases result with
  | eof => exact (h.eraseRead i).closeSession
  | error => exact (h.eraseRead i).closeSession
  | data bytes =>
      simp only [TransparentProxyNet.Session.receiveHandler]
      split
      · exact h.eraseRead i
      · obtain ⟨bound, -⟩ := List.getElem?_eq_some_iff.mp enabled
        have none : s.reads.eraseIdx i = [] := by
          have one := List.length_eraseIdx_add_one bound
          have most := h.oneRead
          exact List.length_eq_zero_iff.mp (by omega)
        have idle : s.trafficBusy = false := by
          by_contra busy
          rw [h.busy (by simpa using busy)] at bound
          cases bound
        unfold TransparentProxyNet.Session.checkTrafficStatus
        split
        · exact ⟨h.connects, by simp [none], fun _ => none⟩
        · exact tidy_receiveTcpMessage h.connects none idle

theorem Tidy.inputToKcp (h : Tidy s) {len : Int} {input : KcpInput} {old : Nat → List UInt8}
    (handled : inputToKcp s len input old = some t) : Tidy t := by
  unfold Home.inputToKcp at handled
  split at handled
  · cases handled
    exact h
  · obtain ⟨u, loop, rfl⟩ := Option.map_eq_some_iff.mp handled
    have start : Tidy (s.ikcpInput len input) := h.of_same rfl rfl rfl
    obtain ⟨-, -, tidy⟩ := TransparentProxyNet.Session.readLoop_drains (P := fun _ u => Tidy u)
      (by
        intro message queue u v tidy pair switched
        unfold switchStatus at switched
        split at switched
        · obtain ⟨q, -, rfl⟩ := Option.map_eq_some_iff.mp
            ((TransparentProxyNet.Session.push_eq _ pair).symm.trans switched)
          exact tidy.of_same rfl rfl rfl
        · cases switched
          exact tidy.of_same rfl rfl rfl) start loop
    unfold TransparentProxyNet.Session.resumeTraffic
    split
    · rename_i resumes
      have none := tidy.busy (Bool.and_eq_true_iff.mp resumes).1
      exact tidy_receiveTcpMessage (s := { u with trafficBusy := false }) tidy.connects none rfl
    · exact tidy

theorem Tidy.step (h : Tidy s) (step : SessionStep s e t) : Tidy t := by
  obtain ⟨enabled, handled⟩ := step
  cases e with
  | readDone i result =>
      cases handled
      refine ⟨h.connects, (List.length_set ..).le.trans h.oneRead, ?_⟩
      intro busy
      change s.reads.set i _ = []
      rw [h.busy busy, List.set_nil]
  | readHandler i result =>
      cases handled
      exact h.receiveHandler enabled
  | writeHandler i ec =>
      rw [handle, writeHandler_eq] at handled
      obtain ⟨q, -, rest⟩ := Option.bind_eq_some_iff.mp handled
      cases ec with
      | true =>
          cases rest
          exact Tidy.closeSession (h.of_same rfl rfl rfl)
      | false =>
          obtain ⟨q', -, rfl⟩ := Option.map_eq_some_iff.mp rest
          exact h.of_same rfl rfl rfl
  | connectDone i ok =>
      cases handled
      exact ⟨by simp [TransparentProxyNet.Session.connectDone, h.connects], h.oneRead, h.busy⟩
  | inputToKcp len input old => exact h.inputToKcp handled
  | closeSession =>
      cases handled
      exact h.closeSession
  | _ =>
      cases handled
      exact h.of_same rfl rfl rfl

/-- At most the two handlers of a read that had brought data, and that of a write. -/
theorem Tidy.leftovers_le (h : Tidy s) (settled : s.tcpDataWaitForSendDeque.Settled) :
    s.leftovers ≤ 3 := by
  have reads : (s.reads.map TransparentProxyNet.Session.readLeft).sum ≤ 2 := by
    have one := h.oneRead
    match known : s.reads with
    | [] => exact Nat.zero_le _
    | [r] =>
        simp only [List.map_cons, List.map_nil, List.sum_cons, List.sum_nil, Nat.add_zero,
          TransparentProxyNet.Session.readLeft]
        split <;> decide
    | r :: r' :: rest =>
        rw [known] at one
        simp at one
  have writes := settled.length_le
  rw [TransparentProxyNet.Session.leftovers, h.connects, List.map_nil, List.sum_nil]
  omega

theorem unwinds_step (h : s.Over) (none : s.connects = []) (step : SessionStep s e t) :
    Unwinds s e t := by
  obtain ⟨enabled, handled⟩ := step
  obtain ⟨noRead, noWrite, noConnect⟩ := h.done
  cases e with
  | readDone i result => exact absurd enabled (noRead i result)
  | readHandler i result =>
      cases handled
      exact h.receiveHandler enabled
  | writeDone i ok => exact absurd enabled (noWrite i ok)
  | writeHandler i ec =>
      rw [handle, writeHandler_eq] at handled
      obtain ⟨q, popped, rest⟩ := Option.bind_eq_some_iff.mp handled
      have gone := h.unwinds_setDeque (q := q.clear) enabled (Queue.popFront_pending popped)
      rw [if_pos h.closed] at rest
      cases ec with
      | true =>
          cases rest
          rw [closeSession_closed (by exact h.closed)]
          exact gone
      | false =>
          cases rest
          exact gone
  | connectDone i ok => exact absurd enabled (noConnect i ok)
  | connectHandler i ec => simp [TransparentProxyNet.Session.Enabled, none] at enabled
  | inputToKcp len input old =>
      rw [handle, inputToKcp, if_pos h.closed] at handled
      cases handled
      exact .same h rfl
  | closeSession =>
      cases handled
      rw [closeSession_closed h.closed]
      exact .same h rfl

/-- A session is over as soon as it is closed. -/
theorem over_kept (none : s.connects = []) (h : s.sessionClose = true → s.Over)
    (step : SessionStep s e t) (closed : t.sessionClose = true) : t.Over := by
  cases flag : s.sessionClose with
  | true => exact (unwinds_step (h flag) none step).past
  | false =>
      obtain ⟨-, handled⟩ := step
      rcases (handle_closed handled).mp closed with before | closes | rfl
      · cases flag.symm.trans before
      · cases e with
        | readHandler i result =>
            cases handled
            cases result with
            | data bytes => exact closes.elim
            | eof => exact over_closeSession flag
            | error => exact over_closeSession flag
        | writeHandler i ec =>
            obtain rfl : ec = true := closes
            rw [handle, writeHandler_eq] at handled
            obtain ⟨q, -, rest⟩ := Option.bind_eq_some_iff.mp handled
            cases rest
            exact over_closeSession flag
        | _ => exact closes.elim
      · cases handled
        exact over_closeSession flag

end Home

namespace Vps
open TransparentProxyNet.Session (Over Unwinds connectLeft connectLeft_pos closeSession_closed
  over_closeSession)

variable {s t : Session} {e : TransparentProxyNet.Session.Event}

/-- A connect that ended well before the close: what its handler starts fails. -/
theorem unwinds_connectHandler (h : s.toSession.Over) {i : Nat}
    (enabled : s.toSession.Enabled (.connectHandler i false))
    (handled : connectHandler s i false = some t) :
    Unwinds s.toSession (.connectHandler i false) t.toSession := by
  obtain ⟨c, there, known⟩ := Option.map_eq_some_iff.mp enabled
  have failing : s.outcome = some false := if_pos h.closed
  rw [connectHandler_eq, failing] at handled
  obtain ⟨q, resumed, rfl⟩ := Option.map_eq_some_iff.mp handled
  obtain ⟨past, fewer⟩ := h.eraseConnect there .normal
  obtain ⟨reading, more, data⟩ := past.receiveTcpMessage
  have ended : ∀ op ∈ q.pending, op.outcome.isSome := by
    intro op member
    rcases Queue.mem_resume_pending resumed member with old | new
    · exact h.writes op old
    · rw [new]
      rfl
  obtain ⟨writing, last⟩ := reading.setDeque ended
  have one := Queue.length_resume_pending resumed
  have three : connectLeft c.2 = 3 := by
    rw [known]
    rfl
  change _ + s.tcpDataWaitForSendDeque.pending.length = _ at last
  refine ⟨writing, (Nat.succ_le_succ (Nat.eq_sub_of_add_eq last).le).trans ?_,
    Nat.add_le_add_left data.le _⟩
  omega

theorem unwinds_step (h : s.toSession.Over) (step : SessionStep s e t) :
    Unwinds s.toSession e t.toSession := by
  obtain ⟨enabled, handled⟩ := step
  obtain ⟨noRead, noWrite, noConnect⟩ := h.done
  cases e with
  | readDone i result => exact absurd enabled (noRead i result)
  | readHandler i result =>
      cases handled
      exact h.receiveHandler enabled
  | writeDone i ok => exact absurd enabled (noWrite i ok)
  | writeHandler i ec =>
      rw [handle, writeHandler_eq, if_pos h.closed] at handled
      cases ec with
      | true =>
          cases handled
          have gone :=
            h.unwinds_setDeque (q := (s.tcpDataWaitForSendDeque.retire i).clear) enabled rfl
          have same := closeSession_closed gone.past.closed
          exact (congrArg (Unwinds s.toSession _) same).mpr gone
      | false => cases handled
  | connectDone i ok => exact absurd enabled (noConnect i ok)
  | connectHandler i ec =>
      cases ec with
      | true =>
          cases handled
          obtain ⟨c, there, -⟩ := Option.map_eq_some_iff.mp enabled
          obtain ⟨past, fewer⟩ := h.eraseConnect there s.currentCmdStatus
          have least := connectLeft_pos c.2
          refine ⟨past, ?_, Nat.le_refl _⟩
          simp only [Worker.onSocket, if_true]
          omega
      | false => exact unwinds_connectHandler h enabled handled
  | inputToKcp len input old =>
      rw [handle, inputToKcp, if_pos h.closed] at handled
      cases handled
      exact .same h rfl
  | closeSession =>
      cases handled
      change Unwinds _ _ s.toSession.closeSession
      rw [closeSession_closed h.closed]
      exact .same h rfl

/-- A session is over as soon as it is closed. -/
theorem over_kept (h : s.sessionClose = true → s.toSession.Over) (step : SessionStep s e t)
    (closed : t.sessionClose = true) : t.toSession.Over := by
  cases flag : s.sessionClose with
  | true => exact (unwinds_step (h flag) step).past
  | false =>
      obtain ⟨-, handled⟩ := step
      rcases (handle_closed handled).mp closed with before | closes | rfl
      · cases flag.symm.trans before
      · cases e with
        | readHandler i result =>
            cases handled
            cases result with
            | data bytes => exact closes.elim
            | eof => exact over_closeSession (by exact flag)
            | error => exact over_closeSession (by exact flag)
        | writeHandler i ec =>
            obtain rfl : ec = true := closes
            rw [handle, writeHandler_eq] at handled
            cases handled
            exact over_closeSession (by exact flag)
        | _ => exact closes.elim
      · cases handled
        exact over_closeSession flag

end Vps

namespace Worker
open TransparentProxyNet.Session (Over Unwinds broughtData)

/-- What has become of a closed session after some of its handlers have run. -/
structure Unwound (handlers : Nat) (s t : Session) : Prop where
  closed : t.sessionClose = true
  bounded : handlers + t.leftovers ≤ s.leftovers
  sent : t.kcp.sent.length ≤ s.kcp.sent.length + s.reads.countP broughtData
  idle : (∀ e, onSocket e → ¬ t.Enabled e) →
    t.reads = [] ∧ t.connects = [] ∧ t.tcpDataWaitForSendDeque.pending = []

/-- A handler of the session at `this`, or the end of one of its operations. -/
def Event.ofSession (this : Nat) : Event → Bool
  | .session that _ => that = this
  | _ => false

theorem Event.ofSession_self (this : Nat) (e : Session.Event) :
    Event.ofSession this (.session this e) = true := decide_eq_true rfl

variable {S α : Type} [Served S] {w w' : Worker S α} {this : Nat} {s t : S}

theorem Moves.unwinds {Step : S → Session.Event → S → Prop} {e : Event}
    (step : ∀ f t, Step s f t → Unwinds (base s) f (base t)) (h : (base s).Over)
    (moves : Moves Step this e s t) : (base t).Over ∧
      (base t).leftovers + (if Event.ofSession this e then 1 else 0) ≤ (base s).leftovers ∧
      (base t).kcp.sent.length + (base t).reads.countP broughtData ≤
        (base s).kcp.sent.length + (base s).reads.countP broughtData := by
  cases moves with
  | idle other =>
      have off : Event.ofSession this e = false := by
        cases e with
        | session that f =>
            refine decide_eq_false ?_
            rintro rfl
            exact other f rfl
        | _ => rfl
      exact ⟨h, by simp [off], Nat.le_refl _⟩
  | handler socket moved =>
      obtain ⟨past, fewer, sent⟩ := step _ _ moved
      rw [if_pos socket] at fewer
      rw [base_answered]
      refine ⟨⟨past.closed, past.reads, past.writes, past.connects⟩, ?_, sent⟩
      rw [if_pos (Event.ofSession_self this _)]
      exact fewer
  | input moved =>
      obtain ⟨past, fewer, sent⟩ := step _ _ moved
      rw [base_answered]
      exact ⟨⟨past.closed, past.reads, past.writes, past.connects⟩, fewer, sent⟩

/-- The run lemma, with what a step needs to know of the session as `I`. -/
theorem unwound_trace {Step : Worker S α → Event → Worker S α → Prop}
    {SessionStep : S → Session.Event → S → Prop} {I : S → Prop}
    (kept : ∀ w e w', w.Holds → Step w e w' → w'.Holds)
    (moves : ∀ w e w' s, w.Holds → Step w e w' → w.sessions this = some s →
      ∃ t, w'.sessions this = some t ∧ Moves SessionStep this e s t)
    (unwinds : ∀ s f t, (base s).Over → I s → SessionStep s f t →
      Unwinds (base s) f (base t) ∧ I (answered t))
    {es : List Event} (trace : Trace Step w es w') (holds : w.Holds)
    (found : w.sessions this = some s) (past : (base s).Over) (start : I s) :
    ∃ t, w'.sessions this = some t ∧
      Unwound (es.countP (Event.ofSession this)) (base s) (base t) := by
  obtain ⟨J, given⟩ : ∃ J : Worker S α → Prop, ∀ w, J w ↔ w.Holds ∧ ∃ t, w.sessions this = some t ∧
      (base t).Over ∧ I t ∧ (base t).kcp.sent.length + (base t).reads.countP broughtData ≤
        (base s).kcp.sent.length + (base s).reads.countP broughtData := ⟨_, fun _ => Iff.rfl⟩
  obtain ⟨left, known⟩ : ∃ left : Worker S α → Nat, ∀ w t, w.sessions this = some t →
      left w = (base t).leftovers :=
    ⟨fun w => (w.sessions this).elim 0 fun t => (base t).leftovers, fun w t found => by
      simp [found]⟩
  have step (v : Worker S α) (e : Event) (v' : Worker S α) (h : J v) (step : Step v e v') :
      J v' ∧ left v' + (if Event.ofSession this e then 1 else 0) ≤ left v := by
    obtain ⟨holds, t, found, past, inv, sent⟩ := (given v).mp h
    obtain ⟨u, found', moved⟩ := moves v e v' t holds step found
    obtain ⟨past', fewer, sent'⟩ := moved.unwinds (fun f u h => (unwinds t f u past inv h).1) past
    have inv' : I u := by
      cases moved with
      | idle _ => exact inv
      | handler _ moved => exact (unwinds t _ _ past inv moved).2
      | input moved => exact (unwinds t _ _ past inv moved).2
    refine ⟨(given v').mpr ⟨kept v e v' holds step, u, found', past', inv', sent'.trans sent⟩, ?_⟩
    rw [known v' u found', known v t found]
    exact fewer
  have first : J w := (given w).mpr ⟨holds, s, found, past, start, Nat.le_refl _⟩
  have bound := trace.countP_le (fun v e v' h moved => (step v e v' h moved).1)
    (fun v e v' h moved => (step v e v' h moved).2) first
  obtain ⟨-, t, found', past', -, sent⟩ := (given w').mp
    (trace.invariant (fun v e v' h moved => (step v e v' h moved).1) first)
  rw [known w' t found', known w s found] at bound
  exact ⟨t, found', past'.closed, by omega, by omega, past'.idle⟩

end Worker

namespace Home
open TransparentProxyNet.Session (Over)

theorem reachable_tidy {A : AesGcm} {other : Int → Fin 4} {w : Worker}
    (reachable : Reachable (Step A other) Worker.Started w) :
    w.Holds ∧ w.Each fun s => s.Pumping ∧ Tidy s ∧ (s.sessionClose = true → s.Over) := by
  have free : Reachable (Guarded (Worker.OnSessions fun _ _ => True) (Step A other))
      Worker.Started w := reachable.mono fun _ _ _ step => ⟨step, fun _ _ _ _ _ => trivial⟩
  refine reachable_each ?_ ?_ (fun _ _ _ _ => trivial) free
  · intro randomId endpoint
    refine ⟨⟨fun _ => rfl, .inr rfl⟩, tidy_receiveTcpMessage rfl rfl rfl, ?_⟩
    intro closed
    cases closed
  · rintro s e t ⟨pumping, tidy, past⟩ step -
    obtain ⟨u, handled, pumping'⟩ := pumping_step pumping step.1
    cases handled.symm.trans step.2
    refine ⟨pumping'.of_same rfl rfl, (tidy.step step).of_same rfl rfl rfl, ?_⟩
    intro closed
    have gone := over_kept tidy.connects past step closed
    exact ⟨gone.closed, gone.reads, gone.writes, gone.connects⟩

end Home

namespace Vps
open TransparentProxyNet.Session (Over)

theorem reachable_over {A : AesGcm} {other : Int → Fin 4} {w : Worker}
    (reachable : Reachable (Step A other) Worker.Started w) :
    w.Holds ∧ w.Each fun s => s.sessionClose = true → s.toSession.Over := by
  have free : Reachable (Guarded (Worker.OnSessions fun _ _ => True) (Step A other))
      Worker.Started w := reachable.mono fun _ _ _ step => ⟨step, fun _ _ _ _ _ => trivial⟩
  refine reachable_each ?_ ?_ (fun _ _ _ _ => trivial) free
  · intro new sessionId closed
    cases closed
  · intro s e t past step _ closed
    have gone := over_kept past step closed
    exact ⟨gone.closed, gone.reads, gone.writes, gone.connects⟩

end Vps

/-- A closed session comes to rest on either side: in every run the handlers that it still
has are bounded by what was outstanding when it was closed (three on the home side), KCP is
given no more than reads had brought by then, and once no handler is left nothing is
outstanding. -/
theorem winds_down (A : AesGcm) (other : Int → Fin 4) :
    (∀ w, Reachable (Home.Step A other) Worker.Started w → ∀ this (s : Home.Session),
      w.sessions this = some s → s.sessionClose = true → s.leftovers ≤ 3 ∧
        ∀ es w', Trace (Home.Step A other) w es w' → ∃ t, w'.sessions this = some t ∧
          Worker.Unwound (es.countP (Worker.Event.ofSession this)) s t) ∧
    (∀ w, Reachable (Vps.Step A other) Worker.Started w → ∀ this (s : Vps.Session),
      w.sessions this = some s → s.sessionClose = true →
        ∀ es w', Trace (Vps.Step A other) w es w' → ∃ t, w'.sessions this = some t ∧
          Worker.Unwound (es.countP (Worker.Event.ofSession this)) s.toSession t.toSession) := by
  constructor
  · intro w reachable this s found closed
    obtain ⟨holds, each⟩ := Home.reachable_tidy reachable
    obtain ⟨pumping, tidy, past⟩ := each this s found
    refine ⟨tidy.leftovers_le pumping.settled, fun es w' trace => ?_⟩
    exact Worker.unwound_trace (S := Home.Session) (I := Home.Tidy) (fun _ _ _ => Home.step_holds)
      (fun _ _ _ _ => Home.step_moves)
      (fun _ _ _ past tidy step =>
        ⟨Home.unwinds_step past tidy.connects step, (tidy.step step).of_same rfl rfl rfl⟩)
      trace holds found (past closed) tidy
  · intro w reachable this s found closed es w' trace
    obtain ⟨holds, each⟩ := Vps.reachable_over reachable
    exact Worker.unwound_trace (S := Vps.Session) (I := fun _ => True)
      (fun _ _ _ => Vps.step_holds) (fun _ _ _ s holds step => (Vps.step_cases holds step).1 s)
      (fun _ _ _ past _ step => ⟨Vps.unwinds_step past step, trivial⟩) trace holds found
      (each this s found closed) trivial

/-- A session whose target closes while the handler of a second connect has still to run.
That handler starts one more read, which fails. -/
theorem Vps.exists_over : ∃ (w w' : Worker) (s t : Session) (es : List Worker.Event),
    Reachable (Step .sample fun _ => 0) Worker.Started w ∧ w.sessions 7 = some s ∧
      s.sessionClose = true ∧ s.leftovers = 3 ∧ Trace (Step .sample fun _ => 0) w es w' ∧
      es.countP (Worker.Event.ofSession 7) = 2 ∧ w'.sessions 7 = some t ∧ t.leftovers = 0 := by
  obtain ⟨w₀, v, datagram, started, received, holds, found⟩ :=
    exists_received [TransparentProxyNet.Session.statusAndData ⟨1, 80⟩,
      TransparentProxyNet.Session.statusAndData ⟨1, 80⟩] rfl
  have taken : ∀ (w : Worker) s f t, w.Holds → w.sessions 7 = some s →
      (Worker.onSocket f = true ∧ SessionStep s f t) → ∃ w',
        Step .sample (fun _ => 0) w (.session 7 f) w' ∧ w'.Holds ∧
        w'.sessions 7 = some (Worker.answered t) :=
    fun _ _ _ _ h found step => exists_step .sample _ h found step.1 step.2
  obtain ⟨w, closing, holds, found⟩ := Worker.exists_trace
    [.connectDone 0 true, .connectHandler 0 false, .connectDone 0 true, .readDone 0 .eof,
      .readHandler 0 .eof] taken
    (.cons ⟨_, ⟨rfl, by decide, rfl⟩, rfl⟩ <| .cons ⟨_, ⟨rfl, by decide, rfl⟩, rfl⟩ <|
      .cons ⟨_, ⟨rfl, by decide, rfl⟩, rfl⟩ <| .cons ⟨_, ⟨rfl, by decide, rfl⟩, rfl⟩ <|
      .single ⟨_, ⟨rfl, by decide, rfl⟩, rfl⟩) holds found
  obtain ⟨w', ending, -, found'⟩ := Worker.exists_trace
    [.connectHandler 0 false, .readHandler 0 .error] taken
    (.cons ⟨_, ⟨rfl, by decide, rfl⟩, rfl⟩ <| .single ⟨_, ⟨rfl, by decide, rfl⟩, rfl⟩)
    holds found
  exact ⟨w, w', _, _, _, (Reachable.init started).trace (.cons received closing), found, rfl, rfl,
    ending, rfl, found', rfl⟩

/-- What is left to a closed session of the VPS side, and what remains of it. -/
theorem winds_down_ended : ∃ (w w' : Vps.Worker) (s t : Vps.Session) (es : List Worker.Event),
    w.sessions 7 = some s ∧ s.leftovers = 3 ∧ Trace (Vps.Step .sample fun _ => 0) w es w' ∧
      w'.sessions 7 = some t ∧ Worker.Unwound 2 s.toSession t.toSession ∧ t.leftovers = 0 := by
  obtain ⟨w, w', s, t, es, reachable, found, closed, three, trace, two, found', none⟩ :=
    Vps.exists_over
  obtain ⟨u, same, unwound⟩ :=
    (winds_down .sample fun _ => 0).2 w reachable 7 s found closed es w' trace
  cases found'.symm.trans same
  exact ⟨w, w', s, t, es, found, three, trace, found', two ▸ unwound, none⟩

end TransparentProxyNet
