import TransparentProxyNet.Worker.EndOfStream

/-! How often a worker drives its sessions. The wheel knows when each open session is due,
whatever happens to the others. -/
namespace TransparentProxyNet
open Machine SlotWheel

namespace Worker
variable {S α : Type}

def Event.isTick : Event → Bool
  | .doCurrentTimeWheel _ _ => true
  | _ => false

/-- The session at `this` is driven by the tick that follows `k` further ticks. -/
def Due (w : Worker S α) (this k : Nat) : Prop := w.timeWheel.Waits this k

/-- The callback of a tick, with the clock and the answers of `ikcp_check` that it reads. -/
def ctwCallBack (now : UInt32) (nextTime : Nat → UInt32) (this : Nat) : UInt32 :=
  Session.driveSessionTimeClock now (nextTime this)

theorem Due.count {w : Worker S α} {this k : Nat} (due : w.Due this k) {now : UInt32}
    {nextTime : Nat → UInt32} {timeWheel : TimeWheel Nat} {driven : List Nat}
    (tick : TimeWheel.Ticks w.timeWheel (ctwCallBack now nextTime) timeWheel driven) :
    driven.count this = if k = 0 then 1 else 0 := by
  obtain ⟨r, refines, waiting⟩ := due
  rw [(refines.of_ticks tick).1]
  by_cases now : k = 0
  · subst now
    rw [if_pos rfl]
    exact List.count_eq_one_of_mem (refines.distinct.nodup _) (due_zero.mp waiting)
  · rw [if_neg now, List.count_eq_zero]
    intro member
    exact now (refines.distinct.due_unique waiting (due_zero.mpr member))

theorem Due.tick {w : Worker S α} {this k : Nat} (due : w.Due this k) (ahead : 0 < k)
    {now : UInt32} {nextTime : Nat → UInt32} {timeWheel : TimeWheel Nat} {driven : List Nat}
    (tick : TimeWheel.Ticks w.timeWheel (ctwCallBack now nextTime) timeWheel driven) :
    Due { w with timeWheel } this (k - 1) := by
  obtain ⟨r, refines, waiting⟩ := due
  exact ⟨_, (refines.of_ticks tick).2,
    TimeWheel.due_step refines waiting (.doCurrentTimeWheel tick) (by simp) fun _ => ahead⟩

variable [Served S]

/-- As long as the session is open, the next ticks leave it alone up to the `k`-th, which
drives it once. -/
def DrivenIn (Step : Worker S α → Event → Worker S α → Prop) (w : Worker S α) (this k : Nat) :
    Prop :=
  ∀ es w', Trace Step w es w' → w'.Open this → es.countP Event.isTick < k →
    ∀ now nextTime timeWheel driven,
      TimeWheel.Ticks w'.timeWheel (ctwCallBack now nextTime) timeWheel driven →
        driven.count this = if es.countP Event.isTick + 1 = k then 1 else 0

/-- What a worker does for an open session. -/
structure Paced (Step : Worker S α → Event → Worker S α → Prop) (w : Worker S α) (this : Nat) :
    Prop where
  ticks : ∀ now nextTime, ∃ w', Step w (.doCurrentTimeWheel now nextTime) w'
  soon : ∃ k, 0 < k ∧ k ≤ timeWheelLength ∧ DrivenIn Step w this k
  again : ∀ now nextTime timeWheel driven,
    TimeWheel.Ticks w.timeWheel (ctwCallBack now nextTime) timeWheel driven → this ∈ driven →
      (nextTime this - now).toNat ≤ 10 →
        DrivenIn Step { w with timeWheel } this (max 1 ((nextTime this - now).toNat / 3))

variable {w w' : Worker S α} {this p k : Nat}

/-! ### What the steps do to the waiting time -/

theorem Holds.due_run {f : S → Option S} (h : w.Holds) (ran : w.run p f = some w')
    (step : ∀ s t, w.sessions p = some s → f s = some t → Session.Handled (base s) (base t))
    (stillOpen : w'.Open this) (due : w.Due this k) : w'.Due this k := by
  obtain ⟨s, t, timeWheel, found, handled, called, rfl⟩ := run_cases ran
  obtain ⟨r, refines, waiting⟩ := due
  rcases (step s t found handled).asks (h.quiet p s found).calls with
    ⟨-, nodes⟩ | ⟨unclosed, closed, asked⟩
  · cases (callsOnWheel_takesNode nodes _).symm.trans called
    exact ⟨r, refines, waiting⟩
  · have apart : this ≠ p := by
      rintro rfl
      cases closed.symm.trans (open_settle_self.mp stillOpen)
    obtain ⟨i, member⟩ := refines.linked_iff.mp ((h.linked_iff p).mpr ⟨s, found, unclosed⟩)
    obtain ⟨v, removed, refines'⟩ := refines.removeTask member
    have same : callsOnWheel p w.timeWheel (base t).calls = some v := by
      simp [asked, callsOnWheel, Call.onWheel, removed]
    cases same.symm.trans called
    exact ⟨_, refines', (due_remove_other apart k).mpr waiting⟩

/-- A new session is mounted beside the others. -/
theorem Holds.due_register {f : S → Option S} {s t : S} {sessionId : SessionId}
    {nextTime : UInt32} (h : w.Holds)
    (ran : ((w.construct p s).emplace sessionId p).run p f = some w') (started : f s = some t)
    (unused : w.sessions p = none) (calls : (base t).calls = [.mountTask nextTime])
    (apart : this ≠ p) (due : w.Due this k) : w'.Due this k := by
  obtain ⟨u, v, timeWheel, found, handled, called, rfl⟩ := run_cases ran
  have built : ((w.construct p s).emplace sessionId p).sessions p = some s :=
    Function.update_self ..
  cases built.symm.trans found
  cases started.symm.trans handled
  obtain ⟨r, refines, waiting⟩ := due
  have absent : r.Absent p := by
    refine refines.not_linked_iff.mp ?_
    rw [h.linked_iff]
    rintro ⟨s', found', -⟩
    cases unused.symm.trans found'
  obtain ⟨mounted, eq, refines', -⟩ := (refines.registerTask absent).mountTask absent nextTime
  have same : callsOnWheel p (w.timeWheel.registerTask p) (base t).calls = some mounted := by
    simp [calls, callsOnWheel, Call.onWheel, eq]
  cases same.symm.trans called
  exact ⟨_, refines', (due_mount_other apart _ k).mpr waiting⟩

/-- The step lemma: only a tick shortens the time that an open session waits. -/
theorem Holds.due_common {A : AesGcm} {other : Int → Fin 4}
    {handle : S → Session.Event → Option S} {addressed : S → Packet → α}
    (handled : ∀ s e t, (base s).Enabled e → handle s e = some t →
      Session.Handled (base s) (base t)) {e : Event} (h : w.Holds)
    (step : CommonStep A other handle addressed w e w') (stillOpen : w'.Open this)
    (due : w.Due this k) (ahead : e.isTick → 0 < k) :
    w'.Due this (k - if e.isTick then 1 else 0) := by
  cases step with
  | session _ found enabled ran =>
      refine h.due_run ran (fun s t here run => handled s _ t ?_ run) stillOpen due
      cases found.symm.trans here
      exact enabled
  | kcpCallBack node called =>
      obtain ⟨q, requests, rfl⟩ := kcpCallBack_cases called
      exact due
  | sent _ _ => exact due
  | doCurrentTimeWheel tick => exact due.tick (ahead rfl) tick

/-- An open session waits less than one turn of the wheel. -/
theorem Holds.exists_due (h : w.Holds) (isOpen : w.Open this) :
    ∃ k, k < timeWheelLength ∧ w.Due this k := by
  obtain ⟨r, refines, -⟩ := h.wheel
  obtain ⟨i, member⟩ := refines.linked_iff.mp ((h.linked_iff this).mpr isOpen)
  obtain ⟨k, due⟩ := SlotWheel.exists_due member
  exact ⟨k, due.1, r, refines, due⟩

/-- A session that a tick drives is due again when `ikcp_check` says. -/
theorem Holds.due_again (h : w.Holds) {now : UInt32} {nextTime : Nat → UInt32}
    {timeWheel : TimeWheel Nat} {driven : List Nat}
    (tick : TimeWheel.Ticks w.timeWheel (ctwCallBack now nextTime) timeWheel driven)
    (member : this ∈ driven) (near : (nextTime this - now).toNat ≤ 10) :
    Due { w with timeWheel } this (max 1 ((nextTime this - now).toNat / 3) - 1) := by
  obtain ⟨r, refines, -⟩ := h.wheel
  obtain ⟨rfl, refines'⟩ := refines.of_ticks tick
  have asked : (this, some (max 1 ((nextTime this - now).toNat / 3) - 1 + 1)) ∈
      TimeWheel.answers (ctwCallBack now nextTime) (r.slot r.cur) := by
    refine TimeWheel.mem_answers.mpr ⟨member, Session.driveSessionTimeClock_pos _ _, ?_⟩
    rw [ctwCallBack, Session.ticks_driveSessionTimeClock near]
    omega
  have due := due_tick_again (r := r) asked
  rw [Nat.mod_eq_of_lt (by omega)] at due
  exact ⟨_, refines', due⟩

/-! ### Runs -/

section
variable {Step : Worker S α → Event → Worker S α → Prop}

/-- The run lemma. A session that is open at the end has been open all the time. -/
theorem Due.drivenIn (kept : ∀ w e w', w.Holds → Step w e w' → w'.Holds)
    (stays : ∀ w e w' s, w.Holds → Step w e w' → w.sessions this = some s →
      ∃ t, w'.sessions this = some t ∧ (base s).Stays (base t))
    (closer : ∀ w e w' k, w.Holds → Step w e w' → w.Open this → w'.Open this → w.Due this k →
      (e.isTick → 0 < k) → w'.Due this (k - if e.isTick then 1 else 0))
    (h : w.Holds) (isOpen : w.Open this) (due : w.Due this k) : DrivenIn Step w this (k + 1) := by
  intro es w' trace stillOpen before now nextTime timeWheel driven tick
  have start : w.Open this → ([] : List Event).countP Event.isTick ≤ k →
      w.Due this (k - ([] : List Event).countP Event.isTick) := fun _ _ => due
  obtain ⟨-, -, waiting⟩ := Trace.log
    (I := fun es v => v.Holds ∧ (∃ s, v.sessions this = some s) ∧
      (v.Open this → es.countP Event.isTick ≤ k → v.Due this (k - es.countP Event.isTick)))
    (by
      rintro es v e v' ⟨holds, ⟨s, found⟩, waiting⟩ step
      obtain ⟨t, found', stay⟩ := stays v e v' s holds step found
      refine ⟨kept v e v' holds step, ⟨t, found'⟩, ?_⟩
      rintro ⟨t', same, unclosed⟩ bound
      cases found'.symm.trans same
      have open_before : v.Open this := by
        refine ⟨s, found, ?_⟩
        by_contra closed
        rw [Bool.not_eq_false] at closed
        cases unclosed.symm.trans (stay.closed closed).1
      rw [List.countP_append, List.countP_singleton] at bound ⊢
      have next := closer v e v' _ holds step open_before ⟨t, found', unclosed⟩
        (waiting open_before (by omega)) (by
          intro tick
          rw [if_pos tick] at bound
          omega)
      rwa [Nat.sub_sub] at next)
    trace ⟨h, isOpen.imp fun s found => found.1, start⟩
  rw [List.nil_append] at waiting
  rw [(waiting stillOpen (Nat.le_of_lt_succ before)).count tick]
  exact if_congr (by omega) rfl rfl

theorem Holds.paced (kept : ∀ w e w', w.Holds → Step w e w' → w'.Holds)
    (stays : ∀ w e w' s, w.Holds → Step w e w' → w.sessions this = some s →
      ∃ t, w'.sessions this = some t ∧ (base s).Stays (base t))
    (closer : ∀ w e w' k, w.Holds → Step w e w' → w.Open this → w'.Open this → w.Due this k →
      (e.isTick → 0 < k) → w'.Due this (k - if e.isTick then 1 else 0))
    (ticks : ∀ now nextTime timeWheel driven,
      TimeWheel.Ticks w.timeWheel (ctwCallBack now nextTime) timeWheel driven →
        Step w (.doCurrentTimeWheel now nextTime) { w with timeWheel })
    (h : w.Holds) (isOpen : w.Open this) : Paced Step w this := by
  constructor
  · intro now nextTime
    obtain ⟨r, refines, -⟩ := h.wheel
    obtain ⟨timeWheel, tick, -⟩ := refines.ticks (ctwCallBack now nextTime)
    exact ⟨_, ticks now nextTime timeWheel _ tick⟩
  · obtain ⟨k, short, due⟩ := h.exists_due isOpen
    exact ⟨k + 1, Nat.succ_pos k, short, due.drivenIn kept stays closer h isOpen⟩
  · intro now nextTime timeWheel driven tick member near
    have again := (h.due_again tick member near).drivenIn kept stays closer
      (kept _ _ _ h (ticks now nextTime timeWheel driven tick)) isOpen
    rwa [Nat.sub_add_cancel (Nat.le_max_left 1 _)] at again

end
end Worker

namespace Home

variable {A : AesGcm} {other : Int → Fin 4} {w w' : Worker} {e : Worker.Event} {this k : Nat}

theorem step_due (h : w.Holds) (step : Step A other w e w') (isOpen : w.Open this)
    (stillOpen : w'.Open this) (due : w.Due this k) (ahead : e.isTick → 0 < k) :
    w'.Due this (k - if e.isTick then 1 else 0) := by
  cases step with
  | common step =>
      exact h.due_common (fun s e t enabled handled => handled_step ⟨enabled, handled⟩) step
        stillOpen due ahead
  | receive _ arrived received =>
      rw [receiveHandler, if_neg Bool.false_ne_true] at received
      obtain ⟨buf, sessionId, len, v, delivered, rfl⟩ := Worker.decode_cases received
      have arrive := h.arrive arrived
      obtain ⟨buf', -, rfl⟩ := Option.map_eq_some_iff.mp arrived
      unfold deliver at delivered
      split at delivered
      · have after : v.Due this k := (arrive.setBuffer buf).due_run delivered
          (fun s t _ handled => handled_inputToKcp handled) stillOpen due
        exact after
      · cases delivered
        exact due
  | receiveError _ received =>
      cases received
      exact due
  | @registerSession p randomId sessionId nextTime endpoint _ unused new registered =>
      have apart : this ≠ p := by
        rintro rfl
        obtain ⟨s, found, -⟩ := isOpen
        cases unused.symm.trans found
      exact h.due_register (s := Session.create sessionId)
        (f := fun s => some (start (s.setSessionId randomId) nextTime endpoint)) registered rfl
        unused rfl apart due

theorem paced (h : w.Holds) (isOpen : w.Open this) : Worker.Paced (Step A other) w this :=
  h.paced (fun _ _ _ => step_holds) (fun _ _ _ _ => step_stays)
    (fun _ _ _ _ h step => step_due h step)
    (fun _ _ _ _ tick => .common (.doCurrentTimeWheel tick)) isOpen

end Home

namespace Vps

variable {A : AesGcm} {other : Int → Fin 4} {w w' : Worker} {e : Worker.Event} {this k : Nat}

theorem deliver_due {calls : Worker.ReceiveCalls} {new : NewSession} {sessionId : SessionId}
    {len : Int} {data : List UInt8} (h : w.Holds) (unused : w.sessions new.this = none)
    (delivered : deliver calls new w sessionId len data = some w') (isOpen : w.Open this)
    (stillOpen : w'.Open this) (due : w.Due this k) : w'.Due this k := by
  unfold deliver at delivered
  split at delivered
  · exact h.due_run delivered (fun s t _ handled => handled_inputToKcp handled) stillOpen due
  · rename_i unknown
    obtain ⟨v, registered, holds, -⟩ := registerSession_eq h unused unknown
    simp only [Option.bind_eq_bind, registered, Option.bind_some] at delivered
    have apart : this ≠ new.this := by
      rintro rfl
      obtain ⟨s, found, -⟩ := isOpen
      cases unused.symm.trans found
    have mounted := h.due_register (s := Session.create new.sessionId new.homeClienEndpoint)
      (f := fun s => some (start (s.lift (·.setSessionId sessionId)) new.nextTime)) registered rfl
      unused rfl apart due
    exact holds.due_run delivered (fun s t _ handled => handled_inputToKcp handled) stillOpen
      mounted

theorem step_due (h : w.Holds) (step : Step A other w e w') (isOpen : w.Open this)
    (stillOpen : w'.Open this) (due : w.Due this k) (ahead : e.isTick → 0 < k) :
    w'.Due this (k - if e.isTick then 1 else 0) := by
  cases step with
  | common step =>
      exact h.due_common (fun s e t enabled handled => handled_step ⟨enabled, handled⟩) step
        stillOpen due ahead
  | receive _ arrived unused received =>
      rw [receiveHandler, if_neg Bool.false_ne_true] at received
      have arrive := h.arrive arrived
      obtain ⟨buf, -, rfl⟩ := Option.map_eq_some_iff.mp arrived
      split at received
      · cases received
        exact due
      · obtain ⟨buf', sessionId, len, v, delivered, rfl⟩ := Worker.decode_cases received
        have after : v.Due this k :=
          deliver_due (arrive.setBuffer buf') unused delivered isOpen stillOpen due
        exact after
  | receiveError _ received =>
      cases received
      exact due

theorem paced (h : w.Holds) (isOpen : w.Open this) : Worker.Paced (Step A other) w this :=
  h.paced (fun _ _ _ => step_holds) (fun _ _ _ _ => step_stays)
    (fun _ _ _ _ h step => step_due h step)
    (fun _ _ _ _ tick => .common (.doCurrentTimeWheel tick)) isOpen

end Vps

/-- In every reachable state of either worker, every open session is driven within one turn
of the wheel, exactly once in its tick, and again exactly when `ikcp_check` says, and that
within three ticks; no session, datagram or timer of another session delays it. -/
theorem sessions_paced (A : AesGcm) (other : Int → Fin 4) :
    (∀ w, Reachable (Home.Step A other) Worker.Started w → ∀ this, w.Open this →
      Worker.Paced (Home.Step A other) w this) ∧
    (∀ w, Reachable (Vps.Step A other) Worker.Started w → ∀ this, w.Open this →
      Worker.Paced (Vps.Step A other) w this) :=
  ⟨fun _ reachable _ => Home.paced (Home.reachable_holds reachable),
    fun _ reachable _ => Vps.paced (Vps.reachable_holds reachable)⟩

theorem sessions_paced_ended :
    ∃ w : Home.Worker, w.Open 7 ∧ Worker.Paced (Home.Step .sample fun _ => 0) w 7 := by
  obtain ⟨w, v, v', started, registers, read, -, found⟩ := Home.exists_ended .sample fun _ => 0
  have reachable := (Reachable.init started).trace (.cons registers (.single read))
  have isOpen : v'.Open 7 := ⟨_, found, rfl⟩
  exact ⟨v', isOpen, (sessions_paced .sample fun _ => 0).1 v' reachable 7 isOpen⟩

end TransparentProxyNet
