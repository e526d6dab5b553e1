import Mathlib.Algebra.Order.BigOperators.Group.Finset
import TransparentProxyNet.Worker.Requests

/-! What a worker never gives back. An id that it has once had a session for keeps this
session, and the session keeps two nodes of the pool, whether it is closed or not. -/
namespace TransparentProxyNet
open Allocation Machine

namespace MemoryPool
variable {other : Int → Fin 4} {live : Fin 4 → List Nat} {owned : Multiset Node}

/-- The pool has as many nodes in use as the ledger has entries. -/
theorem InUse.card (inUse : InUse other live owned) : ∑ i, (live i).length = owned.card := by
  have class_card (i : Fin 4) :
      (live i).length = (owned.map fun node => sizeClass other node.size).count i := by
    rw [← Multiset.coe_card, inUse, nodesOfClass, Multiset.card_map, Multiset.count_map]
    exact congrArg Multiset.card (Multiset.filter_congr fun node _ => eq_comm)
  calc ∑ i, (live i).length
    _ = ∑ i, (owned.map fun node => sizeClass other node.size).count i :=
      Finset.sum_congr rfl fun i _ => class_card i
    _ = (owned.map fun node => sizeClass other node.size).card :=
      Multiset.sum_count_eq_card fun i _ => Finset.mem_univ i
    _ = owned.card := Multiset.card_map ..

end MemoryPool

/-- Two nodes for each session, and one for the receive buffer. -/
theorem Pointers.card_owned (o : Pointers) (k : Nat) : 1 + 2 * o.sessions.card ≤ (o.owned k).card := by
  have each : ∀ this ∈ o.sessions,
      2 ≤ (o.fixed k this + ↑(o.tcpDataWaitForSendDeque this)).card := by
    intro this _
    rw [Multiset.card_add]
    exact Nat.le_add_right ..
  have sessions := Finset.card_nsmul_le_sum o.sessions _ 2 each
  rw [owned, Multiset.card_cons, Multiset.card_add, Multiset.card_sum]
  rw [smul_eq_mul] at sessions
  omega

namespace Worker
variable {S α : Type} [Served S] {w w' : Worker S α}

/-- What the map of the sessions says, it goes on saying. -/
def Retains (w w' : Worker S α) : Prop :=
  ∀ sessionId this, w.sessionMap sessionId = some this → w'.sessionMap sessionId = some this

omit [Served S] in
theorem Retains.of_same (same : w'.sessionMap = w.sessionMap) : Retains w w' := by
  intro sessionId this entry
  rw [same]
  exact entry

theorem run_retains {this : Nat} {f : S → Option S} (ran : w.run this f = some w') :
    Retains w w' := by
  obtain ⟨s, t, timeWheel, -, -, -, rfl⟩ := run_cases ran
  exact .of_same rfl

/-- A session that is built and registered. -/
theorem register_retains {this : Nat} {s : S} {sessionId : SessionId} {f : S → Option S}
    (ran : ((w.construct this s).emplace sessionId this).run this f = some w') : Retains w w' := by
  obtain ⟨u, t, timeWheel, -, -, -, rfl⟩ := run_cases ran
  intro id p entry
  change (if (w.sessionMap sessionId).isSome then w.sessionMap
    else Function.update w.sessionMap sessionId (some this)) id = some p
  split
  · exact entry
  · rename_i unknown
    have other : id ≠ sessionId := by
      rintro rfl
      exact unknown (by rw [entry]; rfl)
    rw [Function.update_of_ne other]
    exact entry

theorem common_retains {A : AesGcm} {other : Int → Fin 4} {handle : S → Session.Event → Option S}
    {addressed : S → Packet → α} {e : Event} (step : CommonStep A other handle addressed w e w') :
    Retains w w' := by
  cases step with
  | session _ _ _ ran => exact run_retains ran
  | kcpCallBack node called =>
      obtain ⟨q, requests, rfl⟩ := kcpCallBack_cases called
      exact .of_same rfl
  | sent _ _ => exact .of_same rfl
  | doCurrentTimeWheel _ => exact .of_same rfl

end Worker

theorem Home.step_retains {A : AesGcm} {other : Int → Fin 4} {w w' : Worker} {e : Worker.Event}
    (step : Step A other w e w') : w.Retains w' := by
  cases step with
  | common step => exact Worker.common_retains step
  | receive _ arrived received =>
      obtain ⟨buf, -, rfl⟩ := Option.map_eq_some_iff.mp arrived
      rw [receiveHandler, if_neg Bool.false_ne_true] at received
      obtain ⟨buf', sessionId, len, v, delivered, rfl⟩ := Worker.decode_cases received
      unfold deliver at delivered
      split at delivered
      · exact fun id this entry => Worker.run_retains delivered id this entry
      · cases delivered
        exact .of_same rfl
  | receiveError _ received =>
      cases received
      exact .of_same rfl
  | registerSession _ _ registered => exact Worker.register_retains registered

theorem Vps.step_retains {A : AesGcm} {other : Int → Fin 4} {w w' : Worker} {e : Worker.Event}
    (step : Step A other w e w') : w.Retains w' := by
  cases step with
  | common step => exact Worker.common_retains step
  | receive _ arrived unused received =>
      obtain ⟨buf, -, rfl⟩ := Option.map_eq_some_iff.mp arrived
      rw [receiveHandler, if_neg Bool.false_ne_true] at received
      split at received
      · cases received
        exact .of_same rfl
      · obtain ⟨buf', sessionId, len, v, delivered, rfl⟩ := Worker.decode_cases received
        unfold deliver at delivered
        split at delivered
        · exact fun id this entry => Worker.run_retains delivered id this entry
        · obtain ⟨u, registered, ran⟩ := Option.bind_eq_some_iff.mp delivered
          intro id this entry
          exact Worker.run_retains ran id this (Worker.register_retains registered id this entry)
  | receiveError _ received =>
      cases received
      exact .of_same rfl

namespace Worker.Housed
variable {S α : Type} [Served S] {S₀ : MemoryPool.Setting} {other : Int → Fin 4} {k : Nat}
  {Step₀ : Worker S α → Event → Worker S α → Prop} {Handles : Handling S α} {nodes : Using S α}
  {st st' : Housed S α}

/-- Each id of the map has a session of its own. -/
theorem card_ids (h : st.worker.Holds) (linked : st.worker.Linked st.pointers)
    {ids : Finset SessionId} (known : ∀ id ∈ ids, (st.worker.sessionMap id).isSome) :
    ids.card ≤ st.pointers.sessions.card := by
  refine Finset.card_le_card_of_injOn (fun id => (st.worker.sessionMap id).getD 0) ?_ ?_
  · intro id member
    obtain ⟨this, entry⟩ := Option.isSome_iff_exists.mp (known id member)
    obtain ⟨s, here, -⟩ := h.mapped id this entry
    simp only [entry, Option.getD_some]
    exact linked.member here
  · intro id member id' member' same
    obtain ⟨this, entry⟩ := Option.isSome_iff_exists.mp (known id member)
    obtain ⟨this', entry'⟩ := Option.isSome_iff_exists.mp (known id' member')
    simp only [entry, entry', Option.getD_some] at same
    subst same
    obtain ⟨s, here, own⟩ := h.mapped id this entry
    obtain ⟨s', here', own'⟩ := h.mapped id' this entry'
    cases here.symm.trans here'
    exact own.symm.trans own'

/-- What all the ids cost that a worker has ever had a session for. -/
structure Retained (S₀ : MemoryPool.Setting) (other : Int → Fin 4) (ids : Finset SessionId)
    (st st' : Housed S α) : Prop where
  map : ∀ id ∈ ids, st'.worker.sessionMap id = st.worker.sessionMap id
  nodes : ∃ live, Reachable (MemoryPool.Step other) (MemoryPool.Built S₀) ⟨st'.pool, live⟩ ∧
    1 + 2 * ids.card ≤ ∑ i, (live i).length

theorem Keeping.retained (keeping : Keeping other k Step₀ Handles nodes)
    (retains : ∀ w e w', Step₀ w e w' → w.Retains w')
    (reachable : Reachable (Staying (fun st => st.worker.Fits k) (Step other Handles nodes))
      (Started S₀ other) st) {es : List (Event × ReceiveCalls)}
    (trace : Trace (Staying (fun st => st.worker.Fits k) (Step other Handles nodes)) st es st')
    {ids : Finset SessionId} (known : ∀ id ∈ ids, (st.worker.sessionMap id).isSome) :
    Retained S₀ other ids st st' := by
  obtain ⟨sound, kept⟩ : st'.Sound S₀ other k Step₀ ∧ st.worker.Retains st'.worker := by
    refine trace.invariant (I := fun st' => st'.Sound S₀ other k Step₀ ∧
      st.worker.Retains st'.worker) ?_ ⟨keeping.sound reachable, fun _ _ entry => entry⟩
    rintro u e v ⟨sound, kept⟩ ⟨step, fits⟩
    obtain ⟨taken, sound'⟩ := keeping.follows sound step fits
    exact ⟨sound', fun id this entry => retains _ _ _ taken id this (kept id this entry)⟩
  have map : ∀ id ∈ ids, st'.worker.sessionMap id = st.worker.sessionMap id := by
    intro id member
    obtain ⟨this, entry⟩ := Option.isSome_iff_exists.mp (known id member)
    rw [entry, kept id this entry]
  refine ⟨map, ?_⟩
  obtain ⟨live, used, inUse⟩ := sound.holds.1
  refine ⟨live, used, ?_⟩
  have ids_le := card_ids (keeping.holds sound.worker) sound.linked
    fun id member => (map id member).symm ▸ known id member
  have nodes_le := st'.pointers.card_owned k
  rw [inUse.card]
  omega

end Worker.Housed

/-- In either program a session id costs memory for ever: `closeSession` takes its session off
the wheel, and nothing takes it out of the map. -/
theorem sessions_retained (A : AesGcm) (S₀ : MemoryPool.Setting) (other : Int → Fin 4)
    (structTaskSize : Nat) :
    (∀ st es st' ids, Reachable (Staying (fun st => st.worker.Fits structTaskSize)
        (Worker.Housed.Step other (Home.Handles A other) (Home.nodes A structTaskSize)))
        (Worker.Housed.Started S₀ other) st →
      Trace (Staying (fun st => st.worker.Fits structTaskSize)
        (Worker.Housed.Step other (Home.Handles A other) (Home.nodes A structTaskSize))) st es st' →
      (∀ id ∈ ids, (st.worker.sessionMap id).isSome) →
      Worker.Housed.Retained S₀ other ids st st') ∧
    (∀ st es st' ids, Reachable (Staying (fun st => st.worker.Fits structTaskSize)
        (Worker.Housed.Step other (Vps.Handles A other) (Vps.nodes A structTaskSize)))
        (Worker.Housed.Started S₀ other) st →
      Trace (Staying (fun st => st.worker.Fits structTaskSize)
        (Worker.Housed.Step other (Vps.Handles A other) (Vps.nodes A structTaskSize))) st es st' →
      (∀ id ∈ ids, (st.worker.sessionMap id).isSome) →
      Worker.Housed.Retained S₀ other ids st st') :=
  ⟨fun _ _ _ _ reachable trace known => (Home.keeping A other structTaskSize).retained
      (fun _ _ _ => Home.step_retains) reachable trace known,
    fun _ _ _ _ reachable trace known => (Vps.keeping A other structTaskSize).retained
      (fun _ _ _ => Vps.step_retains) reachable trace known⟩

/-- A handler of a session, in the memory of the pool. -/
theorem Home.exists_handled {A : AesGcm} {other : Int → Fin 4} {k : Nat}
    {S₀ : MemoryPool.Setting} {st : Worker.Housed Session Packet}
    (sound : st.Sound S₀ other k (Step A other)) (fits : st.worker.Fits k) {p : Nat} {s t : Session}
    {f : Session.Event} (found : st.worker.sessions p = some s) (socket : Worker.onSocket f = true)
    (moved : SessionStep s f t) (modest : t.Modest) :
    ∃ calls st', Worker.Housed.Step other (Handles A other) (nodes A k) st
      (.session p f, calls) st' ∧ st'.worker.Fits k ∧ st'.Sound S₀ other k (Step A other) ∧
      st'.worker.sessions p = some (Worker.answered t) := by
  have keeping := Home.keeping A other k
  have holds := keeping.holds sound.worker
  have functional {w' : Worker} (step : Step A other st.worker (.session p f) w') :
      w'.Fits k ∧ w'.sessions p = some (Worker.answered t) := by
    obtain ⟨u, found', moves⟩ := step_moves holds step found
    cases step with
    | common step =>
        cases step with
        | session _ here _ ran =>
            cases found.symm.trans here
            rcases Worker.run_sessions ran found with ⟨-, u, handled, after⟩ | ⟨apart, -⟩
            · cases moved.2.symm.trans handled
              refine ⟨fits.run ran fun s' u' here handled => ?_, after⟩
              cases found.symm.trans here
              cases moved.2.symm.trans handled
              exact modest
            · exact absurd rfl apart
  obtain ⟨w', step, -⟩ := exists_step A other holds found socket moved
  obtain ⟨calls, succeeds⟩ := (keeping.safe sound).goes _ w' step (functional step).1
  obtain ⟨r, pool, runs⟩ := succeeds.exists_run
  obtain ⟨e, v, alike, same, taken⟩ := succeeds.ends runs
  have fits' : v.Fits k := (functional step).1.of_same same
  cases e with
  | session this g =>
      cases alike
      obtain ⟨follows, sound'⟩ := keeping.follows sound taken fits'
      exact ⟨calls, _, taken, fits', sound', (functional follows).2⟩
  | _ => cases alike

/-- The client closes the connection that it has made. -/
theorem sessions_retained_registered : ∃ (st st' : Worker.Housed Home.Session Packet)
    (p : Nat) (s : Home.Session), st'.worker.sessions p = some s ∧ s.sessionClose = true ∧
      st.worker.sessionMap (.replicate 16 1) = some p ∧
      Worker.Housed.Retained MemoryPool.megabytes (fun _ => 0) {.replicate 16 1} st st' := by
  obtain ⟨w, new, -⟩ := Worker.exists_started (S := Session) (α := Packet)
  obtain ⟨st₀, -, started⟩ := Worker.Housed.exists_started new fun _ => 0
  obtain ⟨p, calls, st, registers, requests, entry, endpoint, found⟩ :=
    Home.exists_accepted .sample (k := 400) started (by decide) (.replicate 16 1)
  have fits : st.worker.Fits 400 := by
    rw [Worker.Fits, requests]
    decide
  obtain ⟨-, sound⟩ := (Home.keeping .sample (fun _ => 0) 400).follows
    (Worker.Housed.started_sound started) registers fits
  obtain ⟨calls₁, st₁, ends, fits₁, sound₁, found₁⟩ := Home.exists_handled sound fits found
    (f := .readDone 0 .eof) rfl ⟨⟨rfl, Nat.zero_le _⟩, rfl⟩ (Session.modest_quiet rfl)
  obtain ⟨calls₂, st₂, closes, fits₂, -, found₂⟩ := Home.exists_handled sound₁ fits₁ found₁
    (f := .readHandler 0 .eof) rfl ⟨rfl, rfl⟩ fun _ asked => by cases List.mem_singleton.mp asked
  have known : ∀ id ∈ ({.replicate 16 1} : Finset SessionId),
      (st.worker.sessionMap id).isSome := by
    intro id member
    rw [Finset.mem_singleton.mp member, entry]
    rfl
  exact ⟨st, st₂, p, _, found₂, rfl, entry,
    (sessions_retained .sample MemoryPool.megabytes (fun _ => 0) 400).1 st _ st₂ _
      ((Reachable.init started).trace (.single ⟨registers, fits⟩))
      (.cons ⟨ends, fits₁⟩ (.single ⟨closes, fits₂⟩)) known⟩

end TransparentProxyNet
