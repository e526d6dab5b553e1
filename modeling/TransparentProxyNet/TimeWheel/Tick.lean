import TransparentProxyNet.TimeWheel.Runs

/-! One tick, with a callback that may answer differently at every call: which tasks it
runs, and where every task is afterwards. -/
namespace TransparentProxyNet.TimeWheel
open Links SlotWheel

variable {T : Type} {σ : Type}

/-- Following `next_` from the header of slot `i` meets these tasks, in this order. -/
def Chain (w : TimeWheel T) (i : Nat) (ts : List T) : Prop :=
  Visits (fun u => w.links.next (.node u)) (w.links.next (.header i)) ts

/-- The callback, with a record of its calls and what it answered. -/
def logged (ctwCallBack : σ → T → σ × UInt32) (log : σ × List (T × UInt32)) (t : T) :
    (σ × List (T × UInt32)) × UInt32 :=
  let (s, nextTime) := ctwCallBack log.1 t
  ((s, log.2 ++ [(t, nextTime)]), nextTime)

/-- What the callback answers when it is called for these tasks, one after the other. -/
def replies (ctwCallBack : σ → T → σ × UInt32) : σ → List T → List (T × UInt32)
  | _, [] => []
  | s, t :: ts => (t, (ctwCallBack s t).2) :: replies ctwCallBack (ctwCallBack s t).1 ts

/-- The slots an answer asks to wait. -/
def request (call : T × UInt32) : T × Option Nat :=
  (call.1, if call.2 > 0 then some (ticks call.2) else none)

/-- A tick from `w` to `w'` with these calls of the callback. -/
structure RunsOnce [DecidableEq T] (w w' : TimeWheel T) (calls : List (T × UInt32)) : Prop where
  current : Chain w w.currentTaskNumber (calls.map Prod.fst)
  once : (calls.map Prod.fst).Nodup
  formed : ∃ r, Refines w' r
  linked : ∀ t, Linked w' t ↔ Linked w t ∧ (t, 0) ∉ calls
  others : ∀ i < timeWheelLength, ∀ ts ts', Chain w i ts → Chain w' i ts' →
    ts'.filter (· ∉ calls.map Prod.fst) = ts.filter (· ∉ calls.map Prod.fst)
  again : ∀ t next, (t, next) ∈ calls → next > 0 → ∃ ts, t ∈ ts ∧
    Chain w' ((w.currentTaskNumber + max 1 (next.toNat / 3)) % timeWheelLength) ts
  index : w'.currentTaskNumber = (w.currentTaskNumber + 1) % timeWheelLength

theorem replies_tasks (ctwCallBack : σ → T → σ × UInt32) (s : σ) (ts : List T) :
    (replies ctwCallBack s ts).map Prod.fst = ts := by
  induction ts generalizing s with
  | nil => rfl
  | cons t ts ih => rw [replies, List.map_cons, ih]

theorem callAll_requests (ctwCallBack : σ → T → σ × UInt32) (s : σ) (ts : List T) :
    (callAll ctwCallBack s ts).2 = (replies ctwCallBack s ts).map request := by
  induction ts generalizing s with
  | nil => rfl
  | cons t ts ih =>
      rw [replies, List.map_cons, ← ih]
      rfl

theorem callAll_logged (ctwCallBack : σ → T → σ × UInt32) (s : σ) (calls : List (T × UInt32))
    (ts : List T) : callAll (logged ctwCallBack) (s, calls) ts =
      (((callAll ctwCallBack s ts).1, calls ++ replies ctwCallBack s ts),
        (callAll ctwCallBack s ts).2) := by
  induction ts generalizing s calls with
  | nil => simp [callAll, replies]
  | cons t ts ih => simp [callAll, replies, logged, ih]

theorem runSlot_logged [DecidableEq T] (ctwCallBack : σ → T → σ × UInt32) (fuel : Nat)
    (w : TimeWheel T) (s : σ) (calls : List (T × UInt32)) (p : Option T) :
    (runSlot (logged ctwCallBack) fuel w (s, calls) p).map (Prod.map id Prod.fst) =
      runSlot ctwCallBack fuel w s p := by
  induction fuel generalizing w s calls p with
  | zero => cases p <;> rfl
  | succ fuel ih =>
      cases p with
      | none => rfl
      | some t =>
          simp only [runSlot, logged, Option.map_bind, Function.comp_def, ih]
          rfl

/-- The record is only a record. -/
theorem doCurrentTimeWheel_logged [DecidableEq T] (ctwCallBack : σ → T → σ × UInt32) (fuel : Nat)
    (w : TimeWheel T) (s : σ) (calls : List (T × UInt32)) :
    (doCurrentTimeWheel (logged ctwCallBack) fuel w (s, calls)).map (Prod.map id Prod.fst) =
      doCurrentTimeWheel ctwCallBack fuel w s := by
  simp only [doCurrentTimeWheel, ← runSlot_logged ctwCallBack fuel _ s calls, Option.map_map]
  rfl

theorem Refines.chain {w : TimeWheel T} {r : Wheel T} (h : Refines w r) (i : Fin 1000) :
    Chain w i.val (r.slot i) := slotLists_val r i ▸ (h.links i.val).visits

theorem Refines.chain_eq {w : TimeWheel T} {r : Wheel T} (h : Refines w r) {i : Fin 1000}
    {ts : List T} (chain : Chain w i.val ts) : ts = r.slot i :=
  Visits.unique chain (h.chain i)

/-- A task was called once, so that its answer is a function of it. -/
theorem reply_unique {calls : List (T × UInt32)} (once : (calls.map Prod.fst).Nodup) {t : T}
    {v v' : UInt32} (here : (t, v) ∈ calls) (there : (t, v') ∈ calls) : v = v' :=
  congrArg Prod.snd (List.inj_on_of_nodup_map once here there rfl)

theorem mem_requests {calls : List (T × UInt32)} {t : T} {k : Nat} :
    (t, some k) ∈ calls.map request ↔ ∃ next, (t, next) ∈ calls ∧ next > 0 ∧ ticks next = k := by
  simp only [List.mem_map, request, Prod.mk.injEq]
  constructor
  · rintro ⟨⟨u, next⟩, member, rfl, asked⟩
    split at asked
    · exact ⟨next, member, ‹_›, Option.some.inj asked⟩
    · cases asked
  · rintro ⟨next, member, positive, rfl⟩
    exact ⟨(t, next), member, rfl, if_pos positive⟩

section
variable {w w' : TimeWheel T} {r : Wheel T} {calls : List (T × UInt32)}

/-- A task is lost only by the answer 0. -/
theorem linked_after (h : Refines w r) (tasks : calls.map Prod.fst = r.slot r.cur)
    (h' : Refines w' (r.tick (calls.map request))) (t : T) :
    Linked w' t ↔ Linked w t ∧ (t, 0) ∉ calls := by
  have ran {u : T} {v : UInt32} (member : (u, v) ∈ calls) : u ∈ r.slot r.cur :=
    tasks ▸ List.mem_map_of_mem (f := Prod.fst) member
  have once : (calls.map Prod.fst).Nodup := tasks ▸ h.distinct.nodup r.cur
  rw [h'.linked_iff, h.linked_iff]
  constructor
  · rintro ⟨i, member⟩
    rcases mem_tick.mp member with ⟨k, asked, -⟩ | ⟨away, old⟩
    · obtain ⟨next, called, positive, -⟩ := mem_requests.mp asked
      refine ⟨⟨r.cur, ran called⟩, fun zero => ?_⟩
      rw [reply_unique once called zero] at positive
      exact absurd positive (by decide)
    · exact ⟨⟨i, old⟩, fun zero => away (h.distinct.disjoint old (ran zero))⟩
  · rintro ⟨⟨i, member⟩, kept⟩
    by_cases here : i = r.cur
    · subst here
      rw [← tasks] at member
      obtain ⟨⟨u, next⟩, called, rfl⟩ := List.mem_map.mp member
      have positive : next > 0 := by
        rw [gt_iff_lt, UInt32.pos_iff_ne_zero]
        rintro rfl
        exact kept called
      exact ⟨_, mem_tick.mpr (.inl ⟨_, mem_requests.mpr ⟨next, called, positive, rfl⟩, rfl⟩)⟩
    · exact ⟨i, mem_tick.mpr (.inr ⟨here, member⟩)⟩

theorem runsOnce_of_tick [DecidableEq T] (h : Refines w r)
    (tasks : calls.map Prod.fst = r.slot r.cur) (h' : Refines w' (r.tick (calls.map request))) :
    RunsOnce w w' calls where
  current := by
    rw [tasks, h.cur]
    exact h.chain r.cur
  once := tasks ▸ h.distinct.nodup r.cur
  formed := ⟨_, h'⟩
  linked := linked_after h tasks h'
  others := by
    intro i bound ts ts' chain chain'
    rw [h.chain_eq (i := ⟨i, bound⟩) chain, h'.chain_eq (i := ⟨i, bound⟩) chain', tasks]
    apply tick_kept
    · intro o member
      obtain ⟨call, called, rfl⟩ := List.mem_map.mp member
      have current : call.1 ∈ r.slot r.cur := tasks ▸ List.mem_map_of_mem (f := Prod.fst) called
      simp [request, current]
    · intro t current
      simp [current]
  again := by
    intro t next called positive
    have target : (w.currentTaskNumber + max 1 (next.toNat / 3)) % timeWheelLength =
        (onward r.cur (ticks next)).val := by
      rw [val_onward, h.cur, ticks_eq]
      rfl
    rw [target]
    have asked := mem_requests.mpr ⟨next, called, positive, rfl⟩
    exact ⟨_, mem_tick.mpr (.inl ⟨_, asked, rfl⟩), h'.chain _⟩
  index := by
    rw [h'.cur, h.cur]
    change (r.cur + 1).val = (r.cur.val + 1) % 1000
    rw [Fin.val_add, Fin.val_one]

end

variable [DecidableEq T]

/-- `doCurrentTimeWheel` returns, whatever its callback answers. -/
theorem tick_runs_once {w : TimeWheel T} {r : Wheel T} (h : Refines w r)
    (ctwCallBack : σ → T → σ × UInt32) (s : σ) :
    ∃ steps w' s' calls, RunsOnce w w' calls ∧ ∀ fuel ≥ steps,
      doCurrentTimeWheel ctwCallBack fuel w s = some (w', s') ∧
      doCurrentTimeWheel (logged ctwCallBack) fuel w (s, []) = some (w', s', calls) := by
  obtain ⟨w', ticked, h'⟩ := h.doCurrentTimeWheel (logged ctwCallBack) le_rfl (s, [])
  rw [callAll_logged, List.nil_append] at ticked h'
  rw [callAll_requests] at h'
  refine ⟨(r.slot r.cur).length, w', (callAll ctwCallBack s (r.slot r.cur)).1,
    replies ctwCallBack s (r.slot r.cur),
    runsOnce_of_tick h (replies_tasks ctwCallBack s _) h', fun fuel enough => ?_⟩
  have done := doCurrentTimeWheel_mono _ enough ticked
  refine ⟨?_, done⟩
  rw [← doCurrentTimeWheel_logged ctwCallBack fuel w s [], done]
  rfl

/-- A task whose answer 3000 leads back into the slot that is being run. -/
theorem tick_runs_once_full_turn : ∃ w, emptyWheel.mountTask 7 3000 = some w ∧
    ∃ steps w' s' calls, RunsOnce w w' calls ∧ ∀ fuel ≥ steps,
      doCurrentTimeWheel (fun n _ => (n + 1, 3000)) fuel w 0 = some (w', s') ∧
      doCurrentTimeWheel (logged fun n _ => (n + 1, 3000)) fuel w (0, []) =
        some (w', s', calls) := by
  have fresh : Fresh emptyWheel := ⟨rfl, fun _ => rfl⟩
  obtain ⟨w, mounted, refines, -⟩ :=
    (fresh_refines fresh).mountTask (t := 7) (fun _ member => by cases member) 3000
  exact ⟨w, mounted, tick_runs_once refines (fun n _ => (n + 1, 3000)) 0⟩

end TransparentProxyNet.TimeWheel
