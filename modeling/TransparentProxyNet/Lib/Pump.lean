import Mathlib.Algebra.Ring.Nat
import Mathlib.Data.List.InsertIdx

/-! A queue whose front item is handed to an asynchronous operation, one at a time,
and removed when the operation's handler runs. The primitives are those of a deque
and of an executor; how a program orders them is its own affair. -/
namespace Pump

/-- An operation on an item: in progress (`none`), or finished with its handler still
to run, `some true` after success and `some false` after an error or an abort. -/
structure Op (α : Type*) where
  item : α
  outcome : Option Bool

/-- `started` records, in order, every item an operation was ever started for. -/
structure Queue (α : Type*) where
  items : List α
  pending : List (Op α)
  started : List α

variable {α : Type*}

def Queue.idle : Queue α := ⟨[], [], []⟩

/-- Start an operation on the front item; `none` when there is no front item. -/
def Queue.start (q : Queue α) (outcome : Option Bool) : Option (Queue α) :=
  match q.items with
  | [] => none
  | a :: _ => some { q with pending := q.pending ++ [⟨a, outcome⟩], started := q.started ++ [a] }

def Queue.pushBack (q : Queue α) (a : α) : Queue α := { q with items := q.items ++ [a] }

def Queue.popFront (q : Queue α) : Option (Queue α) :=
  match q.items with
  | [] => none
  | _ :: rest => some { q with items := rest }

def Queue.clear (q : Queue α) : Queue α := { q with items := [] }

/-- The handler of the `i`-th pending operation runs. -/
def Queue.retire (q : Queue α) (i : Nat) : Queue α := { q with pending := q.pending.eraseIdx i }

/-- The `i`-th pending operation ends, if it has not ended before. -/
def Queue.complete (q : Queue α) (i : Nat) (ok : Bool) : Queue α :=
  { q with
    pending := q.pending.modify i fun op => { op with outcome := some (op.outcome.getD ok) } }

/-- All operations in progress end in failure; those that have ended keep their outcome. -/
def Queue.abort (q : Queue α) : Queue α :=
  { q with pending := q.pending.map fun op => { op with outcome := some (op.outcome.getD false) } }

/-- Push, and start the pump when it stood still. -/
def Queue.submit (q : Queue α) (a : α) (outcome : Option Bool) : Option (Queue α) :=
  if q.items.isEmpty then (q.pushBack a).start outcome else some (q.pushBack a)

theorem Queue.start_items {q q' : Queue α} {outcome : Option Bool}
    (started : q.start outcome = some q') : q'.items = q.items := by
  unfold Queue.start at started
  split at started
  · cases started
  · cases started
    rfl

theorem Queue.popFront_items {q q' : Queue α} (popped : q.popFront = some q') :
    q'.items = q.items.tail := by
  unfold Queue.popFront at popped
  split at popped
  · cases popped
  · rename_i items
    cases popped
    rw [items, List.tail_cons]

theorem Queue.popFront_started {q q' : Queue α} (popped : q.popFront = some q') :
    q'.started = q.started := by
  unfold Queue.popFront at popped
  split at popped
  · cases popped
  · cases popped
    rfl

theorem Queue.popFront_pending {q q' : Queue α} (popped : q.popFront = some q') :
    q'.pending = q.pending := by
  unfold Queue.popFront at popped
  split at popped
  · cases popped
  · cases popped
    rfl

theorem Queue.submit_total (q : Queue α) (a : α) (outcome : Option Bool) :
    ∃ q', q.submit a outcome = some q' := by
  cases items : q.items with
  | nil => exact ⟨_, by simp [Queue.submit, Queue.pushBack, Queue.start, items]; rfl⟩
  | cons b rest => exact ⟨q.pushBack a, by simp [Queue.submit, items]⟩

theorem Queue.submit_items {q q' : Queue α} {a : α} {outcome : Option Bool}
    (submitted : q.submit a outcome = some q') : q'.items = q.items ++ [a] := by
  unfold Queue.submit at submitted
  split at submitted
  · rename_i empty
    rw [List.isEmpty_iff] at empty
    simp only [Queue.start, Queue.pushBack, empty, List.nil_append] at submitted
    cases submitted
    rw [empty, List.nil_append]
  · cases submitted
    rfl

/-- The items that wait, and those an operation was ever started for. -/
def Queue.entries (q : Queue α) : List α := q.items ++ q.started

theorem Queue.mem_start {q q' : Queue α} {outcome : Option Bool}
    (started : q.start outcome = some q') {a : α} (member : a ∈ q'.entries) : a ∈ q.entries := by
  unfold Queue.start at started
  split at started
  · cases started
  · rename_i items
    cases started
    simp only [Queue.entries, items, List.mem_append, List.mem_cons] at member ⊢
    tauto

theorem Queue.mem_pushBack {q : Queue α} {a b : α} (member : b ∈ (q.pushBack a).entries) :
    b ∈ q.entries ∨ b = a := by
  simp only [Queue.entries, Queue.pushBack, List.mem_append, List.mem_singleton] at member ⊢
  tauto

theorem Queue.mem_popFront {q q' : Queue α} (popped : q.popFront = some q') {a : α}
    (member : a ∈ q'.entries) : a ∈ q.entries := by
  rw [Queue.entries, Queue.popFront_items popped, Queue.popFront_started popped] at member
  rcases List.mem_append.mp member with waits | ran
  · exact List.mem_append_left _ (List.mem_of_mem_tail waits)
  · exact List.mem_append_right _ ran

theorem Queue.mem_submit {q q' : Queue α} {a b : α} {outcome : Option Bool}
    (submitted : q.submit a outcome = some q') (member : b ∈ q'.entries) :
    b ∈ q.entries ∨ b = a := by
  unfold Queue.submit at submitted
  split at submitted
  · exact Queue.mem_pushBack (Queue.mem_start submitted member)
  · cases submitted
    exact Queue.mem_pushBack member

/-- The same queue, of what `f` makes of the items. -/
def Queue.map {β : Type*} (f : α → β) (q : Queue α) : Queue β where
  items := q.items.map f
  pending := q.pending.map fun op => ⟨f op.item, op.outcome⟩
  started := q.started.map f

theorem Queue.map_pushBack {β : Type*} (f : α → β) (q : Queue α) (a : α) :
    (q.pushBack a).map f = (q.map f).pushBack (f a) := by
  simp [Queue.map, Queue.pushBack]

theorem Queue.map_start {β : Type*} (f : α → β) (q : Queue α) (outcome : Option Bool) :
    (q.start outcome).map (Queue.map f) = (q.map f).start outcome := by
  cases items : q.items with
  | nil => simp [Queue.start, Queue.map, items]
  | cons a rest => simp [Queue.start, Queue.map, items]

theorem Queue.map_popFront {β : Type*} (f : α → β) (q : Queue α) :
    q.popFront.map (Queue.map f) = (q.map f).popFront := by
  cases items : q.items with
  | nil => simp [Queue.popFront, Queue.map, items]
  | cons a rest => simp [Queue.popFront, Queue.map, items]

theorem Queue.map_retire {β : Type*} (f : α → β) (q : Queue α) (i : Nat) :
    (q.retire i).map f = (q.map f).retire i := by
  simp [Queue.retire, Queue.map, List.eraseIdx_map]

/-- Submitting looks at no item. -/
theorem Queue.map_submit {β : Type*} (f : α → β) (q : Queue α) (a : α) (outcome : Option Bool) :
    (q.submit a outcome).map (Queue.map f) = (q.map f).submit (f a) outcome := by
  have empty : (q.map f).items.isEmpty = q.items.isEmpty := List.isEmpty_map
  unfold Queue.submit
  rw [empty, ← Queue.map_pushBack]
  split
  · exact Queue.map_start f _ outcome
  · rfl

/-- Go on with the next item, when there is one. -/
def Queue.resume (q : Queue α) (outcome : Option Bool) : Option (Queue α) :=
  if q.items.isEmpty then some q else q.start outcome

theorem Queue.map_resume {β : Type*} (f : α → β) (q : Queue α) (outcome : Option Bool) :
    (q.resume outcome).map (Queue.map f) = (q.map f).resume outcome := by
  have empty : (q.map f).items.isEmpty = q.items.isEmpty := List.isEmpty_map
  unfold Queue.resume
  rw [empty]
  split
  · rfl
  · exact Queue.map_start f q outcome

theorem Queue.mem_resume_pending {q q' : Queue α} {outcome : Option Bool}
    (resumed : q.resume outcome = some q') {op : Op α} (member : op ∈ q'.pending) :
    op ∈ q.pending ∨ op.outcome = outcome := by
  unfold Queue.resume Queue.start at resumed
  split at resumed
  · cases resumed
    exact .inl member
  · split at resumed
    · cases resumed
    · cases resumed
      rw [List.mem_append, List.mem_singleton] at member
      exact member.imp id fun new => congrArg Op.outcome new

theorem Queue.length_resume_pending {q q' : Queue α} {outcome : Option Bool}
    (resumed : q.resume outcome = some q') : q'.pending.length ≤ q.pending.length + 1 := by
  unfold Queue.resume Queue.start at resumed
  split at resumed
  · cases resumed
    exact Nat.le_succ _
  · split at resumed
    · cases resumed
    · cases resumed
      simp

theorem Queue.resume_items {q q' : Queue α} {outcome : Option Bool}
    (resumed : q.resume outcome = some q') : q'.items = q.items := by
  unfold Queue.resume at resumed
  split at resumed
  · cases resumed
    rfl
  · exact Queue.start_items resumed

/-! ### What stays pending -/

theorem mem_eraseIdx_of_ne {xs : List α} {i : Nat} {x : α} (member : x ∈ xs)
    (other : xs[i]? ≠ some x) : x ∈ xs.eraseIdx i := by
  obtain ⟨j, there⟩ := List.mem_iff_getElem?.mp member
  refine List.mem_eraseIdx_iff_getElem?.mpr ⟨j, ?_, there⟩
  rintro rfl
  exact other there

theorem mem_set_of_ne {xs : List α} {i : Nat} {x : α} (y : α) (member : x ∈ xs)
    (other : xs[i]? ≠ some x) : x ∈ xs.set i y := by
  obtain ⟨j, there⟩ := List.mem_iff_getElem?.mp member
  refine List.mem_iff_getElem?.mpr ⟨j, ?_⟩
  rwa [List.getElem?_set_ne]
  rintro rfl
  exact other there

theorem mem_modify_of_eq {xs : List α} {f : α → α} {x : α} (i : Nat) (member : x ∈ xs)
    (fixed : f x = x) : x ∈ xs.modify i f := by
  obtain ⟨j, there⟩ := List.mem_iff_getElem?.mp member
  refine List.mem_iff_getElem?.mpr ⟨j, ?_⟩
  rw [List.getElem?_modify, there]
  simp [fixed]

/-- An operation that has ended is not ended again. -/
theorem Queue.mem_complete {q : Queue α} {op : Op α} (member : op ∈ q.pending)
    (ended : op.outcome.isSome) (i : Nat) (ok : Bool) : op ∈ (q.complete i ok).pending := by
  refine mem_modify_of_eq i member ?_
  obtain ⟨item, outcome⟩ := op
  obtain ⟨known, rfl⟩ := Option.isSome_iff_exists.mp ended
  rfl

theorem Queue.pending_subset_start {q q' : Queue α} {outcome : Option Bool}
    (started : q.start outcome = some q') : q.pending ⊆ q'.pending := by
  unfold Queue.start at started
  split at started
  · cases started
  · cases started
    exact List.subset_append_left ..

theorem Queue.pending_subset_submit {q q' : Queue α} {a : α} {outcome : Option Bool}
    (submitted : q.submit a outcome = some q') : q.pending ⊆ q'.pending := by
  unfold Queue.submit at submitted
  split at submitted
  · exact Queue.pending_subset_start (q := q.pushBack a) submitted
  · cases submitted
    exact List.Subset.refl _

theorem Queue.pending_subset_resume {q q' : Queue α} {outcome : Option Bool}
    (resumed : q.resume outcome = some q') : q.pending ⊆ q'.pending := by
  unfold Queue.resume at resumed
  split at resumed
  · cases resumed
    exact List.Subset.refl _
  · exact Queue.pending_subset_start resumed

/-- The pump runs: there is an operation for the front item, and for no other. -/
def Queue.Running (q : Queue α) : Prop := q.pending.map Op.item = q.items.head?.toList

/-- The items of `log` are those already started, then those still to be started. -/
def Queue.Accounts (q : Queue α) (log : List α) : Prop :=
  q.started ++ q.items.drop q.pending.length = log

variable {q : Queue α}

theorem running_idle : (Queue.idle : Queue α).Running := rfl

@[simp] theorem Queue.abort_items (q : Queue α) : q.abort.items = q.items := rfl

@[simp] theorem Queue.complete_items (q : Queue α) (i : Nat) (ok : Bool) :
    (q.complete i ok).items = q.items := rfl

@[simp] theorem Queue.abort_pending_items (q : Queue α) :
    q.abort.pending.map Op.item = q.pending.map Op.item := by
  simp [Queue.abort, Function.comp_def]

@[simp] theorem Queue.complete_pending_items (q : Queue α) (i : Nat) (ok : Bool) :
    (q.complete i ok).pending.map Op.item = q.pending.map Op.item := by
  refine List.ext_getElem? ?_
  intro j
  simp only [Queue.complete, List.getElem?_map, List.getElem?_modify]
  split <;> cases q.pending[j]? <;> simp

theorem Queue.Running.abort (h : q.Running) : q.abort.Running := by
  rw [Queue.Running, Queue.abort_pending_items, h, Queue.abort_items]

theorem Queue.Running.complete (h : q.Running) (i : Nat) (ok : Bool) :
    (q.complete i ok).Running := by
  rw [Queue.Running, Queue.complete_pending_items, h, Queue.complete_items]

/-- The pump runs or stands still. -/
def Queue.Settled (q : Queue α) : Prop := q.pending = [] ∨ q.Running

theorem Queue.Settled.abort (h : q.Settled) : q.abort.Settled :=
  h.imp (fun still => by simp [Queue.abort, still]) Queue.Running.abort

theorem Queue.Settled.complete (h : q.Settled) (i : Nat) (ok : Bool) : (q.complete i ok).Settled :=
  h.imp (fun still => by simp [Queue.complete, still]) (fun running => running.complete i ok)

theorem Queue.Settled.running (h : q.Settled) {i : Nat} {op : Op α}
    (run : q.pending[i]? = some op) : q.Running := by
  rcases h with still | running
  · simp [still] at run
  · exact running

theorem Queue.Settled.length_le (h : q.Settled) : q.pending.length ≤ 1 := by
  rcases h with none | running
  · rw [none]
    exact Nat.zero_le 1
  · have short := congrArg List.length running
    rw [List.length_map] at short
    rw [short]
    cases q.items.head? <;> simp

theorem Queue.Accounts.complete {log : List α} (h : q.Accounts log) (i : Nat) (ok : Bool) :
    (q.complete i ok).Accounts log := by
  simpa [Queue.Accounts, Queue.complete] using h

/-- A queue that is not pumped just grows. -/
theorem Queue.Accounts.pushBack {log : List α} (h : q.Accounts log) (still : q.pending = [])
    (a : α) : (q.pushBack a).Accounts (log ++ [a]) := by
  rw [← h]
  simp [Queue.Accounts, Queue.pushBack, still]

theorem Queue.Running.pending_eq (h : q.Running) :
    (q.items = [] ∧ q.pending = []) ∨ ∃ op rest, q.items = op.item :: rest ∧ q.pending = [op] := by
  unfold Queue.Running at h
  cases items : q.items with
  | nil =>
      rw [items] at h
      exact .inl ⟨rfl, List.map_eq_nil_iff.mp h⟩
  | cons a rest =>
      rw [items] at h
      obtain ⟨op, pending, rfl⟩ := List.map_eq_singleton_iff.mp h
      exact .inr ⟨op, rest, rfl, pending⟩

theorem Queue.Running.nonempty_iff (h : q.Running) : q.items ≠ [] ↔ q.pending.length = 1 := by
  rcases h.pending_eq with ⟨items, pending⟩ | ⟨op, rest, items, pending⟩ <;> simp [items, pending]

/-- The handler that runs belongs to the only operation, and that one to the front item. -/
theorem Queue.Running.handler (h : q.Running) {i : Nat} {op : Op α}
    (run : q.pending[i]? = some op) :
    i = 0 ∧ q.pending = [op] ∧ ∃ rest, q.items = op.item :: rest := by
  rcases h.pending_eq with ⟨_, pending⟩ | ⟨op', rest, items, pending⟩
  · simp [pending] at run
  · rw [pending, List.getElem?_singleton] at run
    split at run
    · cases run
      exact ⟨‹_›, pending, rest, items⟩
    · cases run

theorem Queue.Running.submit (h : q.Running) (a : α) (outcome : Option Bool) :
    ∃ q', q.submit a outcome = some q' ∧ q'.Running ∧ q'.items = q.items ++ [a] ∧
      (∀ log, q.Accounts log → q'.Accounts (log ++ [a])) := by
  rcases h.pending_eq with ⟨items, pending⟩ | ⟨op, rest, items, pending⟩
  · refine ⟨{ items := [a], pending := [⟨a, outcome⟩], started := q.started ++ [a] }, ?_,
      rfl, ?_, ?_⟩
    · simp [Queue.submit, Queue.pushBack, Queue.start, items, pending]
    · simp [items]
    · intro log accounts
      rw [← accounts]
      simp [Queue.Accounts, items, pending]
  · refine ⟨q.pushBack a, ?_, ?_, rfl, ?_⟩
    · simp [Queue.submit, items]
    · simp [Queue.Running, Queue.pushBack, items, pending]
    · intro log accounts
      rw [← accounts]
      simp [Queue.Accounts, Queue.pushBack, items, pending]

theorem resume_running (still : q.pending = []) (outcome : Option Bool) :
    ∃ q', q.resume outcome = some q' ∧ q'.Running ∧ q'.items = q.items ∧
      (∀ log, q.Accounts log → q'.Accounts log) := by
  cases items : q.items with
  | nil =>
      refine ⟨q, ?_, ?_, items, fun _ => id⟩
      · simp [Queue.resume, items]
      · simp [Queue.Running, items, still]
  | cons a rest =>
      refine ⟨{ items := a :: rest, pending := [⟨a, outcome⟩], started := q.started ++ [a] }, ?_,
        rfl, rfl, ?_⟩
      · simp [Queue.resume, Queue.start, items, still]
      · intro log accounts
        rw [← accounts]
        simp [Queue.Accounts, items, still]

/-- Retire the only operation and drop its item: what is left is accounted for as before. -/
theorem Queue.Running.finish (h : q.Running) {i : Nat} {op : Op α} (run : q.pending[i]? = some op) :
    ∃ q', (q.retire i).popFront = some q' ∧ q.items = op.item :: q'.items ∧ q'.pending = [] ∧
      (∀ log, q.Accounts log → q'.Accounts log) := by
  obtain ⟨rfl, pending, rest, items⟩ := h.handler run
  refine ⟨{ q with items := rest, pending := [] }, ?_, items, rfl, ?_⟩
  · simp [Queue.retire, Queue.popFront, items, pending]
  · intro log accounts
    rw [← accounts]
    simp [Queue.Accounts, items, pending]

/-! ### What is left to do -/

/-- An operation has still to end and to have its handler run, or only the latter. -/
def Op.load (op : Op α) : Nat := if op.outcome.isSome then 1 else 2

def Queue.load (q : Queue α) : Nat :=
  2 * (q.items.length - q.pending.length) + (q.pending.map Op.load).sum

theorem Queue.load_pushBack (still : q.pending = []) (a : α) :
    (q.pushBack a).load = q.load + 2 := by
  simp [Queue.load, Queue.pushBack, still, Nat.mul_add]

theorem Queue.load_resume (still : q.pending = []) {q' : Queue α}
    (resumed : q.resume none = some q') : q'.load = q.load := by
  cases items : q.items with
  | nil =>
      simp only [Queue.resume, items, List.isEmpty_nil, if_true] at resumed
      cases resumed
      rfl
  | cons a rest =>
      simp only [Queue.resume, Queue.start, items, List.isEmpty_cons] at resumed
      cases resumed
      simp [Queue.load, Op.load, items, still, Nat.mul_add]

theorem Queue.Running.load_submit (h : q.Running) {a : α} {q' : Queue α}
    (submitted : q.submit a none = some q') : q'.load = q.load + 2 := by
  rcases h.pending_eq with ⟨items, pending⟩ | ⟨op, rest, items, pending⟩
  · simp only [Queue.submit, Queue.pushBack, Queue.start, items, List.isEmpty_nil, if_true,
      List.nil_append] at submitted
    cases submitted
    simp [Queue.load, Op.load, items, pending]
  · simp only [Queue.submit, items, List.isEmpty_cons] at submitted
    cases submitted
    simp only [Queue.load, Queue.pushBack, items, pending, List.length_append, List.length_cons,
      List.length_nil, List.map_cons, List.map_nil, List.sum_cons, List.sum_nil]
    omega

/-- The end of an operation is work done. -/
theorem Queue.Running.load_complete (h : q.Running) {i : Nat}
    (run : (q.pending[i]?).map Op.outcome = some none) (ok : Bool) :
    (q.complete i ok).load + 1 = q.load := by
  obtain ⟨op, at_i, open_⟩ := Option.map_eq_some_iff.mp run
  obtain ⟨rfl, pending, rest, items⟩ := h.handler at_i
  simp [Queue.load, Queue.complete, Op.load, pending, items, open_]

/-- So is the handler that drops the item and goes on with the next one. -/
theorem Queue.Running.load_finish (h : q.Running) {i : Nat} {ok : Bool}
    (run : (q.pending[i]?).map Op.outcome = some (some ok)) {q₁ q₂ : Queue α}
    (popped : (q.retire i).popFront = some q₁) (resumed : q₁.resume none = some q₂) :
    q₂.load + 1 = q.load := by
  obtain ⟨op, at_i, ended⟩ := Option.map_eq_some_iff.mp run
  obtain ⟨q', popped', items, still, -⟩ := h.finish at_i
  obtain ⟨-, pending, -⟩ := h.handler at_i
  cases popped'.symm.trans popped
  rw [Queue.load_resume still resumed]
  simp [Queue.load, Op.load, pending, items, still, ended]

end Pump
