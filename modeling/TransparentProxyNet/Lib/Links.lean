import Mathlib.Algebra.Ring.Nat
import Mathlib.Data.List.Basic
import Mathlib.Data.List.Nodup
import Mathlib.Logic.Function.Basic

/-! Linked lists in a pointer store: singly linked chains that end in null, and
intrusive doubly linked lists that hang off headers. A header is used as if it
were a node: only its `next` pointer exists. -/
namespace Links

/-- Following `next` from the pointer `p` meets exactly the nodes `xs` and then null. -/
def Visits {T : Type*} (next : T → Option T) : Option T → List T → Prop
  | p, [] => p = none
  | p, x :: xs => p = some x ∧ Visits next (next x) xs

section Chains
variable {T : Type*} {next next' : T → Option T} {p : Option T} {x : T} {xs ys : List T}

@[simp] theorem visits_nil : Visits next p [] ↔ p = none := Iff.rfl

theorem Visits.unique (h : Visits next p xs) (h' : Visits next p ys) : xs = ys := by
  induction xs generalizing p ys with
  | nil =>
      cases ys with
      | nil => rfl
      | cons y ys => rw [visits_nil.mp h] at h'; cases h'.1
  | cons x xs ih =>
      cases ys with
      | nil => rw [visits_nil.mp h'] at h; cases h.1
      | cons y ys =>
          have same : x = y := Option.some.inj (h.1.symm.trans h'.1)
          subst same
          rw [ih h.2 h'.2]

theorem Visits.drop {pre : List T} (h : Visits next p (pre ++ x :: xs)) :
    Visits next (next x) xs := by
  induction pre generalizing p with
  | nil => exact h.2
  | cons y pre ih => exact ih h.2

/-- A chain that ends cannot meet a node twice: both tails would be equal. -/
theorem Visits.nodup (h : Visits next p xs) : xs.Nodup := by
  induction xs generalizing p with
  | nil => exact List.nodup_nil
  | cons x xs ih =>
      refine List.nodup_cons.mpr ⟨?_, ih h.2⟩
      intro member
      obtain ⟨pre, post, split⟩ := List.append_of_mem member
      have again : Visits next (next x) post := by
        rw [split] at h
        exact h.2.drop
      have lengths := congrArg List.length (h.2.unique again)
      rw [split] at lengths
      simp only [List.length_append, List.length_cons] at lengths
      omega

theorem Visits.congr (h : Visits next p xs) (same : ∀ x ∈ xs, next' x = next x) :
    Visits next' p xs := by
  induction xs generalizing p with
  | nil => exact h
  | cons x xs ih =>
      refine ⟨h.1, ?_⟩
      rw [same x List.mem_cons_self]
      exact ih h.2 fun y member => same y (List.mem_cons_of_mem x member)

end Chains

/-- What a `next` pointer can be read from: a list header, or a node. -/
inductive Link (H T : Type*) where
  | header (h : H)
  | node (t : T)
  deriving DecidableEq

/-- The two pointers of the nodes, and the `next` pointer of the headers. -/
structure Store (H T : Type*) where
  next : Link H T → Option T
  ahead : T → Option (Link H T)

variable {H T : Type*}

def Store.setNext [DecidableEq H] [DecidableEq T] (s : Store H T) (l : Link H T) (p : Option T) :
    Store H T := { s with next := Function.update s.next l p }

def Store.setAhead [DecidableEq T] (s : Store H T) (t : T) (l : Option (Link H T)) : Store H T :=
  { s with ahead := Function.update s.ahead t l }

@[simp] theorem setNext_next [DecidableEq H] [DecidableEq T] (s : Store H T) (l : Link H T)
    (p : Option T) : (s.setNext l p).next = Function.update s.next l p := rfl

@[simp] theorem setNext_ahead [DecidableEq H] [DecidableEq T] (s : Store H T) (l : Link H T)
    (p : Option T) : (s.setNext l p).ahead = s.ahead := rfl

@[simp] theorem setAhead_next [DecidableEq T] (s : Store H T) (t : T) (a : Option (Link H T)) :
    (s.setAhead t a).next = s.next := rfl

@[simp] theorem setAhead_ahead [DecidableEq T] (s : Store H T) (t : T) (a : Option (Link H T)) :
    (s.setAhead t a).ahead = Function.update s.ahead t a := rfl

/-- The nodes `ts` hang off `l`, in order, with their back pointers in place. -/
def Hangs (s : Store H T) : Link H T → List T → Prop
  | l, [] => s.next l = none
  | l, t :: ts => s.next l = some t ∧ s.ahead t = some l ∧ Hangs s (.node t) ts

/-- Every header carries the list that `lists` gives it. -/
def Represents (s : Store H T) (lists : H → List T) : Prop :=
  ∀ h, Hangs s (.header h) (lists h)

section
variable {s s' : Store H T} {l : Link H T} {t : T} {ts us : List T} {lists lists' : H → List T}

@[simp] theorem hangs_nil : Hangs s l [] ↔ s.next l = none := Iff.rfl

theorem Hangs.visits (h : Hangs s l ts) : Visits (fun t => s.next (.node t)) (s.next l) ts := by
  induction ts generalizing l with
  | nil => exact h
  | cons t ts ih => exact ⟨h.1, ih h.2.2⟩

theorem Hangs.nodup (h : Hangs s l ts) : ts.Nodup := h.visits.nodup

theorem Hangs.unique (h : Hangs s l ts) (h' : Hangs s l us) : ts = us := h.visits.unique h'.visits

theorem Represents.unique (rep : Represents s lists) (rep' : Represents s lists') :
    lists = lists' :=
  funext fun h => (rep h).unique (rep' h)

theorem Represents.nodup (rep : Represents s lists) (h : H) : (lists h).Nodup := (rep h).nodup

theorem Hangs.congr (h : Hangs s l ts) (start : s'.next l = s.next l)
    (next : ∀ t ∈ ts, s'.next (.node t) = s.next (.node t))
    (ahead : ∀ t ∈ ts, s'.ahead t = s.ahead t) : Hangs s' l ts := by
  induction ts generalizing l with
  | nil => exact start.trans h
  | cons t ts ih =>
      refine ⟨start.trans h.1, (ahead t List.mem_cons_self).trans h.2.1, ?_⟩
      exact ih h.2.2 (next t List.mem_cons_self)
        (fun u member => next u (List.mem_cons_of_mem t member))
        (fun u member => ahead u (List.mem_cons_of_mem t member))

/-- A back pointer leads to the start of the list or to an earlier node of it. -/
theorem Hangs.ahead_mem (h : Hangs s l ts) (member : t ∈ ts) :
    ∃ a, s.ahead t = some a ∧ (a = l ∨ ∃ u ∈ ts, a = .node u) := by
  induction ts generalizing l with
  | nil => cases member
  | cons x ts ih =>
      rcases List.mem_cons.mp member with rfl | later
      · exact ⟨l, h.2.1, .inl rfl⟩
      · obtain ⟨a, back, place⟩ := ih h.2.2 later
        refine ⟨a, back, .inr ?_⟩
        rcases place with rfl | ⟨u, inside, rfl⟩
        · exact ⟨x, List.mem_cons_self, rfl⟩
        · exact ⟨u, List.mem_cons_of_mem x inside, rfl⟩

theorem Hangs.ahead_getElem (hang : Hangs s l ts) {i : Nat} (lt : i + 1 < ts.length) :
    s.ahead ts[i + 1] = some (.node ts[i]) := by
  induction ts generalizing l i with
  | nil => cases lt
  | cons x ts ih =>
      cases i with
      | zero =>
          cases ts with
          | nil => simp at lt
          | cons y ts => exact hang.2.2.2.1
      | succ i =>
          simp only [List.length_cons] at lt
          exact ih hang.2.2 (by omega)

/-- No node hangs off two headers: walking the back pointers from it ends at one. -/
theorem Represents.disjoint (rep : Represents s lists) {h k : H} (inH : t ∈ lists h)
    (inK : t ∈ lists k) : h = k := by
  obtain ⟨i, lt, at_i⟩ := List.getElem_of_mem inH
  induction i generalizing t with
  | zero =>
      have back : s.ahead t = some (.header h) := by
        have hang := rep h
        cases shape : lists h with
        | nil => simp [shape] at lt
        | cons x xs =>
            rw [shape] at hang
            simp only [shape, List.getElem_cons_zero] at at_i
            rw [← at_i]
            exact hang.2.1
      obtain ⟨a, backK, place⟩ := (rep k).ahead_mem inK
      rw [back] at backK
      cases backK
      rcases place with same | ⟨u, _, clash⟩
      · exact Link.header.inj same
      · cases clash
  | succ i ih =>
      have back : s.ahead t = some (.node (lists h)[i]) := at_i ▸ (rep h).ahead_getElem lt
      obtain ⟨a, backK, place⟩ := (rep k).ahead_mem inK
      rw [back] at backK
      cases backK
      rcases place with clash | ⟨u, inside, same⟩
      · cases clash
      · cases same
        exact ih (List.getElem_mem _) inside (Nat.lt_of_succ_lt lt) rfl

theorem Hangs.next_mem {x f : T} {xs : List T} (h : Hangs s l (x :: xs)) (member : t ∈ x :: xs)
    (next : s.next (.node t) = some f) : f ∈ xs := by
  induction xs generalizing l x with
  | nil =>
      rw [List.mem_singleton.mp member, h.2.2] at next
      cases next
  | cons y ys ih =>
      rcases List.mem_cons.mp member with rfl | later
      · rw [h.2.2.1] at next
        exact Option.some.inj next ▸ List.mem_cons_self
      · exact List.mem_cons_of_mem y (ih h.2.2 later)

theorem Hangs.next_ne (h : Hangs s l ts) (member : t ∈ ts) : s.next (.node t) ≠ some t := by
  induction ts generalizing l with
  | nil => cases member
  | cons x xs ih =>
      rcases List.mem_cons.mp member with rfl | later
      · intro loop
        exact (List.nodup_cons.mp h.nodup).1 (h.next_mem member loop)
      · exact ih h.2.2 later

theorem Hangs.ahead_ne (h : Hangs s l ts) (start : ∀ u ∈ ts, l ≠ .node u) (member : t ∈ ts) :
    s.ahead t ≠ some (.node t) := by
  induction ts generalizing l with
  | nil => cases member
  | cons x xs ih =>
      rcases List.mem_cons.mp member with rfl | later
      · intro loop
        exact start t member (Option.some.inj (h.2.1.symm.trans loop))
      · refine ih h.2.2 ?_ later
        intro u inside eq
        exact (List.nodup_cons.mp h.nodup).1 (Link.node.inj eq ▸ inside)

/-- Nodes that hang nowhere may change freely. -/
theorem Represents.frame (rep : Represents s lists)
    (header : ∀ h, s'.next (.header h) = s.next (.header h))
    (next : ∀ h, ∀ t ∈ lists h, s'.next (.node t) = s.next (.node t))
    (ahead : ∀ h, ∀ t ∈ lists h, s'.ahead t = s.ahead t) : Represents s' lists :=
  fun h => (rep h).congr (header h) (next h) (ahead h)

/-- Clearing one header's pointer empties its list and keeps the others. -/
theorem Represents.detach [DecidableEq H] (rep : Represents s lists) {h : H}
    (cut : s'.next (.header h) = none) (next : ∀ l, l ≠ .header h → s'.next l = s.next l)
    (ahead : s'.ahead = s.ahead) : Represents s' (Function.update lists h []) := by
  intro k
  by_cases same : k = h
  · subst k
    simpa using cut
  · rw [Function.update_of_ne same]
    refine (rep k).congr (next _ fun eq => same (Link.header.inj eq)) ?_ ?_
    · exact fun t _ => next _ (by simp)
    · exact fun t _ => congrFun ahead t

/-- The pointer writes that put a node in front of one list, read off their result. -/
theorem Represents.insert [DecidableEq H] (rep : Represents s lists) {h : H}
    (fresh : ∀ k, t ∉ lists k) (head : s'.next (.header h) = some t)
    (tail : s'.next (.node t) = s.next (.header h)) (back : s'.ahead t = some (.header h))
    (pushed : ∀ f, s.next (.header h) = some f → s'.ahead f = some (.node t))
    (next : ∀ l, l ≠ .header h → l ≠ .node t → s'.next l = s.next l)
    (ahead : ∀ x, x ≠ t → s.next (.header h) ≠ some x → s'.ahead x = s.ahead x) :
    Represents s' (Function.update lists h (t :: lists h)) := by
  have apart {k u} (member : u ∈ lists k) : u ≠ t := fun eq => fresh k (eq ▸ member)
  have node {k u} (member : u ∈ lists k) : s'.next (.node u) = s.next (.node u) :=
    next _ (by simp) (by simpa using apart member)
  intro k
  by_cases same : k = h
  · subst k
    rw [Function.update_self]
    refine ⟨head, back, ?_⟩
    have hang := rep h
    cases shape : lists h with
    | nil => rw [shape] at hang; exact tail.trans hang
    | cons f fs =>
        rw [shape] at hang
        have inside {u} (member : u ∈ f :: fs) : u ∈ lists h := shape ▸ member
        refine ⟨tail.trans hang.1, pushed f hang.1,
          hang.2.2.congr (node (inside List.mem_cons_self)) ?_ ?_⟩
        · exact fun u member => node (inside (List.mem_cons_of_mem f member))
        · intro u member
          apply ahead u (apart (inside (List.mem_cons_of_mem f member)))
          intro eq
          rw [hang.1] at eq
          exact (List.nodup_cons.mp hang.nodup).1 (Option.some.inj eq ▸ member)
  · rw [Function.update_of_ne same]
    refine (rep k).congr (next _ (by simpa using same) (by simp)) (fun u member => node member) ?_
    intro u member
    refine ahead u (apart member) fun eq => same ?_
    have hang := rep h
    cases shape : lists h with
    | nil => rw [shape] at hang; rw [hang] at eq; cases eq
    | cons f fs =>
        rw [shape] at hang
        rw [hang.1] at eq
        exact rep.disjoint member (shape ▸ Option.some.inj eq ▸ List.mem_cons_self)

/-- The pointer writes that take `t` out of the list it hangs in. The induction
is on the list, so the place where `t` stands (first, inner, last) is the case split. -/
theorem Hangs.unlink [DecidableEq T] {a : Link H T} (hang : Hangs s l ts) (member : t ∈ ts)
    (start : ∀ u ∈ ts, l ≠ .node u) (back : s.ahead t = some a)
    (bridge : s'.next a = s.next (.node t))
    (pulled : ∀ f, s.next (.node t) = some f → s'.ahead f = some a)
    (next : ∀ k, k ≠ a → k ≠ .node t → s'.next k = s.next k)
    (ahead : ∀ x, x ≠ t → s.next (.node t) ≠ some x → s'.ahead x = s.ahead x) :
    Hangs s' l (ts.erase t) := by
  induction ts generalizing l with
  | nil => cases member
  | cons x xs ih =>
      have distinct := List.nodup_cons.mp hang.nodup
      by_cases same : x = t
      · subst x
        rw [List.erase_cons_head]
        have first : a = l := Option.some.inj (back.symm.trans hang.2.1)
        subst a
        have rest := hang.2.2
        cases xs with
        | nil => exact bridge.trans rest
        | cons y ys =>
            have tail := List.nodup_cons.mp rest.nodup
            have node {u} (inside : u ∈ y :: ys) : s'.next (.node u) = s.next (.node u) := by
              apply next _ (start u (List.mem_cons_of_mem t inside)).symm
              intro eq
              exact distinct.1 (Link.node.inj eq ▸ inside)
            refine ⟨bridge.trans rest.1, pulled y rest.1,
              rest.2.2.congr (node List.mem_cons_self) ?_ ?_⟩
            · exact fun u inside => node (List.mem_cons_of_mem y inside)
            · intro u inside
              refine ahead u (fun eq => distinct.1 (eq ▸ List.mem_cons_of_mem y inside)) ?_
              intro eq
              rw [rest.1] at eq
              exact tail.1 (Option.some.inj eq ▸ inside)
      · have later : t ∈ xs := (List.mem_cons.mp member).resolve_left fun eq => same eq.symm
        rw [List.erase_cons_tail (by simpa using same)]
        obtain ⟨b, backB, place⟩ := hang.2.2.ahead_mem later
        cases back.symm.trans backB
        have away : l ≠ a := by
          rcases place with rfl | ⟨u, inside, rfl⟩
          · exact start x List.mem_cons_self
          · exact start u (List.mem_cons_of_mem x inside)
        refine ⟨(next l away (start t member)).trans hang.1, ?_, ?_⟩
        · refine (ahead x same ?_).trans hang.2.1
          intro eq
          exact distinct.1 (hang.next_mem member eq)
        · exact ih hang.2.2 later fun u inside eq => distinct.1 (Link.node.inj eq ▸ inside)

theorem Represents.unlink [DecidableEq T] {a : Link H T} {h : H} (rep : Represents s lists)
    (member : t ∈ lists h) (back : s.ahead t = some a) (bridge : s'.next a = s.next (.node t))
    (pulled : ∀ f, s.next (.node t) = some f → s'.ahead f = some a)
    (next : ∀ k, k ≠ a → k ≠ .node t → s'.next k = s.next k)
    (ahead : ∀ x, x ≠ t → s.next (.node t) ≠ some x → s'.ahead x = s.ahead x) :
    Represents s' (fun k => (lists k).erase t) := by
  intro k
  change Hangs s' (.header k) ((lists k).erase t)
  by_cases same : k = h
  · subst k
    exact (rep h).unlink member (by simp) back bridge pulled next ahead
  · have other {u} (inside : u ∈ lists k) (here : u ∈ lists h) : False :=
      same (rep.disjoint inside here)
    rw [List.erase_of_not_mem fun inside => other inside member]
    obtain ⟨b, backB, place⟩ := (rep h).ahead_mem member
    cases back.symm.trans backB
    have apart {u} (inside : u ∈ lists k) : u ≠ t := fun eq => other inside (eq ▸ member)
    refine (rep k).congr (next _ ?_ (by simp)) ?_ ?_
    · rcases place with rfl | ⟨u, _, rfl⟩
      · simpa using same
      · simp
    · intro u inside
      refine next _ ?_ (by simpa using apart inside)
      rcases place with rfl | ⟨v, here, rfl⟩
      · simp
      · exact fun eq => other inside (Link.node.inj eq ▸ here)
    · intro u inside
      apply ahead u (apart inside)
      intro eq
      cases shape : lists h with
      | nil => rw [shape] at member; cases member
      | cons x xs =>
          have hang := rep h
          rw [shape] at hang member
          exact other inside (shape ▸ List.mem_cons_of_mem x (hang.next_mem member eq))

end
end Links
