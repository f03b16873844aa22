import Mathlib.Data.List.Infix
import Mathlib.Data.List.Nodup
import RewardsDriver.Base.Loop

/-!
Going through a linked list whose elements may change the list when it is their turn.

The nodes of a `LinkedList` have identities that are never used again, in the order of the list,
since nodes are only added at its end. An iterator is at a node or past the end; moving on from a
node that has been removed in the meantime is a read of freed memory.

* `LinkedList`, `Change`: the list, with the order of the identities as a field, and its changes.
* `visit`, `traverse`: the turn of one element, and `for (auto& x : list)` as a loop.
* `mem_changeAll_iff`: which of the old nodes are left after changes.
* `TraversalInv`, `TraversalInv.visit`: **the invariant** of the loop.
* `traverse_ends`: the loop ends when at some point nothing more is added.
-/

namespace RewardsDriver

universe u

/-- A linked list: the nodes with their identities, and the next identity. -/
structure LinkedList (α : Type u) where
  nodes : List (ℕ × α)
  fresh : ℕ
  sorted : nodes.Pairwise fun n m => n.1 < m.1
  below : ∀ n ∈ nodes, n.1 < fresh

/-- A change of a list: an addition at the end, or the removal of all nodes of a value. -/
inductive Change (α : Type u) where
  | pushBack (a : α)
  | remove (a : α)

/-- An iterator: at a node, past the end, or read from a node that had been freed. -/
inductive Iter (α : Type u) where
  | node (n : ℕ × α)
  | past
  | freed

namespace LinkedList

variable {α : Type u}

/-- The list without nodes. -/
def empty : LinkedList α := ⟨[], 0, List.Pairwise.nil, fun _ h => absurd h List.not_mem_nil⟩

/-- `push_back`. -/
def pushBack (l : LinkedList α) (a : α) : LinkedList α where
  nodes := l.nodes ++ [(l.fresh, a)]
  fresh := l.fresh + 1
  sorted := List.pairwise_append.mpr ⟨l.sorted, List.pairwise_singleton _ _, fun n hn m hm => by
    obtain rfl := List.mem_singleton.mp hm
    exact l.below n hn⟩
  below := fun n hn => by
    obtain hn | hn := List.mem_append.mp hn
    · exact (l.below n hn).trans (Nat.lt_succ_self _)
    · obtain rfl := List.mem_singleton.mp hn
      exact Nat.lt_succ_self _

variable [DecidableEq α]

/-- `remove`. -/
def remove (l : LinkedList α) (a : α) : LinkedList α where
  nodes := l.nodes.filter fun n => n.2 ≠ a
  fresh := l.fresh
  sorted := l.sorted.sublist List.filter_sublist
  below := fun n hn => l.below n (List.mem_filter.mp hn).1

/-- One change. -/
def change (l : LinkedList α) : Change α → LinkedList α
  | .pushBack a => l.pushBack a
  | .remove a => l.remove a

/-- Changes, in order. -/
def changeAll (l : LinkedList α) (cs : List (Change α)) : LinkedList α := cs.foldl change l

/-- `begin()`. -/
def first (l : LinkedList α) : Iter α :=
  match l.nodes with
  | [] => .past
  | n :: _ => .node n

/-- The iterator at `n`, moved on. -/
def next (l : LinkedList α) (n : ℕ × α) : Iter α :=
  if n ∈ l.nodes then
    match l.nodes.find? fun m => n.1 < m.1 with
    | some m => .node m
    | none => .past
  else .freed

end LinkedList

/-! ### The loop -/

/-- A loop over a list on its way: the list, the iterator and the nodes whose turn it has been. -/
structure Traversal (α : Type u) where
  list : LinkedList α
  it : Iter α
  visited : List (ℕ × α)

section Loop

variable {α : Type u}

/-- The condition of the loop. -/
def Traversal.going (s : Traversal α) : Bool :=
  match s.it with
  | .node _ => true
  | _ => false

variable [DecidableEq α]

/-- One turn: the changes that are made depend on the elements whose turn it has been, the present
one included. -/
def visit (act : List α → List (Change α)) (s : Traversal α) : Traversal α :=
  match s.it with
  | .node n =>
      let visited := s.visited ++ [n]
      let list := s.list.changeAll (act (visited.map Prod.snd))
      ⟨list, list.next n, visited⟩
  | _ => s

/-- The loop over a list, with at most `fuel` tests of its condition. -/
def traverse (act : List α → List (Change α)) (fuel : ℕ) (l : LinkedList α) :
    Option (Traversal α) :=
  loop Traversal.going (visit act) fuel ⟨l, l.first, []⟩

end Loop

/-! ### Changes -/

namespace LinkedList

variable {α : Type u} [DecidableEq α]

omit [DecidableEq α] in
/-- Nodes of one identity are equal. -/
lemma eq_of_id_eq {l : LinkedList α} {n m : ℕ × α} (hn : n ∈ l.nodes) (hm : m ∈ l.nodes)
    (hid : n.1 = m.1) : n = m := by
  have hnodup : (l.nodes.map Prod.fst).Nodup :=
    List.pairwise_map.mpr (l.sorted.imp fun hlt => hlt.ne)
  exact List.inj_on_of_nodup_map hnodup hn hm hid

/-- **Which of the old nodes are left**: those whose value is not removed. -/
lemma mem_changeAll_iff {l : LinkedList α} {cs : List (Change α)} {n : ℕ × α}
    (hn : n.1 < l.fresh) :
    n ∈ (l.changeAll cs).nodes ↔ n ∈ l.nodes ∧ .remove n.2 ∉ cs := by
  induction cs generalizing l with
  | nil => simp [changeAll]
  | cons c cs ih =>
      cases c with
      | pushBack a =>
          have hne : n ≠ (l.fresh, a) := fun h => by
            rw [h] at hn
            exact absurd hn (lt_irrefl _)
          have hpush : n ∈ (l.pushBack a).nodes ↔ n ∈ l.nodes := by simp [pushBack, hne]
          show n ∈ ((l.pushBack a).changeAll cs).nodes ↔ _
          rw [ih (hn.trans (Nat.lt_succ_self _)), hpush]
          simp
      | remove a =>
          have hremove : n ∈ (l.remove a).nodes ↔ n ∈ l.nodes ∧ n.2 ≠ a := by simp [remove]
          show n ∈ ((l.remove a).changeAll cs).nodes ↔ _
          rw [ih (l := l.remove a) hn, hremove]
          simp only [List.mem_cons, Change.remove.injEq, not_or]
          tauto

/-- Identities are only used up. -/
lemma fresh_le_changeAll (l : LinkedList α) (cs : List (Change α)) :
    l.fresh ≤ (l.changeAll cs).fresh := by
  induction cs generalizing l with
  | nil => exact le_rfl
  | cons c cs ih =>
      have hone : l.fresh ≤ (l.change c).fresh := by
        cases c with
        | pushBack a => exact Nat.le_succ _
        | remove a => exact le_rfl
      exact hone.trans (ih (l.change c))

end LinkedList

/-! ### The invariant -/

section Invariant

variable {α : Type u} [DecidableEq α] {act : List α → List (Change α)} {l : LinkedList α}

/-- The turn of `n`, after those of `p`, removes the value of `m`. -/
def Removes (act : List α → List (Change α)) (p : List (ℕ × α)) (n m : ℕ × α) : Prop :=
  .remove m.2 ∈ act ((p ++ [n]).map Prod.snd)

/-- The turn of a node before `m` has removed the value of `m`. -/
def RemovedEarlier (act : List α → List (Change α)) (visited : List (ℕ × α)) (m : ℕ × α) : Prop :=
  ∃ p n, p ++ [n] <+: visited ∧ n.1 < m.1 ∧ Removes act p n m

/-- A node that the iterator has not passed. -/
def Ahead (m : ℕ × α) : Iter α → Prop
  | .node n => n.1 ≤ m.1
  | .past => False
  | .freed => True

/-- The invariant of the loop over `l`. -/
structure TraversalInv (act : List α → List (Change α)) (l : LinkedList α) (s : Traversal α) :
    Prop where
  fresh_le : l.fresh ≤ s.list.fresh
  ordered : s.visited.Pairwise fun n m => n.1 < m.1
  /-- The iterator is at a node of the list, behind those whose turn it has been. -/
  current : ∀ n, s.it = .node n → n ∈ s.list.nodes ∧ ∀ v ∈ s.visited, v.1 < n.1
  /-- What the iterator has passed has had its turn. -/
  passed : ∀ m ∈ s.list.nodes, m ∈ s.visited ∨ Ahead m s.it
  /-- An old node that is still there has not been removed. -/
  alive : ∀ m ∈ l.nodes, m ∈ s.list.nodes → ∀ p n, p ++ [n] <+: s.visited → ¬ Removes act p n m
  /-- An old node has had its turn, or has been removed before it, or is still there. -/
  seen : ∀ m ∈ l.nodes, m ∈ s.visited ∨ RemovedEarlier act s.visited m ∨ m ∈ s.list.nodes
  /-- A node that has had its turn had not been removed before it. -/
  turn : ∀ m ∈ l.nodes, m ∈ s.visited → ¬ RemovedEarlier act s.visited m
  /-- The iterator is freed when the node at which it is removes itself, and only then. -/
  freed : s.it = .freed ↔ ∃ p n, p ++ [n] <+: s.visited ∧ Removes act p n n

omit [DecidableEq α] in
/-- The turns so far are the earlier ones and the last one. -/
lemma prefix_visit_iff {visited p : List (ℕ × α)} {n m : ℕ × α} :
    p ++ [m] <+: visited ++ [n] ↔ p ++ [m] <+: visited ∨ (p = visited ∧ m = n) := by
  rw [List.prefix_concat_iff, List.append_singleton_inj, or_comm]

omit [DecidableEq α] in
lemma not_prefix_nil {p : List (ℕ × α)} {m : ℕ × α} : ¬ p ++ [m] <+: [] := by
  simp

/-- Where the iterator goes: past the end only when nothing is behind, to the first node behind. -/
lemma next_cases {l : LinkedList α} {n : ℕ × α} (hn : n ∈ l.nodes) :
    (l.next n = .past ∧ ∀ m ∈ l.nodes, m.1 ≤ n.1) ∨
      ∃ m ∈ l.nodes, l.next n = .node m ∧ n.1 < m.1 ∧ ∀ k ∈ l.nodes, n.1 < k.1 → m.1 ≤ k.1 := by
  rw [LinkedList.next, if_pos hn]
  cases hfind : l.nodes.find? fun m => n.1 < m.1 with
  | none =>
      refine .inl ⟨rfl, fun m hm => ?_⟩
      have hnone := List.find?_eq_none.mp hfind m hm
      simpa using hnone
  | some m =>
      have hlt : n.1 < m.1 := by simpa using List.find?_some hfind
      refine .inr ⟨m, List.mem_of_find?_eq_some hfind, rfl, hlt, fun k hk hnk => ?_⟩
      obtain ⟨-, as, bs, hsplit, has⟩ := List.find?_eq_some_iff_append.mp hfind
      rw [hsplit] at hk
      have hsorted := l.sorted
      rw [hsplit, List.pairwise_append, List.pairwise_cons] at hsorted
      obtain hk | hk := List.mem_append.mp hk
      · have hnot := has k hk
        simp only [Bool.not_eq_true', decide_eq_false_iff_not] at hnot
        exact absurd hnk hnot
      · obtain rfl | hk := List.mem_cons.mp hk
        · exact le_rfl
        · exact (hsorted.2.1.1 k hk).le

/-- The iterator is freed where the node has been removed. -/
lemma next_eq_freed_iff {l : LinkedList α} {n : ℕ × α} : l.next n = .freed ↔ n ∉ l.nodes := by
  constructor
  · intro hfreed hn
    obtain ⟨hpast, -⟩ | ⟨m, -, hnode, -⟩ := next_cases hn
    · rw [hpast] at hfreed
      cases hfreed
    · rw [hnode] at hfreed
      cases hfreed
  · intro hn
    rw [LinkedList.next, if_neg hn]

omit [DecidableEq α] in
lemma traversalInv_init (act : List α → List (Change α)) (l : LinkedList α) :
    TraversalInv act l ⟨l, l.first, []⟩ where
  fresh_le := le_rfl
  ordered := List.Pairwise.nil
  current := fun n hn => by
    cases hnodes : l.nodes with
    | nil => simp [LinkedList.first, hnodes] at hn
    | cons m ms =>
        simp only [LinkedList.first, hnodes, Iter.node.injEq] at hn
        subst hn
        exact ⟨List.mem_cons_self, fun v hv => absurd hv List.not_mem_nil⟩
  passed := fun m hm => .inr <| by
    have hsorted := l.sorted
    cases hnodes : l.nodes with
    | nil => simp [hnodes] at hm
    | cons n ns =>
        simp only [hnodes] at hm hsorted
        simp only [LinkedList.first, hnodes]
        obtain rfl | hm := List.mem_cons.mp hm
        · exact le_rfl
        · exact ((List.pairwise_cons.mp hsorted).1 m hm).le
  alive := fun _ _ _ _ _ hp => absurd hp not_prefix_nil
  seen := fun m hm => .inr (.inr hm)
  turn := fun m _ hm => absurd hm List.not_mem_nil
  freed := by
    constructor
    · intro hfreed
      cases hnodes : l.nodes <;> simp [LinkedList.first, hnodes] at hfreed
    · rintro ⟨p, n, hp, -⟩
      exact absurd hp not_prefix_nil

/-- **One turn** keeps the invariant. -/
theorem TraversalInv.visit {s : Traversal α} (h : TraversalInv act l s)
    (hgoing : s.going = true) : TraversalInv act l (visit act s) := by
  obtain ⟨list, it, visited⟩ := s
  cases it with
  | past | freed => cases hgoing
  | node n =>
  obtain ⟨hn, hbelow⟩ := h.current n rfl
  -- Of the nodes that were there, the turn leaves those that it does not remove.
  have hmem : ∀ m, m.1 < list.fresh →
      (m ∈ (list.changeAll (act ((visited ++ [n]).map Prod.snd))).nodes ↔
        m ∈ list.nodes ∧ ¬ Removes act visited n m) := fun m hm => LinkedList.mem_changeAll_iff hm
  show TraversalInv act l ⟨list.changeAll (act ((visited ++ [n]).map Prod.snd)),
    (list.changeAll (act ((visited ++ [n]).map Prod.snd))).next n, visited ++ [n]⟩
  have hfresh := LinkedList.fresh_le_changeAll list (act ((visited ++ [n]).map Prod.snd))
  generalize list.changeAll (act ((visited ++ [n]).map Prod.snd)) = list' at hmem hfresh ⊢
  have hold : ∀ m ∈ l.nodes, m.1 < list.fresh := fun m hm =>
    (l.below m hm).trans_le h.fresh_le
  have hlast : visited ++ [n] <+: visited ++ [n] := List.prefix_rfl
  constructor
  · exact h.fresh_le.trans hfresh
  · exact List.pairwise_append.mpr ⟨h.ordered, List.pairwise_singleton _ _, fun v hv m hm => by
      obtain rfl := List.mem_singleton.mp hm
      exact hbelow v hv⟩
  · intro m hm
    have hin : n ∈ list'.nodes := by
      by_contra hout
      rw [next_eq_freed_iff.mpr hout] at hm
      cases hm
    obtain ⟨hpast, -⟩ | ⟨k, hk, hnode, hlt, -⟩ := next_cases hin
    · rw [hpast] at hm
      cases hm
    · obtain rfl : k = m := Iter.node.inj (hnode.symm.trans hm)
      refine ⟨hk, fun v hv => ?_⟩
      obtain hv | hv := List.mem_append.mp hv
      · exact (hbelow v hv).trans hlt
      · rwa [List.mem_singleton.mp hv]
  · intro m hm
    by_cases hin : n ∈ list'.nodes
    · by_cases hlt : n.1 < m.1
      · right
        obtain ⟨-, hall⟩ | ⟨k, -, hnode, -, hfirst⟩ := next_cases hin
        · exact absurd (hall m hm) (by omega)
        · rw [hnode]
          exact hfirst m hm hlt
      · -- What is not behind the present node was there before its turn.
        left
        have hnfresh := list.below n hn
        have hml : m ∈ list.nodes := ((hmem m (by omega)).mp hm).1
        obtain hv | hahead := h.passed m hml
        · exact List.mem_append_left _ hv
        · have hle : n.1 ≤ m.1 := hahead
          have hnm : n = m := LinkedList.eq_of_id_eq hn hml (by omega)
          rw [hnm]
          exact List.mem_append_right _ (List.mem_singleton_self m)
    · right
      rw [next_eq_freed_iff.mpr hin]
      trivial
  · intro m hm hin p k hp
    obtain ⟨hml, hnot⟩ := (hmem m (hold m hm)).mp hin
    obtain hp | ⟨rfl, rfl⟩ := prefix_visit_iff.mp hp
    · exact h.alive m hm hml p k hp
    · exact hnot
  · intro m hm
    obtain hv | ⟨p, k, hp, hlt, hremoves⟩ | hml := h.seen m hm
    · exact .inl (List.mem_append_left _ hv)
    · exact .inr (.inl ⟨p, k, prefix_visit_iff.mpr (.inl hp), hlt, hremoves⟩)
    · obtain hv | hahead := h.passed m hml
      · exact .inl (List.mem_append_left _ hv)
      · have hle : n.1 ≤ m.1 := hahead
        by_cases heq : n.1 = m.1
        · left
          rw [LinkedList.eq_of_id_eq hn hml heq]
          exact List.mem_append_right _ (List.mem_singleton_self m)
        · by_cases hremoves : Removes act visited n m
          · exact .inr (.inl ⟨visited, n, hlast, by omega, hremoves⟩)
          · exact .inr (.inr ((hmem m (hold m hm)).mpr ⟨hml, hremoves⟩))
  · rintro m hm hturn ⟨p, k, hp, hlt, hremoves⟩
    obtain hv | hv := List.mem_append.mp hturn
    · obtain hp | ⟨rfl, rfl⟩ := prefix_visit_iff.mp hp
      · exact h.turn m hm hv ⟨p, k, hp, hlt, hremoves⟩
      · have hmk := hbelow m hv
        omega
    · obtain rfl := List.mem_singleton.mp hv
      obtain hp | ⟨rfl, rfl⟩ := prefix_visit_iff.mp hp
      · exact h.alive m hm hn p k hp hremoves
      · exact absurd hlt (lt_irrefl _)
  · have hnone : ¬ ∃ p m, p ++ [m] <+: visited ∧ Removes act p m m := by
      intro hsome
      cases h.freed.mpr hsome
    rw [next_eq_freed_iff, hmem n (list.below n hn)]
    constructor
    · intro hout
      have hremoves : Removes act visited n n := by
        by_contra hnot
        exact hout ⟨hn, hnot⟩
      exact ⟨visited, n, hlast, hremoves⟩
    · rintro ⟨p, m, hp, hremoves⟩ ⟨-, hnot⟩
      obtain hp | ⟨rfl, rfl⟩ := prefix_visit_iff.mp hp
      · exact hnone ⟨p, m, hp, hremoves⟩
      · exact hnot hremoves

/-- The invariant where the loop has ended. -/
lemma traversalInv_traverse {fuel : ℕ} {t : Traversal α} (ht : traverse act fuel l = some t) :
    TraversalInv act l t ∧ t.going = false :=
  loop_keeps (fun _ h hgoing => h.visit hgoing) (traversalInv_init act l) ht

/-! ### The end of the loop -/

/-- Without additions no identity is used up. -/
lemma fresh_changeAll {cs : List (Change α)} (hcs : ∀ a, .pushBack a ∉ cs) (l : LinkedList α) :
    (l.changeAll cs).fresh = l.fresh := by
  induction cs generalizing l with
  | nil => rfl
  | cons c cs ih =>
      have hrest : (l.changeAll (c :: cs)).fresh = (l.change c).fresh :=
        ih (fun a ha => hcs a (List.mem_cons_of_mem c ha)) (l.change c)
      cases c with
      | pushBack a => exact absurd List.mem_cons_self (hcs a)
      | remove a => exact hrest

/-- How far the iterator is from the identities that are still to be used. -/
def Traversal.gap (s : Traversal α) : ℕ :=
  match s.it with
  | .node n => s.list.fresh - n.1
  | _ => 0

/-- From some number of turns on nothing is added. -/
def Settles (act : List α → List (Change α)) (N : ℕ) : Prop :=
  ∀ vs : List α, N ≤ vs.length → ∀ a, .pushBack a ∉ act vs

/-- A turn without additions brings the iterator nearer to the end. -/
lemma gap_visit_lt {N : ℕ} (hact : Settles act N) {s : Traversal α} (h : TraversalInv act l s)
    (hN : N ≤ s.visited.length) (hgoing : s.going = true) : (visit act s).gap < s.gap := by
  have hnext := h.visit hgoing
  obtain ⟨list, it, visited⟩ := s
  cases it with
  | past | freed => cases hgoing
  | node n =>
  obtain ⟨hn, -⟩ := h.current n rfl
  have hbelow := list.below n hn
  have hlength : N ≤ ((visited ++ [n]).map Prod.snd).length := by
    rw [List.length_map, List.length_append]
    exact hN.trans (Nat.le_add_right _ _)
  have hfresh := fresh_changeAll (hact _ hlength) list
  have hpositive : 0 < list.fresh - n.1 := by omega
  show Traversal.gap ⟨list.changeAll (act ((visited ++ [n]).map Prod.snd)),
    (list.changeAll (act ((visited ++ [n]).map Prod.snd))).next n, visited ++ [n]⟩ <
      list.fresh - n.1
  cases hit : (list.changeAll (act ((visited ++ [n]).map Prod.snd))).next n with
  | past | freed => exact hpositive
  | node k =>
      obtain ⟨-, hlater⟩ := hnext.current k hit
      have hlt : n.1 < k.1 := hlater n (List.mem_append_right _ (List.mem_singleton_self n))
      show (list.changeAll _).fresh - k.1 < list.fresh - n.1
      rw [hfresh]
      omega

/-- The loop ends from wherever it is. -/
lemma ends_from {N : ℕ} (hact : Settles act N) (k : ℕ) {s : Traversal α}
    (h : TraversalInv act l s) (hk : N ≤ s.visited.length + k) :
    ∃ t fuel, loop Traversal.going (visit act) fuel s = some t := by
  induction k generalizing s with
  | zero =>
      have hkeep : ∀ s : Traversal α, s.going = true →
          s.visited.length ≤ (visit act s).visited.length := by
        rintro ⟨list, it, visited⟩ hgoing
        cases it with
        | past | freed => cases hgoing
        | node n =>
            show visited.length ≤ (visited ++ [n]).length
            rw [List.length_append]
            exact Nat.le_add_right _ _
      obtain ⟨t, ht, -⟩ := loop_ends
        (fun s : Traversal α => TraversalInv act l s ∧ N ≤ s.visited.length) Traversal.gap
        (fun s hs hgoing => ⟨hs.1.visit hgoing, hs.2.trans (hkeep s hgoing)⟩)
        (fun s hs hgoing => gap_visit_lt hact hs.1 hs.2 hgoing) ⟨h, hk⟩ (Nat.lt_succ_self _)
      exact ⟨t, _, ht⟩
  | succ k ih =>
      cases hgoing : s.going with
      | false => exact ⟨s, 1, by rw [loop, hgoing]; rfl⟩
      | true =>
          have hmore : N ≤ (visit act s).visited.length + k := by
            obtain ⟨list, it, visited⟩ := s
            cases it with
            | past | freed => cases hgoing
            | node n =>
                show N ≤ (visited ++ [n]).length + k
                rw [List.length_append, List.length_singleton]
                have hk' : N ≤ visited.length + (k + 1) := hk
                omega
          obtain ⟨t, fuel, ht⟩ := ih (h.visit hgoing) hmore
          exact ⟨t, fuel + 1, by rw [loop, hgoing, if_pos rfl, ht]⟩

/-- **The loop ends** if from some turn on nothing is added. -/
theorem traverse_ends {N : ℕ} (hact : Settles act N) (l : LinkedList α) :
    ∃ t bound, ∀ fuel ≥ bound, traverse act fuel l = some t := by
  obtain ⟨t, bound, ht⟩ := ends_from hact N (traversalInv_init act l) (Nat.le_add_left N _)
  exact ⟨t, bound, fun fuel hfuel => loop_mono hfuel ht⟩

end Invariant

end RewardsDriver
