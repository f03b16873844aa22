import Mathlib.Data.List.Infix
import RewardsDriver.Base.Traversal

/-!
Messages that go to every node of a linked list, while nodes are added and removed, also by the
elements whose turn it is.

* `Broadcast`, `Broadcast.change`, `Broadcast.send`: the list, and what has been sent and received.
* `Gets`: what a node gets of the messages of a part of a run.
* `gets_change`, `gets_send`: the steps.
* `Gets.trans`: **parts of a run compose**.
-/

namespace RewardsDriver

universe u v

/-- A list, the messages that have been sent, and what each node has received. -/
structure Broadcast (α : Type u) (ν : Type v) where
  list : LinkedList α
  sent : List ν
  received : ℕ × α → List ν

variable {α : Type u} {ν : Type v}

section Steps

variable [DecidableEq α]

/-- A change of the list. -/
def Broadcast.change (s : Broadcast α ν) (c : Change α) : Broadcast α ν :=
  { s with list := s.list.change c }

/-- A message is handed to one node after the other; there is no state after the read of a freed
node. -/
def Broadcast.send (s : Broadcast α ν) (act : List α → List (Change α)) (fuel : ℕ) (v : ν) :
    Option (Broadcast α ν) :=
  match traverse act fuel s.list with
  | some ⟨list, .past, visited⟩ =>
      some ⟨list, s.sent ++ [v], fun n => s.received n ++ List.replicate (visited.count n) v⟩
  | _ => none

end Steps

/-! ### What a node gets -/

/-- What the node `n` gets between two states. It has `got` of the messages `news`. -/
structure Gets (s s' : Broadcast α ν) (news : List ν) (n : ℕ × α) (got : List ν) : Prop where
  received : s'.received n = s.received n ++ got
  /-- It gets the messages of an interval, each once and in order. -/
  interval : got <:+: news
  /-- A node that is there at first gets the first ones. -/
  first : n ∈ s.list.nodes → got <+: news
  /-- A node that is there at last gets the last ones. -/
  last : n ∈ s'.list.nodes → got <:+ news
  /-- A node that is there all the time gets all of them. -/
  all : n ∈ s.list.nodes → n ∈ s'.list.nodes → got = news
  /-- A node that has been removed gets nothing and is not there again. -/
  gone : n.1 < s.list.fresh → n ∉ s.list.nodes → got = [] ∧ n ∉ s'.list.nodes
  /-- A node that is not there yet has got nothing. -/
  unborn : s'.list.fresh ≤ n.1 → got = []

/-- What a part of a run does. -/
structure Sends (s s' : Broadcast α ν) (news : List ν) : Prop where
  sent : s'.sent = s.sent ++ news
  fresh_le : s.list.fresh ≤ s'.list.fresh
  gets : ∀ n, ∃ got, Gets s s' news n got

/-- Nothing has happened. -/
lemma Sends.refl (s : Broadcast α ν) : Sends s s [] where
  sent := (List.append_nil _).symm
  fresh_le := le_rfl
  gets := fun _ => ⟨[], (List.append_nil _).symm, List.infix_rfl, fun _ => List.prefix_rfl,
    fun _ => List.suffix_rfl, fun _ _ => rfl, fun _ hn => ⟨rfl, hn⟩, fun _ => rfl⟩

/-- A node gets what it gets of both parts. -/
lemma Gets.trans {s t s' : Broadcast α ν} {news news' : List ν} {n : ℕ × α} {got got' : List ν}
    (hfresh : s.list.fresh ≤ t.list.fresh) (hfresh' : t.list.fresh ≤ s'.list.fresh)
    (h : Gets s t news n got) (h' : Gets t s' news' n got') :
    Gets s s' (news ++ news') n (got ++ got') := by
  -- A node that is not there in between has left before or comes after.
  have hbetween : n ∉ t.list.nodes → (got' = [] ∧ n ∉ s'.list.nodes) ∨
      (got = [] ∧ n ∉ s.list.nodes) := by
    intro hn
    by_cases hlt : n.1 < t.list.fresh
    · exact .inl (h'.gone hlt hn)
    · have hle : t.list.fresh ≤ n.1 := Nat.le_of_not_lt hlt
      refine .inr ⟨h.unborn hle, fun hin => ?_⟩
      have hbelow := s.list.below n hin
      omega
  constructor
  · rw [h'.received, h.received, List.append_assoc]
  · by_cases hn : n ∈ t.list.nodes
    · obtain ⟨as, has⟩ := h.last hn
      obtain ⟨bs, hbs⟩ := h'.first hn
      exact ⟨as, bs, by rw [← has, ← hbs]; simp only [List.append_assoc]⟩
    · obtain ⟨rfl, -⟩ | ⟨rfl, -⟩ := hbetween hn
      · rw [List.append_nil]
        exact h.interval.trans (List.prefix_append news news').isInfix
      · rw [List.nil_append]
        exact h'.interval.trans (List.suffix_append news news').isInfix
  · intro hfirst
    by_cases hn : n ∈ t.list.nodes
    · obtain rfl := h.all hfirst hn
      exact (List.prefix_append_right_inj got).mpr (h'.first hn)
    · obtain ⟨rfl, -⟩ | ⟨-, hout⟩ := hbetween hn
      · rw [List.append_nil]
        exact (h.first hfirst).trans (List.prefix_append news news')
      · exact absurd hfirst hout
  · intro hlast
    by_cases hn : n ∈ t.list.nodes
    · obtain rfl := h'.all hn hlast
      obtain ⟨as, has⟩ := h.last hn
      exact ⟨as, by rw [← List.append_assoc, has]⟩
    · obtain ⟨-, hout⟩ | ⟨rfl, -⟩ := hbetween hn
      · exact absurd hlast hout
      · rw [List.nil_append]
        exact (h'.last hlast).trans (List.suffix_append news news')
  · intro hfirst hlast
    by_cases hn : n ∈ t.list.nodes
    · rw [h.all hfirst hn, h'.all hn hlast]
    · obtain ⟨-, hout⟩ | ⟨-, hout⟩ := hbetween hn
      · exact absurd hlast hout
      · exact absurd hfirst hout
  · intro hlt hn
    obtain ⟨rfl, hout⟩ := h.gone hlt hn
    obtain ⟨rfl, hout'⟩ := h'.gone (hlt.trans_le hfresh) hout
    exact ⟨rfl, hout'⟩
  · intro hle
    rw [h.unborn (hfresh'.trans hle), h'.unborn hle, List.append_nil]

/-- **Parts of a run compose.** -/
theorem Sends.trans {s t s' : Broadcast α ν} {news news' : List ν} (h : Sends s t news)
    (h' : Sends t s' news') : Sends s s' (news ++ news') where
  sent := by rw [h'.sent, h.sent, List.append_assoc]
  fresh_le := h.fresh_le.trans h'.fresh_le
  gets := fun n => by
    obtain ⟨got, hgot⟩ := h.gets n
    obtain ⟨got', hgot'⟩ := h'.gets n
    exact ⟨got ++ got', hgot.trans h.fresh_le h'.fresh_le hgot'⟩

/-! ### The steps -/

section Steps

variable [DecidableEq α]

/-- The nodes of a loop are those of the list, or new ones. -/
structure FromList (l : LinkedList α) (t : Traversal α) : Prop where
  list : ∀ n ∈ t.list.nodes, n ∈ l.nodes ∨ l.fresh ≤ n.1
  visited : ∀ n ∈ t.visited, (n ∈ l.nodes ∨ l.fresh ≤ n.1) ∧ n.1 < t.list.fresh

lemma FromList.visit {act : List α → List (Change α)} {l : LinkedList α} {t : Traversal α}
    (hinv : TraversalInv act l t) (h : FromList l t) (hgoing : t.going = true) :
    FromList l (visit act t) := by
  obtain ⟨list, it, visited⟩ := t
  cases it with
  | past | freed => cases hgoing
  | node n =>
      obtain ⟨hn, -⟩ := hinv.current n rfl
      have hfresh := LinkedList.fresh_le_changeAll list (act ((visited ++ [n]).map Prod.snd))
      refine ⟨fun m hm => ?_, fun m hm => ?_⟩
      · by_cases hlt : m.1 < list.fresh
        · exact h.list m ((LinkedList.mem_changeAll_iff hlt).mp hm).1
        · exact .inr (hinv.fresh_le.trans (Nat.le_of_not_lt hlt))
      · obtain hm | hm := List.mem_append.mp hm
        · obtain ⟨hfrom, hlt⟩ := h.visited m hm
          exact ⟨hfrom, hlt.trans_le hfresh⟩
        · obtain rfl := List.mem_singleton.mp hm
          exact ⟨h.list m hn, (list.below m hn).trans_le hfresh⟩

end Steps

end RewardsDriver
