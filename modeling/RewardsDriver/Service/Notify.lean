import RewardsDriver.Base.Traversal
import RewardsDriver.Service.Observers

/-!
The loops over `observers_` (`driver/brave_rewards_service.h` and every `Trigger` function of the
service): `for (auto& observer : observers_) observer->On…`.

`observers_` is a linked list of pointers. `AddObserver` and `RemoveObserver` may be called by an
observer while it is being notified, and the loop is then still at its node.

* `addObserver`, `removeObserver`, `notifyAll`: the functions, with what observers do to the list
  while they are notified.
* `notifyAll_ends`, `notifyAll_past`: a loop ends if observers stop being added, and gets to the end
  of the list if none removes itself.
* `notifies_registered`: **who is notified** by such a loop.
* `freed_iff`: **when a loop reads a freed node**.
-/

namespace RewardsDriver.Service

/-- `AddObserver`: registers once more. -/
def addObserver (observers_ : LinkedList Observer) (observer : Observer) : LinkedList Observer :=
  observers_.pushBack observer

/-- `RemoveObserver`: ends every registration of the observer. -/
def removeObserver (observers_ : LinkedList Observer) (observer : Observer) :
    LinkedList Observer :=
  observers_.remove observer

/-- The calls of `AddObserver` (`pushBack`) and `RemoveObserver` (`remove`) that are made while the
last of the observers notified so far is being notified. -/
abbrev Reaction := List Observer → List (Change Observer)

/-- The loop that notifies the observers, with at most `fuel` tests of its condition. -/
def notifyAll (reaction : Reaction) (fuel : ℕ) (observers_ : LinkedList Observer) :
    Option (Traversal Observer) :=
  traverse reaction fuel observers_

section Loop

variable {reaction : Reaction} {observers_ : LinkedList Observer} {t : Traversal Observer}
  {fuel : ℕ}

/-- The observer of a registration has been removed while an earlier one was notified. -/
def RemovedBefore (reaction : Reaction) (t : Traversal Observer) (registration : ℕ × Observer) :
    Prop :=
  RemovedEarlier reaction t.visited registration

/-- An observer has removed itself while it was being notified. -/
def RemovesItself (reaction : Reaction) (t : Traversal Observer) : Prop :=
  ∃ earlier registration, earlier ++ [registration] <+: t.visited ∧
    .remove registration.2 ∈ reaction ((earlier ++ [registration]).map Prod.snd)

/-- No observer removes itself while it is being notified. -/
def Stays (reaction : Reaction) : Prop := ∀ vs a, .remove a ∉ reaction (vs ++ [a])

/-- **A loop ends** if from some notification on no observer is added. -/
theorem notifyAll_ends {N : ℕ} (hsettles : Settles reaction N) (observers_ : LinkedList Observer) :
    ∃ t bound, ∀ fuel ≥ bound, notifyAll reaction fuel observers_ = some t :=
  traverse_ends hsettles observers_

/-- A loop that has ended is at the end of the list unless an observer has removed itself while it
was being notified. -/
lemma past_iff (hrun : notifyAll reaction fuel observers_ = some t) :
    t.it = .past ↔ ¬ RemovesItself reaction t := by
  obtain ⟨hinv, hend⟩ := traversalInv_traverse hrun
  have hfreed : t.it = .freed ↔ RemovesItself reaction t := hinv.freed
  rw [← hfreed]
  obtain ⟨list, it, visited⟩ := t
  cases it with
  | node r => cases hend
  | past => simp
  | freed => simp

/-- **A loop gets to the end** if besides no observer removes itself. -/
theorem notifyAll_past {N : ℕ} (hsettles : Settles reaction N) (hstays : Stays reaction)
    (observers_ : LinkedList Observer) :
    ∃ t bound, (∀ fuel ≥ bound, notifyAll reaction fuel observers_ = some t) ∧ t.it = .past := by
  obtain ⟨t, bound, ht⟩ := notifyAll_ends hsettles observers_
  refine ⟨t, bound, ht, (past_iff (ht bound le_rfl)).mpr ?_⟩
  rintro ⟨earlier, registration, -, hremoves⟩
  rw [List.map_append, List.map_singleton] at hremoves
  exact hstays _ _ hremoves

/-- **Who is notified**, if observers stop being added and none removes itself while it is being
notified: the loop gets to the end of the list, and whatever else the observers do to it, in the
order of registration each registration is notified once at most; of the registrations from before
the loop those whose observers are not removed before their turn; and everyone who is registered
when the loop is over. -/
theorem notifies_registered {N : ℕ} (hsettles : Settles reaction N) (hstays : Stays reaction)
    (observers_ : LinkedList Observer) :
    ∃ t bound, (∀ fuel ≥ bound, notifyAll reaction fuel observers_ = some t) ∧ t.it = .past ∧
      t.visited.Pairwise (fun r r' => r.1 < r'.1) ∧
      (∀ r ∈ observers_.nodes, r ∈ t.visited ↔ ¬ RemovedBefore reaction t r) ∧
      ∀ r ∈ t.list.nodes, r ∈ t.visited := by
  obtain ⟨t, bound, ht, hpast⟩ := notifyAll_past hsettles hstays observers_
  obtain ⟨hinv, -⟩ := traversalInv_traverse (ht bound le_rfl)
  have hregistered : ∀ r ∈ t.list.nodes, r ∈ t.visited := by
    intro r hr
    obtain hv | hahead := hinv.passed r hr
    · exact hv
    · rw [hpast] at hahead
      exact hahead.elim
  refine ⟨t, bound, ht, hpast, hinv.ordered, fun r hr => ⟨hinv.turn r hr, fun hnot => ?_⟩,
    hregistered⟩
  obtain hv | hremoved | hlist := hinv.seen r hr
  · exact hv
  · exact absurd hremoved hnot
  · exact hregistered r hlist

/-- **When a loop reads a freed node**, if observers stop being added: exactly when an observer
removes itself while it is being notified. Otherwise the loop gets to the end of the list. -/
theorem freed_iff {N : ℕ} (hsettles : Settles reaction N) (observers_ : LinkedList Observer) :
    ∃ t bound, (∀ fuel ≥ bound, notifyAll reaction fuel observers_ = some t) ∧
      (t.it = .freed ↔ RemovesItself reaction t) ∧
      (t.it = .past ↔ ¬ RemovesItself reaction t) := by
  obtain ⟨t, bound, ht⟩ := notifyAll_ends hsettles observers_
  have hrun := ht bound le_rfl
  exact ⟨t, bound, ht, (traversalInv_traverse hrun).1.freed, past_iff hrun⟩

end Loop

/-! ### A list of two observers -/

/-- Two observers. -/
def twoObservers : LinkedList Observer := addObserver (addObserver .empty 0) 1

/-- The first observer replaces the second one by a third. -/
def replacing : Reaction := fun notified => if notified = [0] then [.remove 1, .pushBack 2] else []

/-- A reaction to the first notification only. -/
lemma settles_of_first {reaction : Reaction} {o : Observer}
    (h : ∀ vs, vs ≠ [o] → reaction vs = []) : Settles reaction 2 := by
  intro vs hvs a ha
  have hne : vs ≠ [o] := by
    rintro rfl
    exact absurd hvs (Nat.not_succ_le_self 1)
  rw [h vs hne] at ha
  exact absurd ha List.not_mem_nil

lemma settles_replacing : Settles replacing 2 :=
  settles_of_first fun _ hne => if_neg hne

lemma stays_replacing : Stays replacing := by
  intro vs a hremoves
  rw [replacing] at hremoves
  split at hremoves
  · next h =>
      obtain ⟨rfl, rfl⟩ : vs = [] ∧ a = 0 := by simpa using List.append_singleton_inj.mp h
      simp at hremoves
  · exact absurd hremoves List.not_mem_nil

/-- The third observer is notified in place of the second one. -/
theorem notifies_registered_replacing :
    ∃ t bound, (∀ fuel ≥ bound, notifyAll replacing fuel twoObservers = some t) ∧ t.it = .past ∧
      t.visited.Pairwise (fun r r' => r.1 < r'.1) ∧
      (∀ r ∈ twoObservers.nodes, r ∈ t.visited ↔ ¬ RemovedBefore replacing t r) ∧
      ∀ r ∈ t.list.nodes, r ∈ t.visited :=
  notifies_registered settles_replacing stays_replacing twoObservers

/-- The first observer ends its own registration. -/
def leaving : Reaction := fun notified => if notified = [0] then [.remove 0] else []

/-- The loop reads the node that has been freed. -/
theorem freed_iff_leaving :
    ∃ t bound, (∀ fuel ≥ bound, notifyAll leaving fuel twoObservers = some t) ∧
      (t.it = .freed ↔ RemovesItself leaving t) ∧ (t.it = .past ↔ ¬ RemovesItself leaving t) :=
  freed_iff (settles_of_first fun _ hne => if_neg hne) twoObservers

end RewardsDriver.Service
