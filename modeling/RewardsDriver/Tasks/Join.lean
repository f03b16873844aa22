import Mathlib.Data.List.Basic
import Mathlib.Logic.Function.Basic
import RewardsDriver.Base.Runs

/-!
Tasks and their barrier: `BraveRewardsServiceImpl::RunTask` and `TestingJoinAllRunningTasks`
(`driver/brave_rewards_service_impl.cc`).

`RunTask` places a new thread in `tasks_in_progress_` under `vec_mx_`; the thread runs the task at
once. The barrier takes the last thread out under the lock and joins it with the lock released,
until it finds the vector empty. What a thread does under the lock is one step here, and a thread
that is in a call does nothing else.

* `system`: the labelled transition system; tasks may call `RunTask`, and so may other threads.
* `Moves`, `step_moves`: what one step can do, guard and result, for every label.
* `Meanwhile`: the guard that no other thread calls `RunTask` once the barrier is called.
* `JoinInv`, `joinInv_step`: the invariant, a running task is in the vector or being joined, and
  a task that is not yet in the vector is in a call of a running one.
* `all_finished`: **the barrier**, when it is passed every task has finished.
-/

namespace RewardsDriver.Tasks

/-- A task passed to `RunTask`, which is also the thread that runs it. -/
abbrev Task := ℕ

/-- A thread: of a task, or another one. -/
inductive Thread where
  | outside (n : ℕ)
  | task (t : Task)
  deriving DecidableEq

/-- The progress of a task. -/
inductive Status where
  | unknown
  /-- `RunTask` has been called with it and waits for `vec_mx_`. -/
  | passed
  | running
  | finished
  deriving DecidableEq

/-- The progress of `TestingJoinAllRunningTasks`. -/
inductive Join where
  | notCalled
  /-- At the beginning of the loop. -/
  | loop (caller : Thread)
  /-- The thread of the task is out of the vector and is being joined. -/
  | joining (caller : Thread) (t : Task)
  /-- The loop has been left. -/
  | left
  deriving DecidableEq

/-- The thread that is in the loop. -/
def Join.caller? : Join → Option Thread
  | loop caller => some caller
  | joining caller _ => some caller
  | _ => none

/-- The task that is being joined. -/
def Join.joined? : Join → Option Task
  | joining _ t => some t
  | _ => none

/-- The tasks of the service. `calls` holds the calls of `RunTask` that wait for `vec_mx_`. -/
structure State where
  status : Task → Status
  calls : Thread → Option Task
  tasks_in_progress_ : List Task
  join : Join

/-- A thread that has been started and has not ended. -/
def State.Alive (s : State) : Thread → Prop
  | .outside _ => True
  | .task t => s.status t = .running

/-- A thread that is in none of the calls. -/
def State.Acts (s : State) (th : Thread) : Prop :=
  s.Alive th ∧ s.calls th = none ∧ s.join.caller? ≠ some th

instance (s : State) : DecidablePred s.Alive
  | .outside _ => isTrue trivial
  | .task t => inferInstanceAs (Decidable (s.status t = .running))

instance (s : State) (th : Thread) : Decidable (s.Acts th) := inferInstanceAs (Decidable (_ ∧ _))

/-- A step of one thread. -/
inductive Label where
  /-- `th` calls `RunTask` with a new task. -/
  | call (th : Thread) (t : Task)
  /-- `RunTask` places and starts the thread. -/
  | emplace (th : Thread)
  | finish (t : Task)
  /-- `th` calls `TestingJoinAllRunningTasks`. -/
  | enter (th : Thread)
  /-- The test for emptiness and `pop_back`. -/
  | pop
  /-- `join` has returned. -/
  | joined

open Function in
/-- One step. -/
def step (s : State) : Label → Option State
  | .call th t =>
      if s.Acts th ∧ s.status t = .unknown then
        some { s with status := update s.status t .passed, calls := update s.calls th (some t) }
      else none
  | .emplace th =>
      match s.calls th with
      | some t =>
          some { s with status := update s.status t .running
                        calls := update s.calls th none
                        tasks_in_progress_ := s.tasks_in_progress_ ++ [t] }
      | none => none
  | .finish t =>
      if s.Acts (.task t) then some { s with status := update s.status t .finished } else none
  | .enter th =>
      if s.Acts th ∧ s.join = .notCalled then some { s with join := .loop th } else none
  | .pop =>
      match s.join with
      | .loop th =>
          match s.tasks_in_progress_.getLast? with
          | some t => some { s with tasks_in_progress_ := s.tasks_in_progress_.dropLast
                                    join := .joining th t }
          | none => some { s with join := .left }
      | _ => none
  | .joined =>
      match s.join with
      | .joining th t =>
          if s.status t = .finished then some { s with join := .loop th } else none
      | _ => none

/-- The service before its first task. -/
def init : State where
  status := fun _ => .unknown
  calls := fun _ => none
  tasks_in_progress_ := []
  join := .notCalled

/-- The tasks of the service. -/
def system : System State Label := ⟨init, step⟩

/-! ### What one step can do -/

open Function in
/-- The enabled steps from `s`: the guard of each label and the state it leads to. -/
inductive Moves (s : State) : Label → State → Prop
  | call {th t} (hth : s.Acts th) (ht : s.status t = .unknown) :
      Moves s (.call th t) { s with
        status := update s.status t .passed, calls := update s.calls th (some t) }
  | emplace {th t} (hth : s.calls th = some t) :
      Moves s (.emplace th) { s with
        status := update s.status t .running, calls := update s.calls th none
        tasks_in_progress_ := s.tasks_in_progress_ ++ [t] }
  | finish {t} (ht : s.Acts (.task t)) :
      Moves s (.finish t) { s with status := update s.status t .finished }
  | enter {th} (hth : s.Acts th) (hj : s.join = .notCalled) :
      Moves s (.enter th) { s with join := .loop th }
  | pop {th ts t} (hj : s.join = .loop th) (hts : s.tasks_in_progress_ = ts ++ [t]) :
      Moves s .pop { s with tasks_in_progress_ := ts, join := .joining th t }
  | leave {th} (hj : s.join = .loop th) (hts : s.tasks_in_progress_ = []) :
      Moves s .pop { s with join := .left }
  | joined {th t} (hj : s.join = .joining th t) (ht : s.status t = .finished) :
      Moves s .joined { s with join := .loop th }

/-- The inversion of `step`: an enabled step is one of `Moves`. -/
theorem step_moves {s s' : State} {l : Label} (h : step s l = some s') : Moves s l s' := by
  cases l with
  | call th t =>
      simp only [step] at h
      split at h
      · rename_i hguard
        cases h; exact .call hguard.1 hguard.2
      · cases h
  | emplace th =>
      simp only [step] at h
      split at h
      · cases h; exact .emplace ‹_›
      · cases h
  | finish t =>
      simp only [step] at h
      split at h
      · cases h; exact .finish ‹_›
      · cases h
  | enter th =>
      simp only [step] at h
      split at h
      · rename_i hguard
        cases h; exact .enter hguard.1 hguard.2
      · cases h
  | pop =>
      simp only [step] at h
      split at h
      · rename_i th hj
        split at h
        · rename_i t ht
          obtain ⟨ts, hts⟩ := List.getLast?_eq_some_iff.mp ht
          have hdrop : s.tasks_in_progress_.dropLast = ts := by
            rw [hts, List.dropLast_concat]
          rw [hdrop] at h
          cases h; exact .pop hj hts
        · rename_i ht
          cases h; exact .leave hj (List.getLast?_eq_none_iff.mp ht)
      · cases h
  | joined =>
      simp only [step] at h
      split at h
      · split at h
        · cases h; exact .joined ‹_› ‹_›
        · cases h
      · cases h

/-! ### The barrier -/

/-- The guard of a run: from the call of the barrier on, only tasks call `RunTask`. -/
def Meanwhile (s : State) : Label → Prop
  | .call (.outside _) _ => s.join = .notCalled
  | .enter _ => ∀ n, s.calls (.outside n) = none
  | _ => True

/-- The invariant of the runs in which only tasks call `RunTask` meanwhile. -/
structure JoinInv (s : State) : Prop where
  /-- A running task is in the vector or is being joined. -/
  running : ∀ t, s.status t = .running →
    t ∈ s.tasks_in_progress_ ∨ s.join.joined? = some t
  /-- A task that is not yet in the vector is in a call. -/
  passed : ∀ t, s.status t = .passed → ∃ th, s.calls th = some t
  /-- A call of a task is of one that runs. -/
  caller : ∀ p t, s.calls (.task p) = some t → s.status p = .running
  outside : s.join ≠ .notCalled → ∀ n, s.calls (.outside n) = none
  left : s.join = .left → s.tasks_in_progress_ = []

lemma joinInv_init : JoinInv init where
  running := fun t h => by simp [init] at h
  passed := fun t h => by simp [init] at h
  caller := fun p t h => by simp [init] at h
  outside := fun _ _ => rfl
  left := fun _ => rfl

/-- When the barrier is passed no task runs or waits to be started. -/
lemma JoinInv.finished {s : State} (h : JoinInv s) (hleft : s.join = .left) (t : Task) :
    s.status t = .unknown ∨ s.status t = .finished := by
  have hnone : ∀ t, s.status t ≠ .running := by
    intro t ht
    rcases h.running t ht with hmem | hjoined
    · rw [h.left hleft] at hmem
      exact absurd hmem List.not_mem_nil
    · rw [hleft] at hjoined
      cases hjoined
  cases hs : s.status t with
  | unknown => exact .inl rfl
  | passed =>
      obtain ⟨th, hth⟩ := h.passed t hs
      cases th with
      | outside n =>
          rw [h.outside (by simp [hleft]) n] at hth
          cases hth
      | task p => exact absurd (h.caller p t hth) (hnone p)
  | running => exact absurd hs (hnone t)
  | finished => exact .inr rfl

open Function in
/-- **The step lemma**: every step that meets the guard keeps the invariant. -/
theorem joinInv_step {s s' : State} {l : Label} (h : JoinInv s) (hok : Meanwhile s l)
    (hs : Moves s l s') : JoinInv s' := by
  cases hs with
  | @call th t hth ht =>
      refine ⟨fun u hu => ?_, fun u hu => ?_, fun p u hu => ?_, fun hj n => ?_, h.left⟩
      · exact h.running u (of_update_eq hu (by simp)).2
      · by_cases hut : u = t
        · exact ⟨th, hut ▸ update_self ..⟩
        · rcases h.passed u ((update_of_ne hut ..).symm.trans hu) with ⟨th', hth'⟩
          have hne : th' ≠ th := by
            rintro rfl
            rw [hth.2.1] at hth'
            cases hth'
          exact ⟨th', update_eq_of_ne _ hne hth'⟩
      · have hp : s.status p = .running := by
          by_cases hpth : .task p = th
          · subst hpth
            exact hth.1
          · exact h.caller p u ((update_of_ne hpth ..).symm.trans hu)
        have hpt : p ≠ t := by
          rintro rfl
          rw [ht] at hp
          cases hp
        exact update_eq_of_ne _ hpt hp
      · cases th with
        | outside m => exact absurd hok hj
        | task p =>
            have hne : Thread.outside n ≠ .task p := by simp
            exact update_eq_of_ne (some t) hne (h.outside hj n)
  | @emplace th t hth =>
      refine ⟨fun u hu => ?_, fun u hu => ?_, fun p u hu => ?_, fun hj n => ?_, fun hj => ?_⟩
      · by_cases hut : u = t
        · exact .inl (List.mem_append_right _ (List.mem_singleton.mpr hut))
        · have hrunning := h.running u ((update_of_ne hut ..).symm.trans hu)
          exact hrunning.imp_left (List.mem_append_left _)
      · rcases of_update_eq hu (by simp) with ⟨hut, hpassed⟩
        rcases h.passed u hpassed with ⟨th', hth'⟩
        have hne : th' ≠ th := by
          rintro rfl
          exact hut (Option.some.inj (hth'.symm.trans hth))
        exact ⟨th', update_eq_of_ne _ hne hth'⟩
      · have hp := h.caller p u (of_update_eq hu (by simp)).2
        by_cases hpt : p = t
        · exact hpt ▸ update_self ..
        · exact update_eq_of_ne _ hpt hp
      · by_cases hn : .outside n = th
        · exact hn ▸ update_self ..
        · exact update_eq_of_ne _ hn (h.outside hj n)
      · -- a passed barrier leaves no thread that could be in the call
        exfalso
        have hleft : s.join = .left := hj
        cases th with
        | outside n =>
            rw [h.outside (by simp [hleft]) n] at hth
            cases hth
        | task p =>
            have hp := h.caller p t hth
            rcases h.finished hleft p with hunknown | hfinished
            · simp [hp] at hunknown
            · simp [hp] at hfinished
  | @finish t ht =>
      refine ⟨fun u hu => ?_, fun u hu => ?_, fun p u hu => ?_, h.outside, h.left⟩
      · exact h.running u (of_update_eq hu (by simp)).2
      · exact h.passed u (of_update_eq hu (by simp)).2
      · have hpt : p ≠ t := by
          rintro rfl
          have hnone : s.calls (.task p) = none := ht.2.1
          rw [hnone] at hu
          cases hu
        exact update_eq_of_ne _ hpt (h.caller p u hu)
  | @enter th hth hj =>
      refine ⟨fun u hu => ?_, h.passed, h.caller, fun _ => hok, fun hleft => by cases hleft⟩
      have hrunning := h.running u hu
      rwa [hj] at hrunning
  | @pop th ts t hj hts =>
      refine ⟨fun u hu => ?_, h.passed, h.caller, fun _ => h.outside (by simp [hj]),
        fun hleft => by cases hleft⟩
      rcases h.running u hu with hmem | hjoined
      · rw [hts, List.mem_append, List.mem_singleton] at hmem
        rcases hmem with hmem | rfl
        · exact .inl hmem
        · exact .inr rfl
      · rw [hj] at hjoined
        cases hjoined
  | @leave th hj hts =>
      refine ⟨fun u hu => ?_, h.passed, h.caller, fun _ => h.outside (by simp [hj]), fun _ => hts⟩
      rcases h.running u hu with hmem | hjoined
      · exact .inl hmem
      · rw [hj] at hjoined
        cases hjoined
  | @joined th t hj ht =>
      refine ⟨fun u hu => ?_, h.passed, h.caller, fun _ => h.outside (by simp [hj]),
        fun hleft => by cases hleft⟩
      rcases h.running u hu with hmem | hjoined
      · exact .inl hmem
      · rw [hj] at hjoined
        obtain rfl : t = u := Option.some.inj hjoined
        rw [ht] at hu
        cases hu

/-- The run lemma. -/
lemma joinInv_reach {s : State} (h : system.Reach Meanwhile s) : JoinInv s :=
  h.invariant joinInv_init fun _ _ _ hinv hok hs => joinInv_step hinv hok (step_moves hs)

/-- **The barrier**: in every run in which only tasks call `RunTask` meanwhile, when
`TestingJoinAllRunningTasks` has left its loop every task ever passed to `RunTask` has finished. -/
theorem all_finished {s : State} (h : system.Reach Meanwhile s) (hleft : s.join = .left)
    {t : Task} (ht : s.status t ≠ .unknown) : s.status t = .finished :=
  ((joinInv_reach h).finished hleft t).resolve_left ht

/-- The main thread runs task 0 and calls the barrier. -/
def beforeLoop : List Label := [.call (.outside 0) 0, .emplace (.outside 0), .enter (.outside 0)]

/-- Task 0 spawns task 1 while it is being joined. -/
def inLoop : List Label :=
  [.pop, .call (.task 0) 1, .emplace (.task 0), .finish 0, .joined, .pop, .finish 1, .joined, .pop]

lemma reach_beforeLoop {s : State} (h : system.run system.init beforeLoop = some s) :
    system.Reach Meanwhile s := by
  have hcall : system.Reach Meanwhile _ :=
    .step .init (a := .call (.outside 0) 0) rfl rfl
  have hemplace : system.Reach Meanwhile _ :=
    .step hcall (a := .emplace (.outside 0)) trivial rfl
  refine .step hemplace (a := .enter (.outside 0)) (fun n => ?_) h
  by_cases hn : Thread.outside n = .outside 0
  · exact hn ▸ Function.update_self ..
  · exact update_eq_of_ne _ hn (update_eq_of_ne _ hn rfl)

/-- A task spawned by a task that is being joined has finished when the barrier is passed. -/
theorem all_finished_spawned : ∃ s, system.run system.init (beforeLoop ++ inLoop) = some s ∧
    s.status 1 = .finished := by
  have hend : (system.run system.init (beforeLoop ++ inLoop)).map
      (fun s => (s.join, decide (s.status 1 = .unknown))) = some (.left, false) := by decide
  obtain ⟨s, hrun, hs⟩ := Option.map_eq_some_iff.mp hend
  obtain ⟨hleft, hstatus⟩ := Prod.mk.inj hs
  obtain ⟨s₁, hbefore, hloop⟩ := Option.bind_eq_some_iff.mp ((System.run_append ..).symm.trans hrun)
  have hok : ∀ l ∈ inLoop, ∀ t, Meanwhile t l := by
    intro l hl t
    simp only [inLoop, List.mem_cons, List.not_mem_nil, or_false] at hl
    rcases hl with rfl | rfl | rfl | rfl | rfl | rfl | rfl | rfl | rfl <;> trivial
  exact ⟨s, hrun, all_finished ((reach_beforeLoop hbefore).run hok hloop) hleft
    (of_decide_eq_false hstatus)⟩

end RewardsDriver.Tasks
