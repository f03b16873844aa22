import RewardsDriver.Base.Potential
import RewardsDriver.Tasks.Join

/-!
The program itself: `main` (`driver/driver.cpp`) over the tasks of its service.

`main` calls `Init` and `CreateWallet`, each followed by `TestingJoinAllRunningTasks`, and leaves
the block that owns the service, at its end or by an exception. The destruction of
`tasks_in_progress_` calls `std::terminate` if a thread is left in it. Any other thread of the
program is of a task.

* `system`: the labelled transition system of a block of calls; `main` is the block of the source.
* `Moves`, `step_moves`: what one step can do, guard and result, for every label.
* `CallInv`, `DriverInv`, `driverInv_step`: the invariants of every run.
* `destroyed_idle`: **no task outlives the service** that `main` has destroyed.
* `Covered`, `never_terminates_iff`: **no call of `std::terminate`**, without an exception, exactly
  for the blocks with a barrier after each call that starts tasks.
* `Holds`, `pays`, `main_ends`: **the end of the program**, a bound on every run in the calls of
  `RunTask`, and no run stops before `main` does.
-/

namespace RewardsDriver.Tasks.Driver

/-- A call in the block of `main`. -/
inductive Phase where
  | AllowTimersRun (timers : ℕ)
  | Init
  | CreateWallet
  | TestingJoinAllRunningTasks
  deriving DecidableEq

/-- The calls that pass tasks to `RunTask`, in what the ledger calls of the service: `CreateWallet`
returns at once if it has been called before. -/
def Phase.Works (created_wallet : Bool) : Phase → Prop
  | Init => True
  | CreateWallet => created_wallet = false
  | _ => False

instance (created_wallet : Bool) : DecidablePred (Phase.Works created_wallet)
  | .Init => isTrue trivial
  | .CreateWallet => inferInstanceAs (Decidable (_ = _))
  | .AllowTimersRun _ | .TestingJoinAllRunningTasks => isFalse id

/-- `created_wallet` after a call. -/
def Phase.after (created_wallet : Bool) : Phase → Bool
  | CreateWallet => true
  | _ => created_wallet

/-- The block of the source. -/
def main : List Phase :=
  [.AllowTimersRun 1, .Init, .TestingJoinAllRunningTasks, .CreateWallet,
    .TestingJoinAllRunningTasks, .AllowTimersRun 0]

/-- The progress of `main`. -/
inductive Main where
  /-- In the block, with these calls to go. -/
  | runs (rest : List Phase)
  /-- An exception leaves the block. -/
  | throws
  /-- The service has been destroyed. -/
  | destroyed
  /-- `std::terminate` has been called. -/
  | terminated
  deriving DecidableEq

/-- The call that `main` is in. -/
def Main.phase? : Main → Option Phase
  | .runs (p :: _) => some p
  | _ => none

/-- The program. -/
structure State where
  tasks : Tasks.State
  main : Main
  created_wallet : Bool

/-- What a step of a task, or of the thread of `main` among the tasks, asks of `main`. -/
def State.Permits (s : State) : Tasks.Label → Prop
  | .call (.outside n) _ => n = 0 ∧ ∃ p ∈ s.main.phase?, p.Works s.created_wallet
  | .enter th => th = .outside 0 ∧ s.main.phase? = some .TestingJoinAllRunningTasks
  | _ => s.main ≠ .terminated

instance (s : State) : DecidablePred s.Permits
  | .call (.outside _) _ => inferInstanceAs (Decidable (_ ∧ _))
  | .call (.task _) _ => inferInstanceAs (Decidable (s.main ≠ _))
  | .enter _ => inferInstanceAs (Decidable (_ ∧ _))
  | .emplace _ | .finish _ | .pop | .joined => inferInstanceAs (Decidable (s.main ≠ _))

/-- A step of one thread. -/
inductive Label where
  | task (l : Tasks.Label)
  /-- `main` goes on to its next call, or to the destruction of the service. -/
  | next
  /-- A call of `main` throws. -/
  | throw

/-- One step. -/
def step (s : State) : Label → Option State
  | .task l =>
      if s.Permits l then (Tasks.step s.tasks l).map fun t => { s with tasks := t } else none
  | .next =>
      match s.main with
      | .runs (.TestingJoinAllRunningTasks :: rest) =>
          if s.tasks.join = .left then
            some { s with tasks := { s.tasks with join := .notCalled }, main := .runs rest }
          else none
      | .runs (p :: rest) =>
          if s.tasks.calls (.outside 0) = none then
            some { s with main := .runs rest, created_wallet := p.after s.created_wallet }
          else none
      | .runs [] | .throws =>
          if s.tasks.tasks_in_progress_ = [] then some { s with main := .destroyed }
          else some { s with main := .terminated }
      | .destroyed | .terminated => none
  | .throw =>
      match s.main with
      | .runs (p :: _) =>
          if p.Works s.created_wallet ∧ s.tasks.calls (.outside 0) = none then
            some { s with main := .throws }
          else none
      | _ => none

/-- A block of calls. -/
def system (block : List Phase) : System State Label := ⟨⟨Tasks.init, .runs block, false⟩, step⟩

/-- Nothing is left of the tasks. -/
structure Idle (t : Tasks.State) : Prop where
  tasks_in_progress_ : t.tasks_in_progress_ = []
  calls : ∀ th, t.calls th = none
  status : ∀ u, t.status u = .unknown ∨ t.status u = .finished

/-! ### What one step can do -/

/-- The enabled steps from `s`. -/
inductive Moves (s : State) : Label → State → Prop
  | task {l t} (hp : s.Permits l) (ht : Tasks.Moves s.tasks l t) :
      Moves s (.task l) { s with tasks := t }
  | passed {rest} (hm : s.main = .runs (.TestingJoinAllRunningTasks :: rest))
      (hj : s.tasks.join = .left) :
      Moves s .next { s with tasks := { s.tasks with join := .notCalled }, main := .runs rest }
  | returned {p rest} (hm : s.main = .runs (p :: rest)) (hp : p ≠ .TestingJoinAllRunningTasks)
      (hc : s.tasks.calls (.outside 0) = none) :
      Moves s .next { s with main := .runs rest, created_wallet := p.after s.created_wallet }
  | destroyed (hm : s.main = .runs [] ∨ s.main = .throws)
      (hts : s.tasks.tasks_in_progress_ = []) :
      Moves s .next { s with main := .destroyed }
  | terminated (hm : s.main = .runs [] ∨ s.main = .throws)
      (hts : s.tasks.tasks_in_progress_ ≠ []) :
      Moves s .next { s with main := .terminated }
  | throw {p rest} (hm : s.main = .runs (p :: rest)) (hp : p.Works s.created_wallet)
      (hc : s.tasks.calls (.outside 0) = none) :
      Moves s .throw { s with main := .throws }

/-- The inversion of `step`. -/
theorem step_moves {s s' : State} {l : Label} (h : step s l = some s') : Moves s l s' := by
  cases l with
  | task l =>
      simp only [step] at h
      split at h
      · obtain ⟨t, ht, rfl⟩ := Option.map_eq_some_iff.mp h
        exact .task ‹_› (Tasks.step_moves ht)
      · cases h
  | next =>
      simp only [step] at h
      split at h
      · split at h
        · cases h; exact .passed ‹_› ‹_›
        · cases h
      · rename_i hp hm
        split at h
        · cases h; exact .returned hm (fun h => hp h) ‹_›
        · cases h
      · rename_i hm
        split at h
        · cases h; exact .destroyed (.inl hm) ‹_›
        · cases h; exact .terminated (.inl hm) ‹_›
      · rename_i hm
        split at h
        · cases h; exact .destroyed (.inr hm) ‹_›
        · cases h; exact .terminated (.inr hm) ‹_›
      · cases h
      · cases h
  | throw =>
      simp only [step] at h
      split at h
      · rename_i hm
        split at h
        · rename_i hc
          cases h; exact .throw hm hc.1 hc.2
        · cases h
      · cases h

/-! ### The invariants -/

/-- The calls of `RunTask` and the threads. -/
structure CallInv (t : Tasks.State) : Prop where
  /-- A task in a call waits to be started. -/
  waits : ∀ {th u}, t.calls th = some u → t.status u = .passed
  /-- No task is in two calls. -/
  single : ∀ {th th' u}, t.calls th = some u → t.calls th' = some u → th = th'
  /-- The thread in the vector or being joined has been started. -/
  started : ∀ {u}, u ∈ t.tasks_in_progress_ ∨ t.join.joined? = some u →
    t.status u = .running ∨ t.status u = .finished

lemma callInv_init : CallInv Tasks.init where
  waits := fun h => by simp [Tasks.init] at h
  single := fun h => by simp [Tasks.init] at h
  started := fun h => by simp [Tasks.init, Join.joined?] at h

open Function in
/-- The step lemma of the tasks. -/
lemma callInv_step {t t' : Tasks.State} {l : Tasks.Label} (h : CallInv t)
    (hs : Tasks.Moves t l t') : CallInv t' := by
  cases hs with
  | @call th u hth hu =>
      have hfresh : ∀ {th'}, t.calls th' ≠ some u := fun hc => by
        simp [h.waits hc] at hu
      have hcalls : ∀ {th' v}, update t.calls th (some u) th' = some v →
          th' = th ∧ v = u ∨ v ≠ u ∧ t.calls th' = some v := by
        intro th' v hv
        by_cases hth' : th' = th
        · rw [hth', update_self] at hv
          exact .inl ⟨hth', (Option.some.inj hv).symm⟩
        · rw [update_of_ne hth'] at hv
          exact .inr ⟨fun hvu => hfresh (hvu ▸ hv), hv⟩
      refine ⟨fun {th' v} hv => ?_, fun {a b v} ha hb => ?_, fun {v} hv => ?_⟩
      · rcases hcalls hv with ⟨-, rfl⟩ | ⟨hvu, hold⟩
        · exact update_self ..
        · exact update_eq_of_ne _ hvu (h.waits hold)
      · rcases hcalls ha with ⟨rfl, rfl⟩ | ⟨hva, holda⟩ <;>
          rcases hcalls hb with ⟨rfl, hvb⟩ | ⟨hvb, holdb⟩
        · rfl
        · exact absurd rfl hvb
        · exact absurd hvb hva
        · exact h.single holda holdb
      · have hne : v ≠ u := by
          rintro rfl
          rcases h.started hv with hr | hf
          · simp [hr] at hu
          · simp [hf] at hu
        exact (h.started hv).imp (update_eq_of_ne _ hne) (update_eq_of_ne _ hne)
  | @emplace th u hth =>
      have hold : ∀ {th' v}, update t.calls th none th' = some v →
          th' ≠ th ∧ t.calls th' = some v := fun hv => of_update_eq hv (by simp)
      refine ⟨fun {th' v} hv => ?_, fun ha hb => ?_, fun {v} hv => ?_⟩
      · have hne : v ≠ u := fun hvu => (hold hv).1 (h.single (hvu ▸ (hold hv).2) hth)
        exact update_eq_of_ne _ hne (h.waits (hold hv).2)
      · exact h.single (hold ha).2 (hold hb).2
      · by_cases hvu : v = u
        · exact .inl (hvu ▸ update_self ..)
        · have hin : v ∈ t.tasks_in_progress_ ∨ t.join.joined? = some v := by
            refine hv.imp_left fun hmem => ?_
            rcases List.mem_append.mp hmem with hmem | hmem
            · exact hmem
            · exact absurd (List.mem_singleton.mp hmem) hvu
          exact (h.started hin).imp (update_eq_of_ne _ hvu) (update_eq_of_ne _ hvu)
  | @finish u hu =>
      refine ⟨fun {th' v} hv => ?_, h.single, fun {v} hv => ?_⟩
      · have hne : v ≠ u := by
          rintro rfl
          have hrunning : t.status v = .running := hu.1
          simp [h.waits hv] at hrunning
        exact update_eq_of_ne _ hne (h.waits hv)
      · by_cases hvu : v = u
        · exact .inr (hvu ▸ update_self ..)
        · exact (h.started hv).imp (update_eq_of_ne _ hvu) (update_eq_of_ne _ hvu)
  | @enter th hth hj =>
      refine ⟨h.waits, h.single, fun hv => h.started (hv.imp_right fun hv => ?_)⟩
      cases hv
  | @pop th ts u hj hts =>
      refine ⟨h.waits, h.single, fun hv => h.started (.inl ?_)⟩
      rw [hts]
      rcases hv with hmem | hjoined
      · exact List.mem_append_left _ hmem
      · obtain rfl := Option.some.inj hjoined
        exact List.mem_append_right _ (List.mem_singleton.mpr rfl)
  | @leave th hj hts =>
      refine ⟨h.waits, h.single, fun hv => h.started (hv.imp_right fun hv => ?_)⟩
      cases hv
  | @joined th u hj hu =>
      refine ⟨h.waits, h.single, fun hv => h.started (hv.imp_right fun hv => ?_)⟩
      cases hv

/-- The invariant of every run of every block. -/
structure DriverInv (s : State) : Prop where
  tasks : JoinInv s.tasks
  call : CallInv s.tasks
  /-- Outside the tasks only `main` is in a call of `RunTask`, from a call that starts tasks. -/
  outside : ∀ {n}, s.tasks.calls (.outside n) ≠ none → n = 0 ∧
    ∃ p ∈ s.main.phase?, p.Works s.created_wallet
  /-- The barrier is called by `main`. -/
  join : s.tasks.join ≠ .notCalled → s.main.phase? = some .TestingJoinAllRunningTasks
  caller : ∀ {th}, s.tasks.join.caller? = some th → th = .outside 0

lemma driverInv_init (block : List Phase) : DriverInv (system block).init where
  tasks := joinInv_init
  call := callInv_init
  outside := fun h => absurd rfl h
  join := fun h => absurd rfl h
  caller := fun h => by cases h

/-- In a call that starts tasks the barrier is not called. -/
lemma DriverInv.notCalled {s : State} (h : DriverInv s)
    (hp : s.main.phase? ≠ some .TestingJoinAllRunningTasks) : s.tasks.join = .notCalled := by
  by_contra hj
  exact hp (h.join hj)

/-- In the barrier `main` is in no call of `RunTask`. -/
lemma DriverInv.noCall {s : State} (h : DriverInv s) {n : ℕ}
    (hp : ∀ p ∈ s.main.phase?, ¬ p.Works s.created_wallet) :
    s.tasks.calls (.outside n) = none := by
  by_contra hc
  obtain ⟨p, hmem, hw⟩ := (h.outside hc).2
  exact hp p hmem hw

/-- The steps that `main` permits meet the guard of the barrier. -/
lemma DriverInv.meanwhile {s : State} (h : DriverInv s) {l : Tasks.Label} (hp : s.Permits l) :
    Meanwhile s.tasks l := by
  cases l with
  | call th t =>
      cases th with
      | outside n =>
          obtain ⟨-, p, hmem, hw⟩ := hp
          refine h.notCalled fun hbarrier => ?_
          rw [hbarrier] at hmem
          obtain rfl := Option.some.inj hmem
          exact hw
      | task p => trivial
  | enter th =>
      refine fun n => h.noCall fun p hmem => ?_
      rw [hp.2] at hmem
      obtain rfl := Option.some.inj hmem
      exact id
  | emplace th | finish t | pop | joined => trivial

/-- `main` may be anywhere else once it is in no call. -/
lemma DriverInv.goes {s : State} (h : DriverInv s) (hc : s.tasks.calls (.outside 0) = none)
    (hp : s.main.phase? ≠ some .TestingJoinAllRunningTasks) (m : Main) (created_wallet : Bool) :
    DriverInv { s with main := m, created_wallet := created_wallet } where
  tasks := h.tasks
  call := h.call
  outside := fun hn => by
    obtain ⟨rfl, -⟩ := h.outside hn
    exact absurd hc hn
  join := fun hj => absurd (h.notCalled hp) hj
  caller := h.caller

/-- **The step lemma**: every step keeps the invariant. -/
theorem driverInv_step {s s' : State} {l : Label} (h : DriverInv s) (hs : Moves s l s') :
    DriverInv s' := by
  cases hs with
  | @task l t hp ht =>
      refine ⟨joinInv_step h.tasks (h.meanwhile hp) ht, callInv_step h.call ht, ?_, ?_, ?_⟩
      · intro n hn
        cases ht with
        | @call th u hth hu =>
            by_cases hne : .outside n = th
            · subst hne
              exact hp
            · refine h.outside fun hnone => hn ?_
              exact update_eq_of_ne _ hne hnone
        | @emplace th u hth =>
            by_cases hne : .outside n = th
            · subst hne
              exact absurd (Function.update_self ..) hn
            · refine h.outside fun hnone => hn ?_
              exact update_eq_of_ne _ hne hnone
        | finish | enter | pop | leave | joined => exact h.outside hn
      · intro hj
        cases ht with
        | call | emplace | finish => exact h.join hj
        | enter hth hj => exact hp.2
        | pop hjoin hts => exact h.join (by simp [hjoin])
        | leave hjoin hts => exact h.join (by simp [hjoin])
        | joined hjoin hu => exact h.join (by simp [hjoin])
      · intro th hth
        cases ht with
        | call | emplace | finish => exact h.caller hth
        | enter hth' hj =>
            obtain rfl := Option.some.inj hth
            exact hp.1
        | pop hj hts =>
            refine h.caller ?_
            rw [hj]
            exact hth
        | leave hj hts => cases hth
        | joined hj hu =>
            refine h.caller ?_
            rw [hj]
            exact hth
  | @passed rest hm hj =>
      have hcalls : ∀ n, s.tasks.calls (.outside n) = none := fun n =>
        h.noCall (by simp [hm, Main.phase?, Phase.Works])
      have hrunning : ∀ u, s.tasks.status u = .running → u ∈ s.tasks.tasks_in_progress_ := by
        intro u hu
        have hin := h.tasks.running u hu
        rw [hj] at hin
        exact hin.resolve_right (by simp [Join.joined?])
      refine ⟨⟨fun u hu => .inl (hrunning u hu), h.tasks.passed, h.tasks.caller, fun _ => hcalls,
        ?_⟩, ⟨h.call.waits, h.call.single, fun hu => h.call.started (hu.imp_right ?_)⟩,
        fun {n} hn => absurd (hcalls n) hn, fun hne => absurd rfl hne, fun hth => by cases hth⟩
      · rintro ⟨⟩
      · rintro ⟨⟩
  | @returned p rest hm hp hc => exact h.goes hc (by simpa [hm, Main.phase?] using hp) _ _
  | destroyed hm hts | terminated hm hts =>
      have hp : s.main.phase? = none := by rcases hm with hm | hm <;> rw [hm] <;> rfl
      exact h.goes (h.noCall (by simp [hp])) (by simp [hp]) _ _
  | @throw p rest hm hp hc =>
      refine h.goes hc ?_ _ _
      rw [hm]
      rintro ⟨⟩
      exact hp

/-- The run lemma. -/
lemma driverInv_reach {block : List Phase} {ok : State → Label → Prop} {s : State}
    (h : (system block).Reach ok s) : DriverInv s :=
  h.invariant (driverInv_init block) fun _ _ _ hinv _ hs => driverInv_step hinv (step_moves hs)

/-! ### The destruction of the service -/

/-- With the vector empty and nothing in a call or being joined, nothing is left of the tasks. -/
lemma DriverInv.idle {s : State} (h : DriverInv s)
    (hp : ∀ p ∈ s.main.phase?, ¬ p.Works s.created_wallet) (hj : s.tasks.join.joined? = none)
    (hts : s.tasks.tasks_in_progress_ = []) : Idle s.tasks := by
  have hrunning : ∀ u, s.tasks.status u ≠ .running := by
    intro u hu
    rcases h.tasks.running u hu with hmem | hjoined
    · rw [hts] at hmem
      exact List.not_mem_nil hmem
    · rw [hj] at hjoined
      cases hjoined
  have hcalls : ∀ th, s.tasks.calls th = none := by
    intro th
    cases th with
    | outside n => exact h.noCall hp
    | task p =>
        cases hc : s.tasks.calls (.task p) with
        | none => rfl
        | some u => exact absurd (h.tasks.caller p u hc) (hrunning p)
  refine ⟨hts, hcalls, fun u => ?_⟩
  cases hu : s.tasks.status u with
  | unknown => exact .inl rfl
  | passed =>
      obtain ⟨th, hth⟩ := h.tasks.passed u hu
      rw [hcalls th] at hth
      cases hth
  | running => exact absurd hu (hrunning u)
  | finished => exact .inr rfl

/-- When nothing is left of the tasks and `main` neither starts nor joins any, no task has a
step. -/
lemma Idle.no_move {s : State} (hi : Idle s.tasks) (h : DriverInv s)
    (hp : ∀ p ∈ s.main.phase?, ¬ p.Works s.created_wallet ∧ p ≠ .TestingJoinAllRunningTasks)
    {l : Tasks.Label} {t : Tasks.State} (hl : s.Permits l) : ¬ Tasks.Moves s.tasks l t := by
  have hdead : ∀ u, ¬ s.tasks.Alive (.task u) := by
    intro u hu
    have hrunning : s.tasks.status u = .running := hu
    rcases hi.status u with hn | hf
    · simp [hn] at hrunning
    · simp [hf] at hrunning
  have hj : s.tasks.join = .notCalled := h.notCalled fun hbarrier => (hp _ hbarrier).2 rfl
  intro hs
  cases hs with
  | @call th u hth hu =>
      cases th with
      | outside n =>
          obtain ⟨-, p, hmem, hw⟩ := hl
          exact (hp p hmem).1 hw
      | task p => exact hdead p hth.1
  | @emplace th u hth =>
      rw [hi.calls th] at hth
      cases hth
  | finish hu => exact hdead _ hu.1
  | enter hth hj' => exact (hp _ hl.2).2 rfl
  | pop hj' hts | leave hj' hts | joined hj' hts =>
      rw [hj] at hj'
      cases hj'

/-- The invariant, with what it is for: nothing is left of the tasks once the service is
destroyed. -/
structure IdleInv (s : State) : Prop extends DriverInv s where
  gone : s.main = .destroyed → Idle s.tasks

/-- Every step keeps it. -/
lemma idleInv_step {s s' : State} {l : Label} (h : IdleInv s) (hs : Moves s l s') : IdleInv s' := by
  refine ⟨driverInv_step h.toDriverInv hs, fun hd => ?_⟩
  cases hs with
  | task hp ht =>
      have hmain : s.main = .destroyed := hd
      exact absurd ht ((h.gone hmain).no_move h.toDriverInv (by simp [hmain, Main.phase?]) hp)
  | destroyed hm hts =>
      have hp : s.main.phase? = none := by rcases hm with hm | hm <;> rw [hm] <;> rfl
      have hj : s.tasks.join = .notCalled := h.notCalled (by simp [hp])
      exact h.toDriverInv.idle (by simp [hp]) (by rw [hj]; rfl) hts
  | passed | returned | terminated | throw => cases hd

/-- **No task outlives the service**: in every run of every block, once the destruction of the
service has not terminated the program, every task ever passed to `RunTask` has finished, no call
of it is left, and no thread has a step to make. -/
theorem destroyed_idle {block : List Phase} {s : State} (h : (system block).Reach System.Free s)
    (hs : s.main = .destroyed) : Idle s.tasks ∧ ∀ l, step s l = none := by
  have hinit : IdleInv (system block).init := ⟨driverInv_init block, fun hd => by cases hd⟩
  have hinv : IdleInv s :=
    h.invariant hinit fun _ _ _ hinv _ hstep => idleInv_step hinv (step_moves hstep)
  refine ⟨hinv.gone hs, fun l => ?_⟩
  by_contra hen
  obtain ⟨s', hstep⟩ := Option.ne_none_iff_exists'.mp hen
  cases step_moves hstep with
  | task hp ht =>
      exact (hinv.gone hs).no_move hinv.toDriverInv (by simp [hs, Main.phase?]) hp ht
  | passed hm | returned hm | throw hm =>
      rw [hs] at hm
      cases hm
  | destroyed hm | terminated hm =>
      rw [hs] at hm
      rcases hm with hm | hm <;> cases hm

/-- `Init` starts task 0, which the barrier joins; `CreateWallet` starts none. -/
def schedule : List Label :=
  [.next, .task (.call (.outside 0) 0), .task (.emplace (.outside 0)), .next,
    .task (.enter (.outside 0)), .task .pop, .task (.finish 0), .task .joined, .task .pop, .next,
    .next, .task (.enter (.outside 0)), .task .pop, .next, .next, .next]

lemma exists_schedule : ∃ s, (system main).run (system main).init schedule = some s ∧
    s.main = .destroyed := by
  have hend : ((system main).run (system main).init schedule).map (·.main) = some .destroyed := by
    decide
  exact Option.map_eq_some_iff.mp hend

/-- Nothing is left of the task that `Init` has started. -/
theorem destroyed_idle_main : ∃ s, (system main).run (system main).init schedule = some s ∧
    Idle s.tasks ∧ ∀ l, step s l = none := by
  obtain ⟨s, hrun, hs⟩ := exists_schedule
  exact ⟨s, hrun, destroyed_idle (System.reach_of_run hrun) hs⟩

/-! ### `std::terminate` -/

/-- The barrier is called after each call that starts tasks. -/
def Covered (created_wallet : Bool) : List Phase → Prop
  | [] => True
  | p :: rest => (p.Works created_wallet → .TestingJoinAllRunningTasks ∈ rest) ∧
      Covered (p.after created_wallet) rest

instance decidableCovered : ∀ created_wallet, DecidablePred (Covered created_wallet)
  | _, [] => isTrue trivial
  | created_wallet, p :: rest =>
      have : Decidable (Covered (p.after created_wallet) rest) := decidableCovered _ rest
      inferInstanceAs (Decidable ((p.Works created_wallet → .TestingJoinAllRunningTasks ∈ rest) ∧
        Covered (p.after created_wallet) rest))

/-- The guard of the runs without an exception. -/
def NoThrow (_ : State) : Label → Prop
  | .throw => False
  | _ => True

/-- Nothing is left of the tasks where no barrier is to come. -/
def CoveredInv (s : State) : Prop :=
  match s.main with
  | .runs rest =>
      Covered s.created_wallet rest ∧ (.TestingJoinAllRunningTasks ∉ rest → Idle s.tasks)
  | .destroyed => True
  | .throws | .terminated => False

/-- The step lemma of the runs without an exception. -/
lemma coveredInv_step {s s' : State} {l : Label} (h : DriverInv s) (hc : CoveredInv s)
    (hok : NoThrow s l) (hs : Moves s l s') : CoveredInv s' := by
  cases hs with
  | @task l t hp ht =>
      cases hm : s.main with
      | runs rest =>
          simp only [CoveredInv, hm] at hc ⊢
          refine ⟨hc.1, fun hlast => absurd ht ((hc.2 hlast).no_move h ?_ hp)⟩
          intro p hmem
          cases rest with
          | nil =>
              rw [hm] at hmem
              cases hmem
          | cons q rest =>
              rw [hm] at hmem
              obtain rfl : q = p := Option.some.inj hmem
              exact ⟨fun hw => hlast (List.mem_cons_of_mem _ (hc.1.1 hw)),
                fun hq => hlast (hq ▸ List.mem_cons_self)⟩
      | throws | terminated =>
          simp only [CoveredInv, hm] at hc
      | destroyed => simp only [CoveredInv]
  | @passed rest hm hj =>
      simp only [CoveredInv, hm] at hc ⊢
      have hi : Idle s.tasks :=
        h.idle (by simp [hm, Main.phase?, Phase.Works]) (by rw [hj]; rfl) (h.tasks.left hj)
      exact ⟨hc.1.2, fun _ => ⟨hi.tasks_in_progress_, hi.calls, hi.status⟩⟩
  | @returned p rest hm hp hcall =>
      simp only [CoveredInv, hm] at hc ⊢
      refine ⟨hc.1.2, fun hlast => hc.2 fun hmem => ?_⟩
      rcases List.mem_cons.mp hmem with heq | hmem
      · exact hp heq.symm
      · exact hlast hmem
  | destroyed hm hts => trivial
  | terminated hm hts =>
      rcases hm with hm | hm
      · simp only [CoveredInv, hm] at hc
        exact absurd (hc.2 List.not_mem_nil).tasks_in_progress_ hts
      · simp only [CoveredInv, hm] at hc
  | throw hm hp hcall => exact hok.elim

lemma coveredInv_reach {block : List Phase} (hb : Covered false block) {s : State}
    (h : (system block).Reach NoThrow s) : CoveredInv s := by
  induction h with
  | init => exact ⟨hb, fun _ => ⟨rfl, fun _ => rfl, fun _ => .inl rfl⟩⟩
  | step h hok hs ih => exact coveredInv_step (driverInv_reach h) ih hok (step_moves hs)

/-- `created_wallet` after some calls. -/
def afterAll (created_wallet : Bool) (before : List Phase) : Bool :=
  before.foldl Phase.after created_wallet

/-- With nothing started, `main` passes the calls before any other. -/
lemma reach_suffix {block before rest : List Phase} {created_wallet : Bool}
    (h : (system block).Reach NoThrow ⟨Tasks.init, .runs (before ++ rest), created_wallet⟩) :
    (system block).Reach NoThrow ⟨Tasks.init, .runs rest, afterAll created_wallet before⟩ := by
  induction before generalizing created_wallet with
  | nil => exact h
  | cons p before ih =>
      refine @ih (p.after created_wallet) ?_
      cases p with
      | TestingJoinAllRunningTasks =>
          have henter := System.Reach.step h (a := Label.task (.enter (.outside 0))) trivial rfl
          have hleave := System.Reach.step henter (a := Label.task .pop) trivial rfl
          exact .step hleave (a := .next) trivial rfl
      | AllowTimersRun | Init | CreateWallet => exact .step h (a := .next) trivial rfl

/-- A thread that is in the vector when no barrier is to come is there when the service is
destroyed. -/
lemma exists_terminated {block rest : List Phase} {t : Tasks.State} {created_wallet : Bool}
    (h : (system block).Reach NoThrow ⟨t, .runs rest, created_wallet⟩)
    (hlast : .TestingJoinAllRunningTasks ∉ rest) (hc : t.calls (.outside 0) = none)
    (hts : t.tasks_in_progress_ ≠ []) :
    ∃ s, (system block).Reach NoThrow s ∧ s.main = .terminated := by
  induction rest generalizing created_wallet with
  | nil => exact ⟨_, .step h (a := .next) trivial (ite_cond_eq_false _ _ (eq_false hts)), rfl⟩
  | cons p rest ih =>
      have hnext : step ⟨t, .runs (p :: rest), created_wallet⟩ .next
          = some ⟨t, .runs rest, p.after created_wallet⟩ := by
        cases p with
        | TestingJoinAllRunningTasks => exact absurd List.mem_cons_self hlast
        | AllowTimersRun | Init | CreateWallet => exact ite_cond_eq_true _ _ (eq_true hc)
      exact ih (.step h (a := .next) trivial hnext) fun hmem =>
        hlast (List.mem_cons_of_mem _ hmem)

/-- A block that is not covered has a last call that starts tasks, and no barrier after it. -/
lemma exists_uncovered {block : List Phase} {created_wallet : Bool}
    (h : ¬ Covered created_wallet block) :
    ∃ before p rest, block = before ++ p :: rest ∧ p.Works (afterAll created_wallet before) ∧
      .TestingJoinAllRunningTasks ∉ rest := by
  induction block generalizing created_wallet with
  | nil => exact absurd trivial h
  | cons p rest ih =>
      by_cases hrest : Covered (p.after created_wallet) rest
      · have hp : ¬ (p.Works created_wallet → .TestingJoinAllRunningTasks ∈ rest) :=
          fun hp => h ⟨hp, hrest⟩
        obtain ⟨hw, hlast⟩ := Classical.not_imp.mp hp
        exact ⟨[], p, rest, rfl, hw, hlast⟩
      · obtain ⟨before, q, after, rfl, hq, hlast⟩ := ih hrest
        exact ⟨p :: before, q, after, rfl, hq, hlast⟩

/-- **`std::terminate`**: the destruction of the service terminates no run of a block without an
exception, exactly if the block calls the barrier after each call that starts tasks: each `Init`,
and the first `CreateWallet`. -/
theorem never_terminates_iff (block : List Phase) :
    (∀ s, (system block).Reach NoThrow s → s.main ≠ .terminated) ↔ Covered false block := by
  constructor
  · intro h
    by_contra hb
    obtain ⟨before, p, rest, rfl, hw, hlast⟩ := exists_uncovered hb
    have hp : State.Permits ⟨Tasks.init, .runs (p :: rest), afterAll false before⟩
        (.call (.outside 0) 0) := ⟨rfl, p, rfl, hw⟩
    have hreach : (system (before ++ p :: rest)).Reach NoThrow
        ⟨Tasks.init, .runs (p :: rest), afterAll false before⟩ := reach_suffix .init
    have hcall := System.Reach.step hreach (a := Label.task (.call (.outside 0) 0)) trivial
      (ite_cond_eq_true _ _ (eq_true hp))
    have hemplace := System.Reach.step hcall (a := Label.task (.emplace (.outside 0))) trivial rfl
    have hrest : .TestingJoinAllRunningTasks ∉ p :: rest := by
      rintro (_ | ⟨_, hmem⟩)
      · exact hw
      · exact hlast hmem
    obtain ⟨s, hs, hterm⟩ := exists_terminated hemplace hrest rfl (by simp [Tasks.init])
    exact h s hs hterm
  · intro hb s hs hterm
    have hinv := coveredInv_reach hb hs
    simp only [CoveredInv, hterm] at hinv

/-- The block of the source is covered, and so is one that ends with a second `CreateWallet`. -/
example : Covered false main ∧
    Covered false [.CreateWallet, .TestingJoinAllRunningTasks, .CreateWallet] := by decide

/-! ### The end of the program -/

/-- A call of `RunTask`. -/
def Label.isCall : Label → Bool
  | .task (.call _ _) => true
  | _ => false

/-- The steps of a task: to be called for, started, run, taken out of the vector and joined. -/
def Label.brings (l : Label) : ℕ := if l.isCall then 5 else 0

/-- What a task has to go, once it is called for. -/
def taskCost : Status → ℕ
  | .passed => 4
  | .running => 1
  | _ => 0

/-- What the barrier has to go, less what a call of it costs. -/
def joinCost : Join → ℕ
  | .notCalled | .joining _ _ => 3
  | .loop _ => 2
  | .left => 1

def Phase.cost : Phase → ℕ
  | .TestingJoinAllRunningTasks => 4
  | _ => 1

def Main.cost : Main → ℕ
  | .runs rest => (rest.map Phase.cost).sum + 1
  | .throws => 1
  | _ => 0

/-- The amount that a state holds for the steps to come. `T` has the tasks called for. -/
def Holds (s : State) (n : ℕ) : Prop :=
  DriverInv s ∧ ∃ T : Finset Task, (∀ t, s.tasks.status t ≠ .unknown → t ∈ T) ∧
    n = ∑ t ∈ T, taskCost (s.tasks.status t) + 2 * s.tasks.tasks_in_progress_.length +
      joinCost s.tasks.join + s.main.cost

lemma Phase.cost_pos (p : Phase) : 0 < p.cost := by
  cases p <;> simp [Phase.cost]

/-- The steps of the tasks are paid. -/
lemma pays_task {s : State} {l : Tasks.Label} {t : Tasks.State} {T : Finset Task} (h : DriverInv s)
    (hT : ∀ u, s.tasks.status u ≠ .unknown → u ∈ T) (hs : Tasks.Moves s.tasks l t) :
    ∃ T' : Finset Task, (∀ u, t.status u ≠ .unknown → u ∈ T') ∧
      ∑ u ∈ T', taskCost (t.status u) + 2 * t.tasks_in_progress_.length + joinCost t.join + 1 ≤
        ∑ u ∈ T, taskCost (s.tasks.status u) + 2 * s.tasks.tasks_in_progress_.length +
          joinCost s.tasks.join + (Label.task l).brings := by
  cases hs with
  | @call th u hth hu =>
      refine ⟨insert u T, fun v hv => ?_, ?_⟩
      · by_cases hvu : v = u
        · exact hvu ▸ Finset.mem_insert_self ..
        · exact Finset.mem_insert_of_mem (hT v fun hn => hv (update_eq_of_ne _ hvu hn))
      · have hzero : ∑ v ∈ insert u T, taskCost (s.tasks.status v) =
            ∑ v ∈ T, taskCost (s.tasks.status v) := Finset.sum_insert_zero (by rw [hu]; rfl)
        have hsum := sum_update_add taskCost s.tasks.status (Finset.mem_insert_self u T) .passed
        rw [hzero, hu] at hsum
        change _ + 0 = _ + 4 at hsum
        change _ + 1 ≤ _ + 5
        dsimp only
        omega
  | @emplace th u hth =>
      have hpassed : s.tasks.status u = .passed := h.call.waits hth
      have hmem : u ∈ T := hT u (by simp [hpassed])
      refine ⟨T, fun v hv => ?_, ?_⟩
      · by_cases hvu : v = u
        · exact hvu ▸ hmem
        · exact hT v fun hn => hv (update_eq_of_ne _ hvu hn)
      · have hsum := sum_update_add taskCost s.tasks.status hmem .running
        rw [hpassed] at hsum
        change _ + 4 = _ + 1 at hsum
        simp only [List.length_append, List.length_singleton]
        omega
  | @finish u hu =>
      have hrunning : s.tasks.status u = .running := hu.1
      have hmem : u ∈ T := hT u (by simp [hrunning])
      refine ⟨T, fun v hv => ?_, ?_⟩
      · by_cases hvu : v = u
        · exact hvu ▸ hmem
        · exact hT v fun hn => hv (update_eq_of_ne _ hvu hn)
      · have hsum := sum_update_add taskCost s.tasks.status hmem .finished
        rw [hrunning] at hsum
        change _ + 1 = _ + 0 at hsum
        dsimp only
        omega
  | enter hth hj =>
      refine ⟨T, hT, ?_⟩
      simp only [hj, joinCost]
      omega
  | pop hj hts =>
      refine ⟨T, hT, ?_⟩
      simp only [hj, hts, joinCost, List.length_append, List.length_singleton]
      omega
  | leave hj hts | joined hj hts =>
      refine ⟨T, hT, ?_⟩
      simp only [hj, joinCost]
      omega

/-- Every step is paid. -/
lemma pays (block : List Phase) : (system block).Pays Holds Label.brings := by
  rintro s l s' n ⟨h, T, hT, rfl⟩ hstep
  have hmove := step_moves hstep
  have hinv := driverInv_step h hmove
  cases hmove with
  | task hp ht =>
      obtain ⟨T', hT', hle⟩ := pays_task h hT ht
      exact ⟨_, ⟨hinv, T', hT', rfl⟩, by simp only; omega⟩
  | passed hm hj =>
      refine ⟨_, ⟨hinv, T, hT, rfl⟩, ?_⟩
      simp only [hm, hj, joinCost, Main.cost, Phase.cost, List.map_cons, List.sum_cons]
      omega
  | @returned p rest hm hp hc =>
      refine ⟨_, ⟨hinv, T, hT, rfl⟩, ?_⟩
      have hpos := p.cost_pos
      simp only [hm, Main.cost, List.map_cons, List.sum_cons]
      omega
  | destroyed hm hts | terminated hm hts =>
      refine ⟨_, ⟨hinv, T, hT, rfl⟩, ?_⟩
      have hpos : 0 < s.main.cost := by rcases hm with hm | hm <;> simp [hm, Main.cost]
      change _ + 0 + 1 ≤ _ + 0
      dsimp only
      omega
  | @throw p rest hm hp hc =>
      refine ⟨_, ⟨hinv, T, hT, rfl⟩, ?_⟩
      have hpos := p.cost_pos
      simp only [hm, Main.cost, List.map_cons, List.sum_cons]
      omega

/-- The task that is being joined can go on, or its join returns. -/
lemma DriverInv.exists_step {s : State} (h : DriverInv s) {th : Thread} {u : Task}
    (hj : s.tasks.join = .joining th u) (hm : s.main ≠ .terminated) :
    ∃ l, l.isCall = false ∧ step s l ≠ none := by
  have hcaller : th = .outside 0 := h.caller (by simp [hj, Join.caller?])
  rcases h.call.started (.inr (by rw [hj]; rfl)) with hu | hu
  · cases hc : s.tasks.calls (.task u) with
    | none =>
        have hacts : s.tasks.Acts (.task u) := by
          refine ⟨hu, hc, ?_⟩
          rw [hj, hcaller]
          simp [Join.caller?]
        exact ⟨.task (.finish u), rfl, by simp [step, State.Permits, hm, Tasks.step, hacts]⟩
    | some v =>
        exact ⟨.task (.emplace (.task u)), rfl, by simp [step, State.Permits, hm, Tasks.step, hc]⟩
  · exact ⟨.task .joined, rfl, by simp [step, State.Permits, hm, Tasks.step, hj, hu]⟩

/-- No run stops before `main` does: some thread has a step that is not a new call of `RunTask`. -/
lemma DriverInv.progress {s : State} (h : DriverInv s) (hd : s.main ≠ .destroyed)
    (ht : s.main ≠ .terminated) : ∃ l, l.isCall = false ∧ step s l ≠ none := by
  cases hm : s.main with
  | destroyed => exact absurd hm hd
  | terminated => exact absurd hm ht
  | throws => exact ⟨.next, rfl, by simp only [step, hm]; split <;> simp⟩
  | runs rest =>
      rcases rest with _ | ⟨p, rest⟩
      · exact ⟨.next, rfl, by simp only [step, hm]; split <;> simp⟩
      by_cases hp : p = .TestingJoinAllRunningTasks
      · subst hp
        have hcalls : s.tasks.calls (.outside 0) = none :=
          h.noCall (by simp [hm, Main.phase?, Phase.Works])
        cases hj : s.tasks.join with
        | notCalled =>
            have hacts : s.tasks.Acts (.outside 0) := ⟨trivial, hcalls, by simp [hj, Join.caller?]⟩
            exact ⟨.task (.enter (.outside 0)), rfl,
              by simp [step, State.Permits, hm, Main.phase?, Tasks.step, hacts, hj]⟩
        | loop th =>
            refine ⟨.task .pop, rfl, ?_⟩
            simp only [step, State.Permits, hm, Tasks.step, hj]
            cases s.tasks.tasks_in_progress_.getLast? <;> simp
        | joining th u => exact h.exists_step hj ht
        | left => exact ⟨.next, rfl, by simp [step, hm, hj]⟩
      · cases hc : s.tasks.calls (.outside 0) with
        | none =>
            refine ⟨.next, rfl, ?_⟩
            cases p with
            | TestingJoinAllRunningTasks => exact absurd rfl hp
            | AllowTimersRun | Init | CreateWallet => simp [step, hm, hc]
        | some u =>
            exact ⟨.task (.emplace (.outside 0)), rfl,
              by simp [step, State.Permits, hm, Tasks.step, hc]⟩

lemma sum_brings (ls : List Label) : (ls.map Label.brings).sum = 5 * ls.countP Label.isCall := by
  induction ls with
  | nil => rfl
  | cons l ls ih =>
      rw [List.map_cons, List.sum_cons, ih, List.countP_cons, Label.brings]
      split <;> omega

/-- **The end of the program**: the length of every run of a block is bounded in its calls of
`RunTask`, whoever makes them, and a run that only another such call can prolong has ended with the
service destroyed or with `std::terminate`. -/
theorem main_ends {block : List Phase} {ls : List Label} {s : State}
    (h : (system block).run (system block).init ls = some s) :
    ls.length ≤ 5 * ls.countP Label.isCall + (block.map Phase.cost).sum + 4 ∧
      ((∀ l, step s l ≠ none → l.isCall = true) → s.main = .destroyed ∨ s.main = .terminated) := by
  have hinit : Holds (system block).init ((block.map Phase.cost).sum + 4) := by
    refine ⟨driverInv_init block, ∅, fun t ht => absurd rfl ht, ?_⟩
    simp [system, Tasks.init, joinCost, Main.cost]
    omega
  constructor
  · obtain ⟨n, -, hn⟩ := (pays block).run hinit h
    rw [sum_brings] at hn
    omega
  · intro hrest
    have hinv : DriverInv s := driverInv_reach (System.reach_of_run h)
    by_contra hm
    obtain ⟨hd, ht⟩ := not_or.mp hm
    obtain ⟨l, hl, hen⟩ := hinv.progress hd ht
    rw [hrest l hen] at hl
    cases hl

/-- With one task the run of `main` has 16 steps; the bound is 21. -/
theorem main_ends_schedule : ∃ s, (system main).run (system main).init schedule = some s ∧
    schedule.length ≤ 5 * schedule.countP Label.isCall + (main.map Phase.cost).sum + 4 ∧
      ((∀ l, step s l ≠ none → l.isCall = true) → s.main = .destroyed ∨ s.main = .terminated) := by
  obtain ⟨s, hrun, -⟩ := exists_schedule
  exact ⟨s, hrun, main_ends hrun⟩

end RewardsDriver.Tasks.Driver
