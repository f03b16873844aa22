import RewardsDriver.Fetch.Registry
import RewardsDriver.Timer.WaitTasks

/-!
`BraveRewardsServiceImpl::Shutdown` among the requests and the timers of the service: does anything
call into the ledger after `ledger_.reset()`?

`Shutdown` clears `fetchers_`, so that a completion to come finds no callback. The callbacks that
completions have taken out or posted, the timers that are armed and the `OnTimer` tasks that have
been posted keep their way to the ledger.

* `system`: the requests, the timers and one call of `Shutdown`, with the calls into the ledger
  that come late.
* `Moves`, `step_moves`: what one step can do, guard and result, for every label.
* `Drained`: the guard that `Shutdown` finds nothing on its way to the ledger, and that nothing is
  sent on that way after it.
* `LateInv`, `lateInv_step`: the invariant, after `Shutdown` nothing is on its way.
* `none_late_of_drained`: **no late call** in any state of any such run.
* `timer_late`: an armed timer calls the ledger that is gone.
-/

namespace RewardsDriver.Service

/-- The progress of `Shutdown`. -/
inductive Shutdown where
  | notCalled
  /-- `fetchers_.clear()` has been called. -/
  | cleared
  /-- `ledger_.reset()` has been called. -/
  | reset
  deriving DecidableEq

/-- A call into the ledger. -/
inductive LedgerCall where
  | OnTimer (timer : Timer.Call)
  | OnURLRequestResponse (callback : Fetch.FetchCallback) (response : Fetch.Response)
  deriving DecidableEq

/-- The service. `onTimer` are the `OnTimer` tasks that have not run, `late` the calls into the
ledger made after `ledger_` has been reset. -/
structure State where
  fetch : Fetch.State
  timer : Timer.State
  onTimer : List Timer.Call
  shutdown : Shutdown
  late : List LedgerCall

/-- A step of one thread. -/
inductive Label where
  | fetch (l : Fetch.Label)
  | timer (l : Timer.Label)
  /-- An `OnTimer` task runs. -/
  | onTimer (i : ℕ)
  | clear
  | reset

/-- The late calls, with these. -/
def State.lateWith (s : State) (calls : List LedgerCall) : List LedgerCall :=
  if s.shutdown = .reset then s.late ++ calls else s.late

/-- The response tasks that have run since. -/
def handledSince (f f' : Fetch.State) : List LedgerCall :=
  (f'.handled.drop f.handled.length).map fun t => .OnURLRequestResponse t.1 t.2

/-- One step. The handlers of expired timers post the `OnTimer` tasks. -/
def step (s : State) : Label → Option State
  | .fetch .shutdown => none
  | .fetch l =>
      (Fetch.step s.fetch l).map fun f =>
        { s with fetch := f, late := s.lateWith (handledSince s.fetch f) }
  | .timer l =>
      (Timer.step s.timer l).map fun t =>
        { s with timer := t, onTimer := s.onTimer ++ t.fired.drop s.timer.fired.length }
  | .onTimer i =>
      match s.onTimer[i]? with
      | some c =>
          some { s with onTimer := s.onTimer.eraseIdx i, late := s.lateWith [.OnTimer c] }
      | none => none
  | .clear =>
      if s.shutdown = .notCalled then
        (Fetch.step s.fetch .shutdown).map fun f => { s with fetch := f, shutdown := .cleared }
      else none
  | .reset => if s.shutdown = .cleared then some { s with shutdown := .reset } else none

/-- The service before its first request and its first timer. -/
def init : State where
  fetch := Fetch.init
  timer := Timer.init
  onTimer := []
  shutdown := .notCalled
  late := []

/-- The service. -/
def system : System State Label := ⟨init, step⟩

/-! ### What one step can do -/

/-- The enabled steps from `s`: the guard of each label and the state it leads to. -/
inductive Moves (s : State) : Label → State → Prop
  | fetch {l f} (hf : Fetch.Moves s.fetch l f) (hl : l ≠ .shutdown) :
      Moves s (.fetch l) { s with fetch := f, late := s.lateWith (handledSince s.fetch f) }
  | timer {l t} (ht : Timer.Moves s.timer l t) :
      Moves s (.timer l) { s with
        timer := t, onTimer := s.onTimer ++ t.fired.drop s.timer.fired.length }
  | onTimer {i c} (hi : s.onTimer[i]? = some c) :
      Moves s (.onTimer i) { s with
        onTimer := s.onTimer.eraseIdx i, late := s.lateWith [.OnTimer c] }
  | clear (hs : s.shutdown = .notCalled) :
      Moves s .clear { s with
        fetch := { s.fetch with fetchers_ := fun _ => none }, shutdown := .cleared }
  | reset (hs : s.shutdown = .cleared) : Moves s .reset { s with shutdown := .reset }

/-- The inversion of `step`: an enabled step is one of `Moves`. -/
theorem step_moves {s s' : State} {l : Label} (h : step s l = some s') : Moves s l s' := by
  cases l with
  | fetch l =>
      cases l with
      | shutdown => cases h
      | _ =>
          obtain ⟨f, hf, rfl⟩ := Option.map_eq_some_iff.mp h
          exact .fetch (Fetch.step_moves hf) (by simp)
  | timer l =>
      obtain ⟨t, ht, rfl⟩ := Option.map_eq_some_iff.mp h
      exact .timer (Timer.step_moves ht)
  | onTimer i =>
      simp only [step] at h
      split at h
      · cases h; exact .onTimer ‹_›
      · cases h
  | clear =>
      simp only [step] at h
      split at h
      · cases h; exact .clear ‹_›
      · cases h
  | reset =>
      simp only [step] at h
      split at h
      · cases h; exact .reset ‹_›
      · cases h

/-! ### Late calls -/

/-- No callback of a request is on its way to the ledger. -/
structure NoCallback (f : Fetch.State) : Prop where
  fetchers_ : ∀ a, f.fetchers_ a = none
  completing : ∀ c, (f.phase c).callback? = none
  tasks : f.tasks = []

/-- `Shutdown` resets the ledger when no timer is armed, no `OnTimer` task is to run and no callback
is on its way; after that no request is registered and no timer is armed. -/
def Drained (s : State) : Label → Prop
  | .reset => s.timer.pending = ∅ ∧ s.onTimer = [] ∧ NoCallback s.fetch
  | .fetch (.register _) | .timer (.arm _) => s.shutdown ≠ .reset
  | _ => True

/-- The invariant of the runs that are drained. -/
structure LateInv (s : State) : Prop where
  late : s.late = []
  noCallback : s.shutdown = .reset → NoCallback s.fetch
  noTimer : s.shutdown = .reset → s.timer.pending = ∅ ∧ s.onTimer = []

lemma lateInv_init : LateInv init where
  late := rfl
  noCallback := fun h => by cases h
  noTimer := fun h => by cases h

/-- Without a callback on its way, a step of the requests that registers nothing runs none and
brings none on its way. -/
lemma NoCallback.step {f f' : Fetch.State} {l : Fetch.Label} (h : NoCallback f)
    (hs : Fetch.Moves f l f') (hl : ∀ c, l ≠ .register c) :
    NoCallback f' ∧ f'.handled = f.handled := by
  have hcompleting : ∀ {c p}, p.callback? = none → ∀ d,
      (Function.update f.phase c p d).callback? = none := by
    intro c p hp d
    by_cases hd : d = c
    · rw [hd, Function.update_self, hp]
    · rw [Function.update_of_ne hd, h.completing d]
  cases hs with
  | create | bind | fetch | absent => exact ⟨⟨h.fetchers_, hcompleting rfl, h.tasks⟩, rfl⟩
  | @register c _ _ _ => exact absurd rfl (hl c)
  | take _ ha =>
      rw [h.fetchers_] at ha
      cases ha
  | @read c _ _ _ hc _ | @delete c _ _ _ hc | @post c _ _ hc =>
      have hnone := h.completing c
      rw [hc] at hnone
      cases hnone
  | invoke hi =>
      rw [h.tasks] at hi
      cases hi
  | shutdown => exact ⟨⟨fun _ => rfl, h.completing, h.tasks⟩, rfl⟩

/-- Without an armed timer, a step of the timers that arms none fires none. -/
lemma timer_step {t t' : Timer.State} {l : Timer.Label} (hs : Timer.Moves t l t')
    (hl : ∀ c, l ≠ .arm c) (h : t.pending = ∅) : t'.pending = ∅ ∧ t'.fired = t.fired := by
  cases hs with
  | @arm c _ => exact absurd rfl (hl c)
  | handle _ _ hd _ =>
      rw [h] at hd
      exact absurd hd (Finset.notMem_empty _)
  | _ => exact ⟨h, rfl⟩

/-- **The step lemma**: every step that meets the guard keeps the invariant. -/
theorem lateInv_step {s s' : State} {l : Label} (h : LateInv s) (hok : Drained s l)
    (hs : Moves s l s') : LateInv s' := by
  cases hs with
  | @fetch l f hf hl =>
      have hcallback : s.shutdown = .reset → NoCallback f ∧ f.handled = s.fetch.handled := by
        intro hreset
        refine (h.noCallback hreset).step hf ?_
        rintro c rfl
        exact hok hreset
      refine ⟨?_, fun hreset => (hcallback hreset).1, h.noTimer⟩
      rw [State.lateWith]
      split
      · rename_i hreset
        simp [handledSince, (hcallback hreset).2, h.late]
      · exact h.late
  | @timer l t ht =>
      refine ⟨h.late, h.noCallback, fun hs => ?_⟩
      have harm : ∀ c, l ≠ .arm c := by
        rintro c rfl
        exact hok hs
      obtain ⟨hpending, honTimer⟩ := h.noTimer hs
      obtain ⟨hpending', hfired⟩ := timer_step ht harm hpending
      exact ⟨hpending', by simp [honTimer, hfired]⟩
  | @onTimer i c hi =>
      have hreset : s.shutdown ≠ .reset := by
        intro hreset
        rw [(h.noTimer hreset).2] at hi
        cases hi
      refine ⟨?_, h.noCallback, fun hs => absurd hs hreset⟩
      rw [State.lateWith, if_neg hreset]
      exact h.late
  | clear => exact ⟨h.late, fun hs => (by cases hs), fun hs => (by cases hs)⟩
  | reset =>
      obtain ⟨hpending, honTimer, hcallback⟩ := hok
      exact ⟨h.late, fun _ => hcallback, fun _ => ⟨hpending, honTimer⟩⟩

/-- **No late call**: in every run in which `Shutdown` finds nothing on its way to the ledger and
nothing is sent there later, no task calls into the ledger after it has been reset. -/
theorem none_late_of_drained {s : State} (h : system.Reach Drained s) : s.late = [] := by
  have hinv : LateInv s :=
    h.invariant lateInv_init fun _ _ _ hinv hok hs => lateInv_step hinv hok (step_moves hs)
  exact hinv.late

/-- A timer is armed and its wait task spawned. -/
def armTimer : List Label := [.timer (.set 0), .timer (.arm 0), .timer (.spawn 0)]

/-- Its handler posts the `OnTimer` task, which runs. -/
def fireTimer : List Label :=
  [.timer (.expire 0), .timer (.enter 0), .timer (.handle 0 0), .onTimer 0]

lemma reach_armTimer {s : State} (h : system.run system.init armTimer = some s) :
    system.Reach Drained s := by
  have hset : system.Reach Drained _ := .step .init (a := .timer (.set 0)) trivial rfl
  have harm : system.Reach Drained _ :=
    .step hset (a := .timer (.arm 0)) (fun hreset => by cases hreset) rfl
  exact .step harm (a := .timer (.spawn 0)) trivial h

/-- A timer that has fired before `Shutdown`. -/
theorem none_late_of_fired : ∃ s, system.run system.init
    (armTimer ++ (fireTimer ++ [.clear]) ++ [.reset]) = some s ∧ s.late = [] := by
  have hclear : ∀ l ∈ fireTimer ++ [.clear], ∀ t, Drained t l := by
    intro l hl t
    simp only [fireTimer, List.cons_append, List.nil_append, List.mem_cons, List.not_mem_nil,
      or_false] at hl
    rcases hl with rfl | rfl | rfl | rfl | rfl <;> trivial
  have hcleared : system.Reach Drained _ := (reach_armTimer rfl).run hclear rfl
  exact ⟨_, rfl, none_late_of_drained (.step hcleared (a := .reset)
    ⟨by decide, rfl, fun _ => rfl, fun _ => rfl, rfl⟩ rfl)⟩

/-- An armed timer outlives `Shutdown`. -/
theorem timer_late : ¬ ∀ s, system.Reach System.Free s → s.late = [] := by
  intro hall
  have hrun : system.run system.init (armTimer ++ [.clear, .reset] ++ fireTimer) = some _ := rfl
  have hlate := hall _ (System.reach_of_run hrun)
  cases hlate

end RewardsDriver.Service
