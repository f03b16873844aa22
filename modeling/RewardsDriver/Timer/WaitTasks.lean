import Mathlib.Data.Finset.Basic
import Mathlib.Logic.Function.Basic
import RewardsDriver.Base.Runs

/-!
Timers and their wait tasks: `BraveRewardsServiceImpl::SetTimer` and `AllowTimersRun`
(`driver/brave_rewards_service_impl.cc`) over the one `io_service` of the service.

A call of `SetTimer` takes its id and places its timer under `timer_mx_`, then, the lock
released, calls `async_wait` and spawns a wait task; the task calls `io_.run()` and then
`io_.reset()`. Of Boost.Asio: `run()` returns at once on a stopped service, otherwise it executes
expired handlers until no work is outstanding, when the service becomes stopped; a thread in
`run()` returns when it finds the service stopped; `reset()` clears the flag.

* `system`: the labelled transition system; any thread may call `SetTimer` at any time.
* `Moves`, `step_moves`: what one step can do, guard and result, for every label.
-/

namespace RewardsDriver.Timer

/-- A call of `SetTimer`, which is also its timer and its wait task. -/
abbrev Call := ℕ

/-- The progress of one call and of the wait task it spawns. -/
inductive Phase where
  | idle
  /-- The call was refused and given a fake id. -/
  | refused
  /-- The timer is in `timers_` and the lock released. -/
  | setting
  /-- `async_wait` has been called. -/
  | armed
  /-- The wait task has been handed to `RunTask`. -/
  | ready
  /-- The wait task is in `io_.run()`. -/
  | running
  /-- `io_.run()` has returned, `io_.reset()` is still to come. -/
  | returned
  | ended
  deriving DecidableEq

namespace Phase

/-- `SetTimer` has placed its timer and has not yet spawned its wait task. -/
def InProgress (p : Phase) : Prop := p = setting ∨ p = armed

/-- The wait task has been spawned and has not ended. -/
def Waiting (p : Phase) : Prop := p = ready ∨ p = running ∨ p = returned

/-- `async_wait` has been called for the timer. -/
def HasArmed (p : Phase) : Prop := p = armed ∨ p.Waiting ∨ p = ended

end Phase

/-- The timers of the service. `pending` are the armed timers whose handler has not run, the
outstanding work of `io_`; `ids` lists the ids handed out and `fired` the `OnTimer` tasks
posted by handlers. -/
structure State where
  timer_id_ : UInt32
  max_number_timers_ : UInt32
  FAKED_TIMER_ID : UInt32
  phase : Call → Phase
  pending : Finset Call
  expired : Finset Call
  stopped : Bool
  ids : List (Call × UInt32)
  fired : List Call

/-- A step of one thread, or the passing of a timer's deadline. -/
inductive Label where
  | allow (timers : UInt32)
  | set (c : Call)
  | arm (c : Call)
  | spawn (c : Call)
  | expire (c : Call)
  | enter (c : Call)
  | handle (c d : Call)
  | leave (c : Call)
  | reset (c : Call)

/-- The test of `SetTimer` on the number of timers. -/
def State.refuses (s : State) : Bool :=
  s.max_number_timers_ != 0 && s.max_number_timers_ ≤ s.timer_id_

open Function in
/-- One step. -/
def step (s : State) : Label → Option State
  | .allow timers =>
      some { s with max_number_timers_ := if timers = 0 then timers else s.timer_id_ + timers }
  | .set c =>
      if s.phase c = .idle then
        if s.refuses then
          some { s with phase := update s.phase c .refused
                        ids := s.ids ++ [(c, s.FAKED_TIMER_ID)]
                        FAKED_TIMER_ID := s.FAKED_TIMER_ID - 1 }
        else
          some { s with phase := update s.phase c .setting
                        timer_id_ := s.timer_id_ + 1
                        ids := s.ids ++ [(c, s.timer_id_ + 1)] }
      else none
  | .arm c =>
      if s.phase c = .setting then
        some { s with phase := update s.phase c .armed, pending := insert c s.pending }
      else none
  | .spawn c =>
      if s.phase c = .armed then some { s with phase := update s.phase c .ready } else none
  | .expire c => some { s with expired := insert c s.expired }
  | .enter c =>
      if s.phase c = .ready then
        if s.stopped then
          some { s with phase := update s.phase c .returned }
        else if s.pending = ∅ then
          some { s with phase := update s.phase c .returned, stopped := true }
        else
          some { s with phase := update s.phase c .running }
      else none
  | .handle c d =>
      if s.phase c = .running ∧ s.stopped = false ∧ d ∈ s.pending ∧ d ∈ s.expired then
        some { s with pending := s.pending.erase d
                      fired := s.fired ++ [d]
                      stopped := decide (s.pending.erase d = ∅) }
      else none
  | .leave c =>
      if s.phase c = .running ∧ s.stopped = true then
        some { s with phase := update s.phase c .returned }
      else none
  | .reset c =>
      if s.phase c = .returned then
        some { s with phase := update s.phase c .ended, stopped := false }
      else none

/-- The service before its first timer. -/
def init : State where
  timer_id_ := 0
  max_number_timers_ := 0
  FAKED_TIMER_ID := 0xFFFFFFFF
  phase := fun _ => .idle
  pending := ∅
  expired := ∅
  stopped := false
  ids := []
  fired := []

/-- The timers of the service. -/
def system : System State Label := ⟨init, step⟩

/-! ### What one step can do -/

open Function in
/-- The enabled steps from `s`: the guard of each label and the state it leads to. -/
inductive Moves (s : State) : Label → State → Prop
  | allow {timers} : Moves s (.allow timers) { s with
      max_number_timers_ := if timers = 0 then timers else s.timer_id_ + timers }
  | refuse {c} (hc : s.phase c = .idle) (hr : s.refuses = true) :
      Moves s (.set c) { s with
        phase := update s.phase c .refused, ids := s.ids ++ [(c, s.FAKED_TIMER_ID)]
        FAKED_TIMER_ID := s.FAKED_TIMER_ID - 1 }
  | set {c} (hc : s.phase c = .idle) (hr : s.refuses = false) :
      Moves s (.set c) { s with
        phase := update s.phase c .setting, timer_id_ := s.timer_id_ + 1
        ids := s.ids ++ [(c, s.timer_id_ + 1)] }
  | arm {c} (hc : s.phase c = .setting) :
      Moves s (.arm c) { s with
        phase := update s.phase c .armed, pending := insert c s.pending }
  | spawn {c} (hc : s.phase c = .armed) :
      Moves s (.spawn c) { s with phase := update s.phase c .ready }
  | expire {c} : Moves s (.expire c) { s with expired := insert c s.expired }
  | skip {c} (hc : s.phase c = .ready) (hs : s.stopped = true) :
      Moves s (.enter c) { s with phase := update s.phase c .returned }
  | drain {c} (hc : s.phase c = .ready) (hs : s.stopped = false) (hp : s.pending = ∅) :
      Moves s (.enter c) { s with phase := update s.phase c .returned, stopped := true }
  | enter {c} (hc : s.phase c = .ready) (hs : s.stopped = false) (hp : s.pending ≠ ∅) :
      Moves s (.enter c) { s with phase := update s.phase c .running }
  | handle {c d} (hc : s.phase c = .running) (hs : s.stopped = false) (hd : d ∈ s.pending)
      (he : d ∈ s.expired) :
      Moves s (.handle c d) { s with
        pending := s.pending.erase d, fired := s.fired ++ [d]
        stopped := decide (s.pending.erase d = ∅) }
  | leave {c} (hc : s.phase c = .running) (hs : s.stopped = true) :
      Moves s (.leave c) { s with phase := update s.phase c .returned }
  | reset {c} (hc : s.phase c = .returned) :
      Moves s (.reset c) { s with phase := update s.phase c .ended, stopped := false }

/-- The inversion of `step`: an enabled step is one of `Moves`. -/
theorem step_moves {s s' : State} {l : Label} (h : step s l = some s') : Moves s l s' := by
  cases l with
  | allow timers => cases h; exact .allow
  | set c =>
      simp only [step] at h
      split at h
      · split at h
        · cases h; exact .refuse ‹_› ‹_›
        · rename_i hc hr
          cases h; exact .set hc (by simpa using hr)
      · cases h
  | arm c =>
      simp only [step] at h
      split at h
      · cases h; exact .arm ‹_›
      · cases h
  | spawn c =>
      simp only [step] at h
      split at h
      · cases h; exact .spawn ‹_›
      · cases h
  | expire c => cases h; exact .expire
  | enter c =>
      simp only [step] at h
      split at h
      · rename_i hc
        split at h
        · cases h; exact .skip hc ‹_›
        · rename_i hs
          have hs : s.stopped = false := by simpa using hs
          split at h
          · cases h; exact .drain hc hs ‹_›
          · cases h; exact .enter hc hs ‹_›
      · cases h
  | handle c d =>
      simp only [step] at h
      split at h
      · rename_i hguard
        obtain ⟨hc, hs, hd, he⟩ := hguard
        cases h; exact .handle hc hs hd he
      · cases h
  | leave c =>
      simp only [step] at h
      split at h
      · rename_i hguard
        cases h; exact .leave hguard.1 hguard.2
      · cases h
  | reset c =>
      simp only [step] at h
      split at h
      · cases h; exact .reset ‹_›
      · cases h

end RewardsDriver.Timer
