import Mathlib.Tactic
import RewardsDriver.Base.Word
import RewardsDriver.Timer.WaitTasks

/-!
The timer allowance: does `AllowTimersRun(n)` let exactly the next `n` timers be set?

The limit is stored as the running timer id plus `n`, a 32-bit sum, and a stored `0` means that
there is no limit.

* `Counters`, `setTimer`, `allowTimersRun`: the calls on the counters alone; `sequential` is the
  system of calls made one after another.
* `counters_reach`: the counters of the service move by these calls only.
* `Exact`, `exact_iff`: **the allowance is exact** if and only if the sum does not wrap.
* `allowance_unlimited`: after one timer an allowance of `2^32 - 1` is no limit.
-/

namespace RewardsDriver.Timer

structure Counters where
  timer_id_ : UInt32
  max_number_timers_ : UInt32
  FAKED_TIMER_ID : UInt32

/-- What a call of `SetTimer` hands out: the id of a timer that it arms, or a fake id. -/
inductive Handed where
  | armed (timer_id : UInt32)
  | refused (timer_id : UInt32)

namespace Handed

def IsArmed : Handed → Prop
  | armed _ => True
  | refused _ => False

def timer_id : Handed → UInt32
  | armed timer_id => timer_id
  | refused timer_id => timer_id

end Handed

namespace Counters

def init : Counters := ⟨0, 0, 0xFFFFFFFF⟩

/-- The limit of `SetTimer` has been reached. -/
def refuses (s : Counters) : Bool :=
  s.max_number_timers_ != 0 && s.max_number_timers_ ≤ s.timer_id_

def setTimer (s : Counters) : Handed × Counters :=
  if s.refuses then
    (.refused s.FAKED_TIMER_ID, { s with FAKED_TIMER_ID := s.FAKED_TIMER_ID - 1 })
  else
    (.armed (s.timer_id_ + 1), { s with timer_id_ := s.timer_id_ + 1 })

def allowTimersRun (timers : UInt32) (s : Counters) : Counters :=
  if 0 = timers then { s with max_number_timers_ := timers }
  else { s with max_number_timers_ := s.timer_id_ + timers }

/-- A call on the counters. -/
inductive Call where
  | setTimer
  | allowTimersRun (timers : UInt32)

def step (s : Counters) : Call → Option Counters
  | .setTimer => some s.setTimer.2
  | .allowTimersRun timers => some (s.allowTimersRun timers)

/-- Calls one after another. -/
def sequential : System Counters Call := ⟨init, step⟩

/-- The counters after `k` calls of `SetTimer`. -/
def after (s : Counters) (k : ℕ) : Counters := (fun s => s.setTimer.2)^[k] s

@[simp] lemma after_zero (s : Counters) : s.after 0 = s := rfl

lemma after_succ (s : Counters) (k : ℕ) : s.after (k + 1) = (s.after k).setTimer.2 :=
  Function.iterate_succ_apply' _ _ _

lemma setTimer_of_refuses {s : Counters} (h : s.refuses = true) : s.setTimer =
    (.refused s.FAKED_TIMER_ID, { s with FAKED_TIMER_ID := s.FAKED_TIMER_ID - 1 }) := by
  rw [setTimer, if_pos h]

lemma setTimer_of_not_refuses {s : Counters} (h : s.refuses = false) : s.setTimer =
    (.armed (s.timer_id_ + 1), { s with timer_id_ := s.timer_id_ + 1 }) := by
  rw [setTimer, if_neg (by simp [h])]

lemma isArmed_setTimer_iff (s : Counters) : s.setTimer.1.IsArmed ↔ s.refuses = false := by
  cases h : s.refuses with
  | true => simp [setTimer_of_refuses h, Handed.IsArmed]
  | false => simp [setTimer_of_not_refuses h, Handed.IsArmed]

/-- `SetTimer` leaves the limit alone. -/
lemma max_after (s : Counters) (k : ℕ) :
    (s.after k).max_number_timers_ = s.max_number_timers_ := by
  induction k with
  | zero => rfl
  | succ k ih =>
      rw [after_succ, ← ih]
      cases h : (s.after k).refuses with
      | true => rw [setTimer_of_refuses h]
      | false => rw [setTimer_of_not_refuses h]

lemma refuses_eq_false_iff (s : Counters) : s.refuses = false ↔
    s.max_number_timers_ = 0 ∨ s.timer_id_.toNat < s.max_number_timers_.toNat := by
  rw [refuses, Bool.and_eq_false_iff]
  simp [UInt32.lt_iff_toNat_lt]

/-- Without a limit every call arms a timer. -/
lemma isArmed_of_max_eq_zero {s : Counters} (h : s.max_number_timers_ = 0) (k : ℕ) :
    (s.after k).setTimer.1.IsArmed := by
  rw [isArmed_setTimer_iff, refuses_eq_false_iff]
  exact .inl (by rw [max_after, h])

/-- Under a limit ahead of the timer id the id rises to the limit and stays there. -/
lemma timer_id_after {s : Counters} (hle : s.timer_id_.toNat ≤ s.max_number_timers_.toNat)
    (hmax : s.max_number_timers_ ≠ 0) (k : ℕ) : (s.after k).timer_id_.toNat =
      min (s.timer_id_.toNat + k) s.max_number_timers_.toNat := by
  have hlt := s.max_number_timers_.toNat_lt
  induction k with
  | zero => rw [after_zero]; omega
  | succ k ih =>
      rw [after_succ]
      have hiff := refuses_eq_false_iff (s.after k)
      rw [max_after, ih] at hiff
      cases h : (s.after k).refuses with
      | true =>
          have hge : ¬ min (s.timer_id_.toNat + k) s.max_number_timers_.toNat <
              s.max_number_timers_.toNat := fun hlt => by simp [hiff.mpr (.inr hlt)] at h
          rw [setTimer_of_refuses h]
          show (s.after k).timer_id_.toNat = _
          omega
      | false =>
          have hroom : min (s.timer_id_.toNat + k) s.max_number_timers_.toNat <
              s.max_number_timers_.toNat := (hiff.mp h).resolve_left hmax
          rw [setTimer_of_not_refuses h]
          show ((s.after k).timer_id_ + 1).toNat = _
          rw [toNat_add_of_lt (by rw [UInt32.toNat_one]; omega), UInt32.toNat_one]
          omega

end Counters

open Counters

/-- After `AllowTimersRun(n)` the first `n` calls of `SetTimer` arm a timer and every later one is
refused. -/
def Exact (s : Counters) (n : UInt32) : Prop :=
  ∀ k, ((s.allowTimersRun n).after k).setTimer.1.IsArmed ↔ k < n.toNat

/-- The limit is the sum, modulo `2^32`. -/
lemma allowTimersRun_of_ne_zero (s : Counters) {n : UInt32} (hn : n ≠ 0) :
    s.allowTimersRun n = { s with max_number_timers_ := s.timer_id_ + n } := by
  rw [allowTimersRun, if_neg (Ne.symm hn)]

lemma exact_of_lt (s : Counters) {n : UInt32} (hn : n ≠ 0)
    (hsum : s.timer_id_.toNat + n.toNat < 2 ^ 32) : Exact s n := by
  intro k
  have hpos : 0 < n.toNat := Nat.pos_of_ne_zero fun h => hn (UInt32.toNat_inj.mp h)
  have hmax : (s.timer_id_ + n).toNat = s.timer_id_.toNat + n.toNat := toNat_add_of_lt hsum
  have hne : s.timer_id_ + n ≠ 0 := fun h => by
    rw [h, UInt32.toNat_zero] at hmax
    omega
  rw [allowTimersRun_of_ne_zero s hn, isArmed_setTimer_iff, refuses_eq_false_iff, max_after,
    timer_id_after (by show s.timer_id_.toNat ≤ (s.timer_id_ + n).toNat; omega) hne]
  show s.timer_id_ + n = 0 ∨
    min (s.timer_id_.toNat + k) (s.timer_id_ + n).toNat < (s.timer_id_ + n).toNat ↔ _
  rw [or_iff_right hne]
  omega

/-- A sum of `2^32` is stored as no limit: the call after the first `n` still arms a timer. -/
lemma not_exact_of_eq (s : Counters) {n : UInt32} (hn : n ≠ 0)
    (hsum : s.timer_id_.toNat + n.toNat = 2 ^ 32) : ¬ Exact s n := by
  intro h
  have hzero : s.timer_id_ + n = 0 := by
    rw [← UInt32.toNat_inj, UInt32.toNat_add, hsum]
    rfl
  have hmax : (s.allowTimersRun n).max_number_timers_ = 0 := by
    rw [allowTimersRun_of_ne_zero s hn, hzero]
  exact lt_irrefl _ ((h n.toNat).mp (isArmed_of_max_eq_zero hmax n.toNat))

/-- A larger sum is stored as a limit behind the timer id: the first call is refused already. -/
lemma not_exact_of_gt (s : Counters) {n : UInt32} (hn : n ≠ 0)
    (hsum : 2 ^ 32 < s.timer_id_.toNat + n.toNat) : ¬ Exact s n := by
  intro h
  have hid := s.timer_id_.toNat_lt
  have hlt := n.toNat_lt
  have hmax : (s.timer_id_ + n).toNat = s.timer_id_.toNat + n.toNat - 2 ^ 32 := by
    rw [UInt32.toNat_add]
    omega
  have hfirst := (h 0).mpr (by omega)
  rw [after_zero, allowTimersRun_of_ne_zero s hn, isArmed_setTimer_iff,
    refuses_eq_false_iff] at hfirst
  obtain hzero | hroom := hfirst
  · have : (s.timer_id_ + n).toNat = 0 := congrArg UInt32.toNat hzero
    omega
  · have : s.timer_id_.toNat < (s.timer_id_ + n).toNat := hroom
    omega

/-- **When the allowance is exact**: if and only if the running timer id plus the allowance is
below `2^32`. At `2^32` the stored limit is `0`, no limit; above, it is behind the timer id and
every call is refused. -/
theorem exact_iff (s : Counters) {n : UInt32} (hn : n ≠ 0) :
    Exact s n ↔ s.timer_id_.toNat + n.toNat < 2 ^ 32 := by
  refine ⟨fun h => ?_, exact_of_lt s hn⟩
  obtain hlt | heq | hgt := Nat.lt_trichotomy (s.timer_id_.toNat + n.toNat) (2 ^ 32)
  · exact hlt
  · exact absurd h (not_exact_of_eq s hn heq)
  · exact absurd h (not_exact_of_gt s hn hgt)

example : ((Counters.init.allowTimersRun 1).after 1).setTimer.1 = .refused 0xFFFFFFFF := rfl

/-- Three timers allowed after five. -/
theorem exact_iff_three : Exact ⟨5, 0, 0xFFFFFFFF⟩ 3 :=
  (exact_iff ⟨5, 0, 0xFFFFFFFF⟩ (by decide)).mpr (by decide)

/-- After one timer an allowance of `2^32 - 1` is no limit. -/
theorem allowance_unlimited :
    ¬ ∀ s, sequential.Reach System.Free s → ∀ n, n ≠ 0 → Exact s n := by
  intro hall
  have hs : sequential.Reach System.Free ⟨1, 0, 0xFFFFFFFF⟩ :=
    .step .init (a := .setTimer) trivial rfl
  exact not_exact_of_eq _ (by decide) (by decide) (hall _ hs 0xFFFFFFFF (by decide))

/-! ### The counters of the service -/

/-- The counters in a state of the service. -/
def State.counters (s : State) : Counters :=
  ⟨s.timer_id_, s.max_number_timers_, s.FAKED_TIMER_ID⟩

/-- What a step of the service does to its counters and ids: it is a call of `AllowTimersRun`, a
call of `SetTimer` with the id that it hands out, or neither. -/
lemma counters_moves {s s' : State} {l : Label} (h : Moves s l s') :
    (∃ timers, l = .allow timers ∧ s'.counters = s.counters.allowTimersRun timers ∧
      s'.ids = s.ids) ∨
    (∃ c, l = .set c ∧ s.phase c = .idle ∧ s'.phase c ≠ .idle ∧
      s'.counters = s.counters.setTimer.2 ∧
      s'.ids = s.ids ++ [(c, s.counters.setTimer.1.timer_id)]) ∨
    s'.counters = s.counters ∧ s'.ids = s.ids := by
  cases h with
  | @allow timers =>
      refine .inl ⟨timers, rfl, ?_, rfl⟩
      by_cases h0 : timers = 0
      · subst h0
        rfl
      · rw [allowTimersRun_of_ne_zero _ h0]
        simp [State.counters, h0]
  | @refuse c hc hr =>
      refine .inr (.inl ⟨c, rfl, hc, by simp, ?_, ?_⟩)
      · rw [setTimer_of_refuses (s := s.counters) hr]
        rfl
      · rw [setTimer_of_refuses (s := s.counters) hr]
        rfl
  | @set c hc hr =>
      refine .inr (.inl ⟨c, rfl, hc, by simp, ?_, ?_⟩)
      · rw [setTimer_of_not_refuses (s := s.counters) hr]
        rfl
      · rw [setTimer_of_not_refuses (s := s.counters) hr]
        rfl
  | arm _ | spawn _ | expire | skip _ _ | drain _ _ _ | enter _ _ _ | handle _ _ _ _ | leave _ _
  | reset _ => exact .inr (.inr ⟨rfl, rfl⟩)

/-- **The counters of the service** move by calls of `SetTimer` and `AllowTimersRun` only. -/
theorem counters_reach {s : State} (h : system.Reach System.Free s) :
    sequential.Reach System.Free s.counters := by
  induction h with
  | init => exact .init
  | step _ _ hs ih =>
      obtain ⟨timers, _, hc, _⟩ | ⟨_, _, _, _, hc, _⟩ | ⟨hc, _⟩ :=
        counters_moves (step_moves hs)
      · exact hc ▸ .step ih (a := .allowTimersRun timers) trivial rfl
      · exact hc ▸ .step ih (a := .setTimer) trivial rfl
      · rwa [hc]

end RewardsDriver.Timer
