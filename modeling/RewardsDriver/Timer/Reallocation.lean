import RewardsDriver.Timer.Allowance

/-!
The reference that `SetTimer` keeps into `timers_` (`driver/brave_rewards_service_impl.cc`).

`SetTimer` places its timer with `emplace_back`, binds `timers_.back()` to a reference, releases
`timer_mx_` and then calls `async_wait` on the reference. A call of another thread may place its
timer in between, and a vector that is full moves its elements to a larger buffer.

* `system`: the timers of the service with the buffers of `timers_`, once `AllowTimersRun(n)` has
  been called; how the vector grows is a parameter.
* `Fits`, `fits_step`: the invariant under a limit within the first buffer.
* `Placed`, `exists_placed`: calls that all stand between `emplace_back` and `async_wait`.
* `no_dangling_iff`: **no call uses a reference into a buffer that is gone** exactly if the limit
  is not above the capacity of the first buffer.
-/

namespace RewardsDriver.Timer.Reallocation

open Function

/-- The vector `timers_`. `buffer` counts the buffers that it has had. -/
structure Timers where
  size : ℕ
  capacity : ℕ
  buffer : ℕ

/-- `emplace_back`. A vector that is full grows. -/
def Timers.emplace_back (grow : ℕ → ℕ) (v : Timers) : Timers :=
  if v.size = v.capacity then
    { size := v.size + 1, capacity := grow v.capacity, buffer := v.buffer + 1 }
  else { v with size := v.size + 1 }

/-- Up to the capacity of the first buffer only the first timer finds the vector full. -/
lemma Timers.emplace_back_first {grow : ℕ → ℕ} {v : Timers}
    (hcapacity : v.capacity = if v.size = 0 then 0 else grow 0) (hroom : v.size < grow 0) :
    v.emplace_back grow = { size := v.size + 1, capacity := grow 0,
                            buffer := if v.size = 0 then v.buffer + 1 else v.buffer } := by
  unfold emplace_back
  by_cases h0 : v.size = 0
  · rw [if_pos h0] at hcapacity
    rw [if_pos (h0.trans hcapacity.symm), hcapacity, if_pos h0]
  · rw [if_neg h0] at hcapacity
    rw [if_neg (by omega), hcapacity, if_neg h0]

/-- The service with its vector. -/
structure State where
  service : Timer.State
  timers_ : Timers
  /-- The buffer that the reference `t` of a call is into. -/
  t : Call → ℕ
  /-- The calls that have used `t` when its buffer was gone. -/
  dangling : List Call

/-- One step. -/
def step (grow : ℕ → ℕ) (s : State) (l : Label) : Option State :=
  (Timer.step s.service l).map fun service =>
    match l with
    | .set c =>
        if s.service.refuses then { s with service := service }
        else
          { s with service := service
                   timers_ := s.timers_.emplace_back grow
                   t := update s.t c (s.timers_.emplace_back grow).buffer }
    | .arm c =>
        { s with service := service
                 dangling := if s.t c = s.timers_.buffer then s.dangling else s.dangling ++ [c] }
    | _ => { s with service := service }

/-- The service after `AllowTimersRun(n)`. -/
def init (n : UInt32) : State where
  service := { Timer.init with max_number_timers_ := n }
  timers_ := ⟨0, 0, 0⟩
  t := fun _ => 0
  dangling := []

def system (grow : ℕ → ℕ) (n : UInt32) : System State Label := ⟨init n, step grow⟩

/-- The guard that the limit stays as it is. -/
def NoAllow (_ : State) : Label → Prop
  | .allow _ => False
  | _ => True

/-- The state is the one that `AllowTimersRun(n)` leaves. -/
lemma init_service (n : UInt32) : Timer.step Timer.init (.allow n) = some (init n).service := by
  simp [Timer.step, init, Timer.init]

/-! ### Within the first buffer -/

/-- The invariant under a limit `n` within the first buffer. -/
structure Fits (grow : ℕ → ℕ) (n : UInt32) (s : State) : Prop where
  max : s.service.max_number_timers_ = n
  size : s.timers_.size = s.service.timer_id_.toNat
  capacity : s.timers_.capacity = if s.timers_.size = 0 then 0 else grow 0
  /-- A call that is to call `async_wait` refers into the buffer of the vector. -/
  t : ∀ c, s.service.phase c = .setting → s.timers_.size ≠ 0 ∧ s.t c = s.timers_.buffer
  dangling : s.dangling = []

lemma fits_init (grow : ℕ → ℕ) (n : UInt32) : Fits grow n (init n) where
  max := rfl
  size := rfl
  capacity := rfl
  t := fun c hc => by cases hc
  dangling := rfl

/-- A step that changes neither the vector nor the counters. -/
lemma Fits.of_same {grow : ℕ → ℕ} {n : UInt32} {s : State} (h : Fits grow n s)
    {service : Timer.State} (hmax : service.max_number_timers_ = s.service.max_number_timers_)
    (hid : service.timer_id_ = s.service.timer_id_)
    (hphase : ∀ c, service.phase c = .setting → s.service.phase c = .setting) :
    Fits grow n { s with service := service } :=
  ⟨hmax.trans h.max, by rw [hid]; exact h.size, h.capacity, fun c hc => h.t c (hphase c hc),
    h.dangling⟩

/-- **The step lemma** under a limit within the first buffer. -/
theorem fits_step {grow : ℕ → ℕ} {n : UInt32} (hn : n ≠ 0) (hfits : n.toNat ≤ grow 0)
    {s s' : State} {l : Label} (h : Fits grow n s) (hok : NoAllow s l)
    (hs : step grow s l = some s') : Fits grow n s' := by
  obtain ⟨service, hservice, rfl⟩ := Option.map_eq_some_iff.mp hs
  have hupdate : ∀ {c p}, p ≠ Phase.setting → ∀ d, update s.service.phase c p d = .setting →
      s.service.phase d = .setting := fun hp d hd => (of_update_eq hd hp).2
  cases Timer.step_moves hservice with
  | allow => exact hok.elim
  | @refuse c hc hr =>
      simp only [hr, if_true]
      exact h.of_same rfl rfl (hupdate (by simp))
  | @set c hc hr =>
      simp only [hr, Bool.false_eq_true, if_false]
      have hlt : s.service.timer_id_.toNat < n.toNat := by
        rcases (Counters.refuses_eq_false_iff s.service.counters).mp hr with h0 | hlt
        · exact absurd (h.max.symm.trans h0) hn
        · rw [← h.max]
          exact hlt
      have hup : (s.service.timer_id_ + 1).toNat = s.service.timer_id_.toNat + 1 := by
        have hbound := n.toNat_lt
        exact toNat_add_of_lt (by simp only [UInt32.toNat_one]; omega)
      rw [Timers.emplace_back_first h.capacity (by rw [h.size]; omega)]
      refine ⟨h.max, by rw [hup, h.size], by simp, fun d hd => ⟨by simp, ?_⟩, h.dangling⟩
      dsimp only
      by_cases hdc : d = c
      · rw [hdc, update_self]
      · obtain ⟨hne, ht⟩ := h.t d ((update_of_ne hdc ..).symm.trans hd)
        rw [update_of_ne hdc, ht, if_neg hne]
  | @arm c hc =>
      have ht := (h.t c hc).2
      have hsame : Fits grow n { s with service := { s.service with
          phase := update s.service.phase c .armed, pending := insert c s.service.pending } } :=
        h.of_same rfl rfl (hupdate (by simp))
      simp only [ht, if_true]
      exact hsame
  | spawn | skip | drain | enter | leave | reset =>
      exact h.of_same rfl rfl (hupdate (by simp))
  | expire | handle => exact h.of_same rfl rfl fun d hd => hd

lemma fits_reach {grow : ℕ → ℕ} {n : UInt32} (hn : n ≠ 0) (hfits : n.toNat ≤ grow 0) {s : State}
    (h : (system grow n).Reach NoAllow s) : Fits grow n s :=
  h.invariant (fits_init grow n) fun _ _ _ hinv hok hs => fits_step hn hfits hinv hok hs

/-! ### Beyond the first buffer -/

/-- The first `k` calls have placed their timers, and none has called `async_wait`. -/
structure Placed (grow : ℕ → ℕ) (n : UInt32) (k : ℕ) (s : State) : Prop where
  reach : (system grow n).Reach NoAllow s
  idle : ∀ c, k ≤ c → s.service.phase c = .idle
  first : 0 < k → s.service.phase 0 = .setting ∧ s.t 0 = 1
  max : s.service.max_number_timers_ = n
  timer_id_ : n ≠ 0 → s.service.timer_id_.toNat = k
  size : s.timers_.size = k
  capacity : s.timers_.capacity = if k = 0 then 0 else grow 0
  buffer : s.timers_.buffer = if k = 0 then 0 else 1

/-- The state after call `c` has placed its timer. -/
def State.place (grow : ℕ → ℕ) (s : State) (c : Call) : State where
  service := { s.service with
    phase := update s.service.phase c .setting
    timer_id_ := s.service.timer_id_ + 1
    ids := s.service.ids ++ [(c, s.service.timer_id_ + 1)] }
  timers_ := s.timers_.emplace_back grow
  t := update s.t c (s.timers_.emplace_back grow).buffer
  dangling := s.dangling

/-- The next call is not refused, and places its timer. -/
lemma Placed.set {grow : ℕ → ℕ} {n : UInt32} {k : ℕ} {s : State} (h : Placed grow n k s)
    (hk : n ≠ 0 → k < n.toNat) : (system grow n).Reach NoAllow (s.place grow k) := by
  have hr : s.service.refuses = false := by
    refine (Counters.refuses_eq_false_iff s.service.counters).mpr ?_
    by_cases hn : n = 0
    · exact .inl (h.max.trans hn)
    · refine .inr ?_
      show s.service.timer_id_.toNat < s.service.max_number_timers_.toNat
      rw [h.timer_id_ hn, h.max]
      exact hk hn
  have hstep : step grow s (.set k) = some (s.place grow k) := by
    simp only [step, Timer.step, h.idle k le_rfl, hr, if_true, Bool.false_eq_true, if_false,
      Option.map_some, State.place]
  exact .step h.reach (a := Label.set k) trivial hstep

/-- As many calls may stand there as the first buffer holds. -/
lemma exists_placed {grow : ℕ → ℕ} {n : UInt32} (hn : n ≠ 0 → grow 0 < n.toNat) {k : ℕ}
    (hk : k ≤ grow 0) : ∃ s, Placed grow n k s := by
  induction k with
  | zero =>
      exact ⟨init n, .init, fun _ _ => rfl, fun h => absurd h (lt_irrefl 0), rfl, fun _ => rfl, rfl,
        rfl, rfl⟩
  | succ k ih =>
      obtain ⟨s, h⟩ := ih (by omega)
      have hbound := n.toNat_lt
      have hroom : n ≠ 0 → k < n.toNat := fun h0 => by
        have := hn h0
        omega
      have hvector : (s.place grow k).timers_ = ⟨k + 1, grow 0, 1⟩ := by
        have hfirst : s.timers_.emplace_back grow = _ :=
          Timers.emplace_back_first (by rw [h.capacity, h.size]) (by rw [h.size]; omega)
        rw [h.size, h.buffer] at hfirst
        refine hfirst.trans ?_
        split <;> rfl
      have ht : (s.place grow k).t = update s.t k 1 :=
        congrArg (update s.t k) (congrArg Timers.buffer hvector)
      have hphase : (s.place grow k).service.phase = update s.service.phase k .setting := rfl
      refine ⟨s.place grow k, h.set hroom, fun c hc => ?_, fun _ => ?_, h.max, fun h0 => ?_, ?_, ?_,
        ?_⟩
      · exact update_eq_of_ne _ (by rintro rfl; omega) (h.idle c (by omega))
      · rw [ht, hphase]
        by_cases hk0 : 0 = k
        · rw [hk0, update_self, update_self]
          exact ⟨rfl, rfl⟩
        · rw [update_of_ne hk0, update_of_ne hk0]
          exact h.first (by omega)
      · have hid := h.timer_id_ h0
        have hlt := hn h0
        exact (toNat_add_of_lt (by simp only [UInt32.toNat_one]; omega)).trans (by rw [hid]; rfl)
      · rw [hvector]
      · rw [hvector, if_neg (Nat.succ_ne_zero k)]
      · rw [hvector, if_neg (Nat.succ_ne_zero k)]

/-- One more call moves the timers, and call 0 then uses its reference. -/
lemma exists_dangling {grow : ℕ → ℕ} (hgrow : 0 < grow 0) {n : UInt32}
    (hn : n ≠ 0 → grow 0 < n.toNat) :
    ∃ s, (system grow n).Reach NoAllow s ∧ s.dangling ≠ [] := by
  obtain ⟨s, h⟩ := exists_placed hn le_rfl
  obtain ⟨hphase, ht⟩ := h.first hgrow
  have hne : (0 : ℕ) ≠ grow 0 := by omega
  have hphase' : (s.place grow (grow 0)).service.phase 0 = .setting :=
    update_eq_of_ne _ hne hphase
  have ht' : (s.place grow (grow 0)).t 0 = 1 := update_eq_of_ne _ hne ht
  have hbuffer : (s.place grow (grow 0)).timers_.buffer = 2 := by
    have hcapacity := h.capacity
    have hone := h.buffer
    rw [if_neg (by omega)] at hcapacity hone
    show (s.timers_.emplace_back grow).buffer = 2
    rw [Timers.emplace_back, if_pos (by rw [h.size, hcapacity]), hone]
  have harm : step grow (s.place grow (grow 0)) (.arm 0) ≠ none := by
    simp [step, Timer.step, hphase']
  obtain ⟨s', hs'⟩ := Option.ne_none_iff_exists'.mp harm
  refine ⟨s', .step (h.set hn) (a := Label.arm 0) trivial hs', ?_⟩
  obtain ⟨service, -, rfl⟩ := Option.map_eq_some_iff.mp hs'
  simp only [ht', hbuffer]
  simp

/-- **The references of `SetTimer`**: after `AllowTimersRun(n)` no interleaving of the calls of
`SetTimer` and of the wait tasks has `async_wait` called on a timer that has been moved away,
exactly if there is a limit and it is not above the capacity of the first buffer. -/
theorem no_dangling_iff {grow : ℕ → ℕ} (hgrow : 0 < grow 0) (n : UInt32) :
    (∀ s, (system grow n).Reach NoAllow s → s.dangling = []) ↔ n ≠ 0 ∧ n.toNat ≤ grow 0 := by
  constructor
  · intro h
    by_contra hn
    have hbeyond : n ≠ 0 → grow 0 < n.toNat := fun h0 => by
      by_contra hle
      exact hn ⟨h0, by omega⟩
    obtain ⟨s, hs, hd⟩ := exists_dangling hgrow hbeyond
    exact hd (h s hs)
  · rintro ⟨hn, hfits⟩ s hs
    exact (fits_reach hn hfits hs).dangling

/-- A vector that grows by half. -/
def byHalf (capacity : ℕ) : ℕ := Nat.max (capacity + 1) (capacity + capacity / 2)

/-- One timer may be allowed, as `main` does, and not two. -/
theorem no_dangling_one : (∀ s, (system byHalf 1).Reach NoAllow s → s.dangling = []) ∧
    ¬ ∀ s, (system byHalf 2).Reach NoAllow s → s.dangling = [] :=
  ⟨(no_dangling_iff (by decide) 1).mpr ⟨by decide, by decide⟩, fun h =>
    absurd ((no_dangling_iff (by decide) 2).mp h).2 (by decide)⟩

end RewardsDriver.Timer.Reallocation
