import Mathlib.Tactic
import RewardsDriver.Timer.Ids

/-!
The timer allowance under any interleaving: how many timers does `AllowTimersRun(n)` let be set
once it has stored its limit?

The limit is the sum of `n` and a timer id read before, and a call of `SetTimer` that has passed
the test under an older limit sets its timer all the same. The two do not add up: until another
limit is stored, at most `n` timers are set.

* `timer_id_run`: the timer id counts the timers, over every part of a run.
* `Counted`: a timer id that has been read for the comparison is still the counter.
* `Limited`, `limited_step`: the invariant of the runs from a stored limit on, a call that goes on
  to set its timer has found the id below the limit, or is the one from before.
* `grants_le`: **at most `n` timers**.
-/

namespace RewardsDriver.Timer.Ids

open Function

/-- The step sets a timer. -/
def Label.sets : Label → Bool
  | .grant _ => true
  | _ => false

/-- The step stores a limit. -/
def Label.Limits : Label → Prop
  | .allow _ timers => timers = 0
  | .store _ => True
  | _ => False

/-! ### The timer id -/

lemma timer_id_step {s s' : State} {l : Label} (hs : Moves s l s') :
    s'.timer_id_ = if l.sets then s.timer_id_ + 1 else s.timer_id_ := by
  cases hs <;> rfl

/-- The timer id counts the timers. -/
lemma timer_id_run {s s' : State} {ls : List Label} (h : system.run s ls = some s')
    (hroom : s.timer_id_.toNat + ls.countP Label.sets < 2 ^ 32) :
    s'.timer_id_.toNat = s.timer_id_.toNat + ls.countP Label.sets := by
  induction ls generalizing s with
  | nil =>
      obtain rfl : s = s' := Option.some.inj h
      rfl
  | cons l ls ih =>
      obtain ⟨t, hstep, hrest⟩ := Option.bind_eq_some_iff.mp h
      have ht := timer_id_step (step_moves hstep)
      rw [List.countP_cons] at hroom ⊢
      cases hl : l.sets with
      | false =>
          simp only [hl, Bool.false_eq_true, if_false] at ht hroom ⊢
          rw [← ht] at hroom ⊢
          exact ih hrest hroom
      | true =>
          simp only [hl, if_true] at ht hroom ⊢
          have hup : t.timer_id_.toNat = s.timer_id_.toNat + 1 := by
            rw [ht, UInt32.toNat_add]
            exact Nat.mod_eq_of_lt (by simp only [UInt32.toNat_one]; omega)
          rw [ih hrest (by omega), hup]
          omega

/-- The call of `AllowTimersRun` has read the timer id, and if it has not stored its sum, the sum is
this one. -/
def Sums (d : ℕ) (sum : UInt32) (s : State) : Prop :=
  s.allowing d ≠ .idle ∧ ∀ v, s.allowing d = .summed v → v = sum

lemma Sums.other {s s' : State} {d e : ℕ} {sum : UInt32} {p : Allowing} (h : Sums d sum s)
    (hde : d ≠ e) (hs : s'.allowing = update s.allowing e p) : Sums d sum s' := by
  unfold Sums
  rw [hs, update_of_ne hde]
  exact h

lemma sums_step {s s' : State} {l : Label} {d : ℕ} {sum : UInt32} (h : Sums d sum s)
    (hs : Moves s l s') : Sums d sum s' := by
  cases hs with
  | @clear e timers he h0 => exact h.other (fun hde => h.1 (hde ▸ he)) rfl
  | @sum e timers he h0 => exact h.other (fun hde => h.1 (hde ▸ he)) rfl
  | @store e v he =>
      by_cases hde : d = e
      · subst hde
        exact ⟨by simp, fun w hw => by simp at hw⟩
      · exact h.other hde rfl
  | lock | test | count | compare | grant | fake | refuse | unlock => exact h

/-! ### The calls of `SetTimer` under a limit -/

/-- A timer id that has been read for the comparison is still the counter. -/
def Counted (s : State) : Prop := ∀ c timer_id_, s.setting c = .counted timer_id_ →
  timer_id_ = s.timer_id_

/-- Only the owner of the lock changes the counter. -/
lemma counted_step {s s' : State} {l : Label} (h : Counted s) (hinv : Inv s) (hs : Moves s l s') :
    Counted s' := by
  cases hs with
  | lock _ _ | fake _ | refuse _ | unlock _ =>
      exact fun e k he => h e k (of_update_eq he (by simp)).2
  | test _ | compare _ =>
      exact fun e k he => h e k (of_update_eq he (by split <;> simp)).2
  | @count c hc =>
      intro e k he
      dsimp only at he ⊢
      by_cases hec : e = c
      · subst hec
        rw [update_self] at he
        exact (Setting.counted.inj he).symm
      · rw [update_of_ne hec] at he
        exact h e k he
  | @grant c hc =>
      intro e k he
      obtain ⟨hec, he⟩ := of_update_eq he (by simp)
      exact absurd (hinv.eq_of_holds (by rw [he]; trivial) (by rw [hc]; trivial)) hec
  | clear _ _ | sum _ _ | store _ => exact h

/-- The invariant under the limit `limit`, stored when the timer id was `start`. -/
structure Limited (limit start : ℕ) (s : State) : Prop where
  inv : Inv s
  counted : Counted s
  max : s.max_number_timers_.toNat = limit
  /-- A call that goes on to set its timer has found room, or comes from before the limit. -/
  granted : ∀ c, s.setting c = .granted → s.timer_id_.toNat < limit ∨ s.timer_id_.toNat = start
  le : s.timer_id_.toNat ≤ Max.max limit (start + 1)

/-- **The step lemma** of the runs in which no other limit is stored. -/
theorem limited_step {limit start : ℕ} (hlimit : limit ≠ 0) (hstart : start + 1 < 2 ^ 32)
    {s s' : State} {l : Label} (h : Limited limit start s) (hl : ¬ l.Limits) (hs : Moves s l s') :
    Limited limit start s' := by
  have hinv := inv_step h.inv hs
  have hcounted := counted_step h.counted h.inv hs
  have hmax : s.max_number_timers_ ≠ 0 := by
    intro h0
    have hzero := h.max
    rw [h0] at hzero
    exact hlimit hzero.symm
  cases hs with
  | lock _ _ | count _ | fake _ | refuse _ | unlock _ =>
      exact ⟨hinv, hcounted, h.max, fun e he => h.granted e (of_update_eq he (by simp)).2, h.le⟩
  | @test c hc =>
      refine ⟨hinv, hcounted, h.max, fun e he => h.granted e (of_update_eq he ?_).2, h.le⟩
      simp [hmax]
  | @compare c k hc =>
      refine ⟨hinv, hcounted, h.max, fun e he => ?_, h.le⟩
      dsimp only at he ⊢
      by_cases hec : e = c
      · subst hec
        obtain rfl := h.counted e k hc
        rw [update_self] at he
        split at he
        · cases he
        · rename_i hlt
          rw [UInt32.le_iff_toNat_le, h.max] at hlt
          exact .inl (by omega)
      · rw [update_of_ne hec] at he
        exact h.granted e he
  | @grant c hc =>
      have hlt := s.max_number_timers_.toNat_lt
      rw [h.max] at hlt
      have hroom := h.granted c hc
      have hup : (s.timer_id_ + 1).toNat = s.timer_id_.toNat + 1 :=
        toNat_add_of_lt (by simp only [UInt32.toNat_one]; omega)
      refine ⟨hinv, hcounted, h.max, fun e he => ?_, ?_⟩
      · obtain ⟨hec, he⟩ := of_update_eq he (by simp)
        exact absurd (h.inv.eq_of_holds (by rw [he]; trivial) (by rw [hc]; trivial)) hec
      · dsimp only
        rw [hup]
        omega
  | clear _ h0 => exact absurd h0.symm hl
  | sum _ _ => exact ⟨hinv, hcounted, h.max, h.granted, h.le⟩
  | store _ => exact absurd trivial hl

lemma counted_reach {s : State} (h : system.Reach System.Free s) : Counted s := by
  induction h with
  | init => exact fun _ _ hc => by cases hc
  | step h _ hs ih => exact counted_step ih (inv_reach h) (step_moves hs)

/-- **At most `n` timers**: in every run of the calls in which `AllowTimersRun(n)` has read the
timer id and later stores its limit, at most `n` timers are set after that, whatever is under way
then and has been done in between, as long as no other call stores a limit. -/
theorem grants_le {before between after : List Label} {d : ℕ} {n : UInt32} {s : State}
    (h : system.run system.init (before ++ .allow d n :: (between ++ .store d :: after)) = some s)
    (hn : n ≠ 0) (hroom : (before ++ between ++ after).countP Label.sets + n.toNat < 2 ^ 32)
    (hafter : ∀ l ∈ after, ¬ l.Limits) : after.countP Label.sets ≤ n.toNat := by
  have hn0 : n.toNat ≠ 0 := fun h0 => hn (UInt32.toNat_inj.mp h0)
  rw [List.countP_append, List.countP_append] at hroom
  obtain ⟨s₁, hbefore, h⟩ := Option.bind_eq_some_iff.mp ((System.run_append ..).symm.trans h)
  obtain ⟨s₂, hallow, h⟩ := Option.bind_eq_some_iff.mp h
  obtain ⟨s₃, hbetween, h⟩ := Option.bind_eq_some_iff.mp ((System.run_append ..).symm.trans h)
  obtain ⟨s₄, hstore, h⟩ := Option.bind_eq_some_iff.mp h
  have hreach : system.Reach System.Free s₄ :=
    .step (.run (.step (System.reach_of_run hbefore) trivial hallow) (fun _ _ _ => trivial)
      hbetween) trivial hstore
  have hallowed : Moves s₁ (.allow d n) s₂ := step_moves hallow
  have hstored : Moves s₃ (.store d) s₄ := step_moves hstore
  -- the timer id at the read, at the store and at the end
  have hid₁ : s₁.timer_id_.toNat = before.countP Label.sets := by
    have hid := timer_id_run hbefore (by rw [show system.init.timer_id_.toNat = 0 from rfl]; omega)
    rwa [show system.init.timer_id_.toNat = 0 from rfl, Nat.zero_add] at hid
  have hsum : (s₁.timer_id_ + n).toNat = s₁.timer_id_.toNat + n.toNat :=
    toNat_add_of_lt (by omega)
  have hid₂ : s₂.timer_id_.toNat = s₁.timer_id_.toNat :=
    congrArg UInt32.toNat (timer_id_step hallowed)
  have hid₃ : s₃.timer_id_.toNat = s₂.timer_id_.toNat + between.countP Label.sets :=
    timer_id_run hbetween (by omega)
  have hid₄ : s₄.timer_id_.toNat = s₃.timer_id_.toNat :=
    congrArg UInt32.toNat (timer_id_step hstored)
  have hid : s.timer_id_.toNat = s₄.timer_id_.toNat + after.countP Label.sets :=
    timer_id_run h (by omega)
  -- what is stored is the sum that was read
  have hsums : Sums d (s₁.timer_id_ + n) s₂ := by
    cases hallowed with
    | clear _ h0 => exact absurd h0.symm hn
    | sum _ _ => exact ⟨by simp, fun v hv => by simpa using hv.symm⟩
  have hmax : s₄.max_number_timers_ = s₁.timer_id_ + n := by
    have hsums₃ : Sums d (s₁.timer_id_ + n) s₃ :=
      System.run_invariant hsums (fun _ _ _ _ ht hs => sums_step ht (step_moves hs)) hbetween
    cases hstored with
    | store hd => exact hsums₃.2 _ hd
  have hstart : Limited (s₁.timer_id_ + n).toNat s₄.timer_id_.toNat s₄ :=
    ⟨inv_reach hreach, counted_reach hreach, by rw [hmax], fun _ _ => .inr rfl, by omega⟩
  have hend : Limited (s₁.timer_id_ + n).toNat s₄.timer_id_.toNat s := by
    refine System.run_invariant hstart (fun t l hl t' ht hs => ?_) h
    exact limited_step (by omega) (by omega) ht (hafter l hl) (step_moves hs)
  have hle := hend.le
  omega

/-- Call 0 has found no limit when the limit is stored, and sets its timer; call 1 is refused. -/
def stored : List Label :=
  [.grant 0, .unlock 0, .lock 1, .test 1, .count 1, .compare 1, .fake 1, .refuse 1, .unlock 1]

/-- One timer is set under the limit of one. -/
theorem grants_le_one : ∃ s, system.run system.init
    ([] ++ .allow 0 1 :: ([.lock 0, .test 0] ++ .store 0 :: stored)) = some s ∧
      s.ids = [(0, 1), (1, 0xFFFFFFFF)] ∧ stored.countP Label.sets ≤ (1 : UInt32).toNat := by
  obtain ⟨s, hs⟩ : ∃ s, system.run system.init
      ([] ++ .allow 0 1 :: ([.lock 0, .test 0] ++ .store 0 :: stored)) = some s := ⟨_, rfl⟩
  refine ⟨s, hs, ?_, grants_le hs (by decide) (by decide) (by simp [stored, Label.Limits])⟩
  cases hs
  rfl

end RewardsDriver.Timer.Ids
