import Mathlib.Tactic
import RewardsDriver.Base.Word
import RewardsDriver.Timer.Allowance

/-!
Timer ids under any interleaving: `SetTimer` and `AllowTimersRun`
(`driver/brave_rewards_service_impl.cc`) read by read and write by write.

`SetTimer` holds `timer_mx_` from its first line until it has handed out an id; `AllowTimersRun`
takes no lock, so it may change the limit between the two reads of it in `SetTimer` and may store
a sum that was computed long before. `timer_id_` and `max_number_timers_` are atomic, the static
`FAKED_TIMER_ID` is not: it is read and written in two steps.

* `system`: one step is one access to a shared variable, by any call.
* `Moves`, `step_moves`: what one step can do.
* `Inv`, `inv_step`: the invariant, the calls in the critical section are one at most, a fake id
  that has been read is still the counter, and the ids so far are from the two ends of the word.
* `ids_distinct`: **timer ids never collide** among fewer than `2^32` of them.
* `exists_sim`: every run of the service in larger steps (`Timer.system`) is a run of these.
-/

namespace RewardsDriver.Timer.Ids

open Function

/-- Where a call of `SetTimer` stands. -/
inductive Setting where
  | idle
  | entered
  /-- `max_number_timers_` was not `0`. -/
  | limited
  /-- `timer_id_` has been read for the comparison. -/
  | counted (timer_id_ : UInt32)
  | granted
  | exceeded
  /-- `FAKED_TIMER_ID` has been read. -/
  | faked (timer_id : UInt32)
  | handed
  | left
  deriving DecidableEq

/-- The call holds `timer_mx_`. -/
def Setting.Holds : Setting → Prop
  | idle | left => False
  | _ => True

/-- Where a call of `AllowTimersRun` stands. -/
inductive Allowing where
  | idle
  /-- `timer_id_` has been read and the sum not yet stored. -/
  | summed (sum : UInt32)
  | left
  deriving DecidableEq

structure State extends Counters where
  timer_mx_ : Option ℕ
  setting : ℕ → Setting
  allowing : ℕ → Allowing
  ids : List (ℕ × UInt32)

/-- A step of a call of `SetTimer`, or of one of `AllowTimersRun`. -/
inductive Label where
  | lock (c : ℕ)
  | test (c : ℕ)
  | count (c : ℕ)
  | compare (c : ℕ)
  | grant (c : ℕ)
  | fake (c : ℕ)
  | refuse (c : ℕ)
  | unlock (c : ℕ)
  | allow (d : ℕ) (timers : UInt32)
  | store (d : ℕ)

/-- One step. -/
def step (s : State) : Label → Option State
  | .lock c =>
      if s.setting c = .idle ∧ s.timer_mx_ = none then
        some { s with timer_mx_ := some c, setting := update s.setting c .entered }
      else none
  | .test c =>
      if s.setting c = .entered then
        some { s with setting := update s.setting c
                        (if s.max_number_timers_ ≠ 0 then .limited else .granted) }
      else none
  | .count c =>
      if s.setting c = .limited then
        some { s with setting := update s.setting c (.counted s.timer_id_) }
      else none
  | .compare c =>
      match s.setting c with
      | .counted timer_id_ =>
          some { s with setting := update s.setting c
                          (if s.max_number_timers_ ≤ timer_id_ then .exceeded else .granted) }
      | _ => none
  | .grant c =>
      if s.setting c = .granted then
        some { s with timer_id_ := s.timer_id_ + 1
                      ids := s.ids ++ [(c, s.timer_id_ + 1)]
                      setting := update s.setting c .handed }
      else none
  | .fake c =>
      if s.setting c = .exceeded then
        some { s with setting := update s.setting c (.faked s.FAKED_TIMER_ID) }
      else none
  | .refuse c =>
      match s.setting c with
      | .faked timer_id =>
          some { s with FAKED_TIMER_ID := timer_id - 1
                        ids := s.ids ++ [(c, timer_id)]
                        setting := update s.setting c .handed }
      | _ => none
  | .unlock c =>
      if s.setting c = .handed then
        some { s with timer_mx_ := none, setting := update s.setting c .left }
      else none
  | .allow d timers =>
      if s.allowing d = .idle then
        if 0 = timers then
          some { s with max_number_timers_ := timers, allowing := update s.allowing d .left }
        else
          some { s with allowing := update s.allowing d (.summed (s.timer_id_ + timers)) }
      else none
  | .store d =>
      match s.allowing d with
      | .summed sum =>
          some { s with max_number_timers_ := sum, allowing := update s.allowing d .left }
      | _ => none

def init : State where
  toCounters := Counters.init
  timer_mx_ := none
  setting := fun _ => .idle
  allowing := fun _ => .idle
  ids := []

/-- The calls of `SetTimer` and `AllowTimersRun`, from any number of threads. -/
def system : System State Label := ⟨init, step⟩

/-! ### What one step can do -/

/-- The enabled steps from `s`. -/
inductive Moves (s : State) : Label → State → Prop
  | lock {c} (hc : s.setting c = .idle) (hfree : s.timer_mx_ = none) :
      Moves s (.lock c) { s with timer_mx_ := some c, setting := update s.setting c .entered }
  | test {c} (hc : s.setting c = .entered) : Moves s (.test c) { s with
      setting := update s.setting c (if s.max_number_timers_ ≠ 0 then .limited else .granted) }
  | count {c} (hc : s.setting c = .limited) :
      Moves s (.count c) { s with setting := update s.setting c (.counted s.timer_id_) }
  | compare {c timer_id_} (hc : s.setting c = .counted timer_id_) : Moves s (.compare c) { s with
      setting := update s.setting c
        (if s.max_number_timers_ ≤ timer_id_ then .exceeded else .granted) }
  | grant {c} (hc : s.setting c = .granted) : Moves s (.grant c) { s with
      timer_id_ := s.timer_id_ + 1, ids := s.ids ++ [(c, s.timer_id_ + 1)]
      setting := update s.setting c .handed }
  | fake {c} (hc : s.setting c = .exceeded) :
      Moves s (.fake c) { s with setting := update s.setting c (.faked s.FAKED_TIMER_ID) }
  | refuse {c timer_id} (hc : s.setting c = .faked timer_id) : Moves s (.refuse c) { s with
      FAKED_TIMER_ID := timer_id - 1, ids := s.ids ++ [(c, timer_id)]
      setting := update s.setting c .handed }
  | unlock {c} (hc : s.setting c = .handed) :
      Moves s (.unlock c) { s with timer_mx_ := none, setting := update s.setting c .left }
  | clear {d timers} (hd : s.allowing d = .idle) (h0 : 0 = timers) :
      Moves s (.allow d timers) { s with
        max_number_timers_ := timers, allowing := update s.allowing d .left }
  | sum {d timers} (hd : s.allowing d = .idle) (h0 : ¬ 0 = timers) :
      Moves s (.allow d timers) { s with
        allowing := update s.allowing d (.summed (s.timer_id_ + timers)) }
  | store {d sum} (hd : s.allowing d = .summed sum) :
      Moves s (.store d) { s with
        max_number_timers_ := sum, allowing := update s.allowing d .left }

/-- The inversion of `step`. -/
theorem step_moves {s s' : State} {l : Label} (h : step s l = some s') : Moves s l s' := by
  cases l with
  | lock c =>
      simp only [step] at h
      split at h
      · rename_i hguard
        cases h; exact .lock hguard.1 hguard.2
      · cases h
  | test c =>
      simp only [step] at h
      split at h
      · cases h; exact .test ‹_›
      · cases h
  | count c =>
      simp only [step] at h
      split at h
      · cases h; exact .count ‹_›
      · cases h
  | compare c =>
      simp only [step] at h
      split at h
      · cases h; exact .compare ‹_›
      · cases h
  | grant c =>
      simp only [step] at h
      split at h
      · cases h; exact .grant ‹_›
      · cases h
  | fake c =>
      simp only [step] at h
      split at h
      · cases h; exact .fake ‹_›
      · cases h
  | refuse c =>
      simp only [step] at h
      split at h
      · cases h; exact .refuse ‹_›
      · cases h
  | unlock c =>
      simp only [step] at h
      split at h
      · cases h; exact .unlock ‹_›
      · cases h
  | allow d timers =>
      simp only [step] at h
      split at h
      · split at h
        · cases h; exact .clear ‹_› ‹_›
        · cases h; exact .sum ‹_› ‹_›
      · cases h
  | store d =>
      simp only [step] at h
      split at h
      · cases h; exact .store ‹_›
      · cases h

/-! ### The invariant -/

/-- The counters stand at their ends of the word, and the ids have been handed out from there. -/
def IdsFromEnds (s : State) : Prop :=
  ∃ r f, s.timer_id_ = lowEnd r ∧ s.FAKED_TIMER_ID = highEnd f ∧
    TwoEnds r f (s.ids.map Prod.snd)

/-- The invariant of every run: only the owner of the lock is in the critical section, a fake id
that has been read is still the counter, and the ids are from the two ends while there are fewer
than `2^32`. -/
structure Inv (s : State) : Prop where
  owner : ∀ c, (s.setting c).Holds → s.timer_mx_ = some c
  faked : ∀ c timer_id, s.setting c = .faked timer_id → timer_id = s.FAKED_TIMER_ID
  ids : s.ids.length < 2 ^ 32 → IdsFromEnds s

lemma inv_init : Inv init where
  owner := fun _ h => h.elim
  faked := by intro c timer_id h; cases h
  ids := fun _ => ⟨0, 0, rfl, rfl, .nil⟩

/-- Mutual exclusion: the calls in the critical section are one at most. -/
lemma Inv.eq_of_holds {s : State} (h : Inv s) {c d : ℕ} (hc : (s.setting c).Holds)
    (hd : (s.setting d).Holds) : c = d := by
  have hcd := (h.owner c hc).symm.trans (h.owner d hd)
  simpa using hcd

/-- After a step of `c` a call in the critical section is `c`, or was there before. -/
lemma holds_update {s : State} {c d : ℕ} {p : Setting}
    (h : (update s.setting c p d).Holds) : d = c ∧ p.Holds ∨ d ≠ c ∧ (s.setting d).Holds := by
  by_cases hdc : d = c
  · subst hdc
    rw [update_self] at h
    exact .inl ⟨rfl, h⟩
  · rw [update_of_ne hdc] at h
    exact .inr ⟨hdc, h⟩

/-- A step of the owner that stays in the critical section keeps the invariant: no other call has
read a fake id, so the owner may change the counter. -/
lemma Inv.advance {s s' : State} (h : Inv s) {c : ℕ} {p : Setting} (hc : (s.setting c).Holds)
    (hmx : s'.timer_mx_ = s.timer_mx_) (hsetting : s'.setting = update s.setting c p)
    (hp : ∀ timer_id, p = .faked timer_id → timer_id = s'.FAKED_TIMER_ID)
    (hids : s'.ids.length < 2 ^ 32 → IdsFromEnds s') : Inv s' where
  owner := fun d hd => by
    rw [hsetting] at hd
    rw [hmx]
    obtain ⟨rfl, _⟩ | ⟨_, hd⟩ := holds_update hd
    · exact h.owner d hc
    · exact h.owner d hd
  faked := fun d timer_id hd => by
    rw [hsetting] at hd
    have hholds : (update s.setting c p d).Holds := by
      rw [hd]
      trivial
    obtain ⟨rfl, _⟩ | ⟨hdc, hd'⟩ := holds_update hholds
    · rw [update_self] at hd
      exact hp timer_id hd
    · exact absurd (h.eq_of_holds hd' hc) hdc
  ids := hids

/-- One more id from the low end. -/
lemma IdsFromEnds.grant {s s' : State} {c : ℕ} (h : IdsFromEnds s)
    (hroom : s'.ids.length < 2 ^ 32) (hids : s'.ids = s.ids ++ [(c, s.timer_id_ + 1)])
    (hup : s'.timer_id_ = s.timer_id_ + 1) (hfake : s'.FAKED_TIMER_ID = s.FAKED_TIMER_ID) :
    IdsFromEnds s' := by
  obtain ⟨r, f, hr, hf, hends⟩ := h
  have hlen := hends.length
  rw [List.length_map] at hlen
  rw [hids, List.length_append, List.length_singleton] at hroom
  refine ⟨r + 1, f, by rw [hup, hr, lowEnd_add_one], by rw [hfake, hf], ?_⟩
  rw [hids, List.map_append, hr, lowEnd_add_one]
  exact hends.up (by omega)

/-- One more id from the high end. -/
lemma IdsFromEnds.refuse {s s' : State} {c : ℕ} (h : IdsFromEnds s)
    (hroom : s'.ids.length < 2 ^ 32) (hids : s'.ids = s.ids ++ [(c, s.FAKED_TIMER_ID)])
    (hup : s'.timer_id_ = s.timer_id_) (hfake : s'.FAKED_TIMER_ID = s.FAKED_TIMER_ID - 1) :
    IdsFromEnds s' := by
  obtain ⟨r, f, hr, hf, hends⟩ := h
  have hlen := hends.length
  rw [List.length_map] at hlen
  rw [hids, List.length_append, List.length_singleton] at hroom
  refine ⟨r, f + 1, by rw [hup, hr], by rw [hfake, hf, highEnd_sub_one (by omega)], ?_⟩
  rw [hids, List.map_append, hf]
  exact hends.down (by omega)

/-- **The step lemma.** -/
theorem inv_step {s s' : State} {l : Label} (h : Inv s) (hs : Moves s l s') : Inv s' := by
  cases hs with
  | @lock c hc hfree =>
      refine ⟨fun d hd => ?_, fun d timer_id hd => ?_, h.ids⟩
      · obtain ⟨rfl, _⟩ | ⟨_, hd⟩ := holds_update hd
        · rfl
        · have hown := h.owner d hd
          simp [hfree] at hown
      · exact h.faked d timer_id (of_update_eq hd (by simp)).2
  | @test c hc =>
      refine h.advance (by rw [hc]; trivial) rfl rfl (fun timer_id hp => ?_) h.ids
      split at hp <;> cases hp
  | @count c hc =>
      exact h.advance (by rw [hc]; trivial) rfl rfl (fun timer_id hp => by cases hp) h.ids
  | @compare c timer_id_ hc =>
      refine h.advance (by rw [hc]; trivial) rfl rfl (fun timer_id hp => ?_) h.ids
      split at hp <;> cases hp
  | @grant c hc =>
      exact h.advance (by rw [hc]; trivial) rfl rfl (fun timer_id hp => by cases hp) fun hroom =>
        (h.ids (by simp at hroom; omega)).grant hroom rfl rfl rfl
  | @fake c hc =>
      refine h.advance (by rw [hc]; trivial) rfl rfl (fun timer_id hp => ?_) h.ids
      cases hp
      rfl
  | @refuse c timer_id hc =>
      obtain rfl := h.faked c timer_id hc
      exact h.advance (by rw [hc]; trivial) rfl rfl (fun timer_id hp => by cases hp) fun hroom =>
        (h.ids (by simp at hroom; omega)).refuse hroom rfl rfl rfl
  | @unlock c hc =>
      have hholds : (s.setting c).Holds := by
        rw [hc]
        trivial
      refine ⟨fun d hd => ?_, fun d timer_id hd => ?_, h.ids⟩
      · obtain ⟨_, hleft⟩ | ⟨hdc, hd⟩ := holds_update hd
        · exact hleft.elim
        · exact absurd (h.eq_of_holds hd hholds) hdc
      · exact h.faked d timer_id (of_update_eq hd (by simp)).2
  | clear _ _ | sum _ _ | store _ => exact ⟨h.owner, h.faked, h.ids⟩

/-- The invariant holds in every state of every run. -/
theorem inv_reach {s : State} (h : system.Reach System.Free s) : Inv s := by
  refine h.invariant inv_init fun _ _ _ hinv _ hs => ?_
  exact inv_step hinv (step_moves hs)

/-! ### One id for a call -/

/-- The call has been handed its id. -/
def Setting.Served (p : Setting) : Prop := p = handed ∨ p = left

/-- No call is handed two ids. -/
structure ServedOnce (s : State) : Prop where
  calls : (s.ids.map Prod.fst).Nodup
  served : ∀ c ∈ s.ids.map Prod.fst, (s.setting c).Served

lemma servedOnce_init : ServedOnce init where
  calls := List.nodup_nil
  served := by simp [init]

/-- A step that hands out nothing and takes no id back. -/
lemma ServedOnce.of_same_ids {s s' : State} (h : ServedOnce s) (hids : s'.ids = s.ids)
    (hserved : ∀ c, (s.setting c).Served → (s'.setting c).Served) : ServedOnce s' where
  calls := by rw [hids]; exact h.calls
  served := fun c hc => by
    rw [hids] at hc
    exact hserved c (h.served c hc)

/-- A step of a call that has no id yet takes no id back from another. -/
lemma served_update {s : State} {c d : ℕ} {p : Setting} (hc : ¬ (s.setting c).Served)
    (hd : (s.setting d).Served) : (update s.setting c p d).Served := by
  have hdc : d ≠ c := fun hdc => hc (hdc ▸ hd)
  rwa [update_of_ne hdc]

/-- A step that hands an id to a call that has none. -/
lemma ServedOnce.hand {s s' : State} (h : ServedOnce s) {c : ℕ} {timer_id : UInt32}
    (hc : ¬ (s.setting c).Served) (hids : s'.ids = s.ids ++ [(c, timer_id)])
    (hsetting : s'.setting = update s.setting c .handed) : ServedOnce s' where
  calls := by
    rw [hids, List.map_append]
    refine List.nodup_append.mpr ⟨h.calls, by simp, fun d hd e he hde => ?_⟩
    obtain rfl : e = c := by simpa using he
    exact hc (hde ▸ h.served d hd)
  served := fun d hd => by
    rw [hids, List.map_append, List.mem_append] at hd
    rw [hsetting]
    obtain hd | hd := hd
    · exact served_update hc (h.served d hd)
    · obtain rfl : d = c := by simpa using hd
      rw [update_self]
      exact .inl rfl

lemma servedOnce_step {s s' : State} {l : Label} (h : ServedOnce s) (hs : Moves s l s') :
    ServedOnce s' := by
  cases hs with
  | lock hc _ | test hc | count hc | compare hc | fake hc =>
      exact h.of_same_ids rfl fun d hd => served_update (by simp [hc, Setting.Served]) hd
  | grant hc | refuse hc => exact h.hand (by simp [hc, Setting.Served]) rfl rfl
  | @unlock c hc =>
      refine h.of_same_ids rfl fun d hd => ?_
      by_cases hdc : d = c
      · subst hdc
        exact .inr (update_self ..)
      · dsimp only
        rwa [update_of_ne hdc]
  | clear _ _ | sum _ _ | store _ => exact ⟨h.calls, h.served⟩

lemma servedOnce_reach {s : State} (h : system.Reach System.Free s) : ServedOnce s := by
  refine h.invariant servedOnce_init fun _ _ _ hinv _ hs => ?_
  exact servedOnce_step hinv (step_moves hs)

/-- There are no more ids than calls. -/
lemma length_ids_le {s : State} (h : ServedOnce s) {calls : Finset ℕ}
    (hcalls : ∀ c, s.setting c ≠ .idle → c ∈ calls) : s.ids.length ≤ calls.card := by
  have hsub : (s.ids.map Prod.fst).toFinset ⊆ calls := fun c hc => by
    refine hcalls c fun hidle => ?_
    have hserved := h.served c (List.mem_toFinset.mp hc)
    rw [hidle] at hserved
    simp [Setting.Served] at hserved
  calc s.ids.length
      = (s.ids.map Prod.fst).toFinset.card := by
        rw [List.toFinset_card_of_nodup h.calls, List.length_map]
    _ ≤ calls.card := Finset.card_le_card hsub

/-- **Timer ids never collide**: in every run with fewer than `2^32` calls of `SetTimer`, the ids
handed out, real and fake together, are pairwise distinct and nonzero. -/
theorem ids_distinct {s : State} (h : system.Reach System.Free s) (calls : Finset ℕ)
    (hcalls : ∀ c, s.setting c ≠ .idle → c ∈ calls) (hcard : calls.card < 2 ^ 32) :
    (s.ids.map Prod.snd).Nodup ∧ 0 ∉ s.ids.map Prod.snd := by
  have hids : s.ids.length < 2 ^ 32 := (length_ids_le (servedOnce_reach h) hcalls).trans_lt hcard
  obtain ⟨r, f, _, _, hends⟩ := (inv_reach h).ids hids
  exact ⟨hends.nodup, hends.zero_notMem (by rwa [List.length_map])⟩

/-- The limit is computed before the first timer is granted and stored after it. -/
def limitBetween : List Label :=
  [.lock 0, .test 0, .allow 0 1, .grant 0, .unlock 0, .store 0, .lock 1, .test 1, .count 1,
    .compare 1, .fake 1, .refuse 1, .unlock 1]

/-- A real id and a fake one. -/
theorem ids_distinct_two : ∃ s, system.run system.init limitBetween = some s ∧
    s.ids = [(0, 1), (1, 0xFFFFFFFF)] ∧
      (s.ids.map Prod.snd).Nodup ∧ 0 ∉ s.ids.map Prod.snd := by
  obtain ⟨s, hs⟩ : ∃ s, system.run system.init limitBetween = some s := ⟨_, rfl⟩
  refine ⟨s, hs, ?_, ids_distinct (System.reach_of_run hs) {0, 1} (fun c hc => ?_) ?_⟩
  · cases hs
    rfl
  · cases hs
    by_contra hne
    have h01 : c ≠ 0 ∧ c ≠ 1 := by simpa using hne
    simp [update_of_ne h01.1, update_of_ne h01.2, system, init] at hc
  · decide

/-! ### The service in larger steps -/

/-- A state of the service and a state of the calls in which none is under way. -/
structure Sim (s : Timer.State) (t : State) : Prop where
  counters : t.toCounters = s.counters
  ids : t.ids = s.ids
  free : t.timer_mx_ = none
  idle : ∀ c, s.phase c = .idle → t.setting c = .idle
  fresh : ∃ k, ∀ d ≥ k, t.allowing d = .idle

lemma sim_init : Sim Timer.init init where
  counters := rfl
  ids := rfl
  free := rfl
  idle := fun _ _ => rfl
  fresh := ⟨0, fun _ _ => rfl⟩

/-- The state after a call of `SetTimer` that nothing has interrupted. -/
def State.called (t : State) (c : ℕ) : State where
  toCounters := t.toCounters.setTimer.2
  timer_mx_ := none
  setting := update t.setting c .left
  allowing := t.allowing
  ids := t.ids ++ [(c, t.toCounters.setTimer.1.timer_id)]

/-- A call of `SetTimer` that nothing interrupts. -/
lemma run_setTimer {t : State} {c : ℕ} (hfree : t.timer_mx_ = none)
    (hc : t.setting c = .idle) : ∃ ls, system.run t ls = some (t.called c) := by
  cases hr : t.toCounters.refuses with
  | true =>
      obtain ⟨hmax, hle⟩ : t.max_number_timers_ ≠ 0 ∧ t.max_number_timers_ ≤ t.timer_id_ := by
        simpa [Counters.refuses] using hr
      refine ⟨[.lock c, .test c, .count c, .compare c, .fake c, .refuse c, .unlock c], ?_⟩
      simp [System.run, system, step, hc, hfree, hmax, hle, State.called,
        Counters.setTimer_of_refuses hr, Handed.timer_id]
  | false =>
      by_cases hmax : t.max_number_timers_ = 0
      · refine ⟨[.lock c, .test c, .grant c, .unlock c], ?_⟩
        simp [System.run, system, step, hc, hfree, hmax, State.called,
          Counters.setTimer_of_not_refuses hr, Handed.timer_id]
      · have hle : ¬ t.max_number_timers_ ≤ t.timer_id_ := by
          simpa [Counters.refuses, hmax] using hr
        refine ⟨[.lock c, .test c, .count c, .compare c, .grant c, .unlock c], ?_⟩
        simp [System.run, system, step, hc, hfree, hmax, hle, State.called,
          Counters.setTimer_of_not_refuses hr, Handed.timer_id]

/-- The state after a call of `AllowTimersRun` that nothing has interrupted. -/
def State.allowed (t : State) (d : ℕ) (timers : UInt32) : State :=
  { t with toCounters := t.toCounters.allowTimersRun timers
           allowing := update t.allowing d .left }

/-- A call of `AllowTimersRun` that nothing interrupts. -/
lemma run_allowTimersRun {t : State} {d : ℕ} (hd : t.allowing d = .idle) (timers : UInt32) :
    ∃ ls, system.run t ls = some (t.allowed d timers) := by
  by_cases h0 : 0 = timers
  · refine ⟨[.allow d timers], ?_⟩
    simp [System.run, system, step, hd, h0, State.allowed, Counters.allowTimersRun]
  · refine ⟨[.allow d timers, .store d], ?_⟩
    simp [System.run, system, step, hd, h0, State.allowed, Counters.allowTimersRun]

/-- No step of the service makes a call idle again. -/
lemma idle_of_moves {s s' : Timer.State} {l : Timer.Label} (hs : Timer.Moves s l s') {c : ℕ}
    (hc : s'.phase c = .idle) : s.phase c = .idle := by
  have hupdate : ∀ {p : Phase} {d : ℕ}, p ≠ .idle → update s.phase d p c = .idle →
      s.phase c = .idle := fun hp hu => (of_update_eq hu hp).2
  cases hs with
  | allow | expire | handle _ _ _ _ => exact hc
  | refuse _ _ | set _ _ | arm _ | spawn _ | skip _ _ | drain _ _ _ | enter _ _ _ | leave _ _
  | reset _ => exact hupdate (by simp) hc

/-- **The refinement**: a state that the service reaches in larger steps is reached by its calls
one access at a time, with the same counters and ids. -/
theorem exists_sim {s : Timer.State} (h : Timer.system.Reach System.Free s) :
    ∃ t, system.Reach System.Free t ∧ Sim s t := by
  induction h with
  | init => exact ⟨init, .init, sim_init⟩
  | @step s s' l _ _ hs ih =>
      obtain ⟨t, ht, hsim⟩ := ih
      have hmoves := Timer.step_moves hs
      obtain ⟨timers, _, hcounters, hids⟩ |
        ⟨c, _, hc, hset, hcounters, hids⟩ | ⟨hcounters, hids⟩ :=
        counters_moves hmoves
      · obtain ⟨k, hk⟩ := hsim.fresh
        obtain ⟨ls, hrun⟩ := run_allowTimersRun (hk k le_rfl) timers
        refine ⟨_, ht.run (fun _ _ _ => trivial) hrun, ⟨?_, ?_, hsim.free, ?_, k + 1, ?_⟩⟩
        · rw [hcounters, ← hsim.counters]
          rfl
        · rw [hids, ← hsim.ids]
          rfl
        · exact fun c hc => hsim.idle c (idle_of_moves hmoves hc)
        · intro d hd
          show update t.allowing k .left d = .idle
          rw [update_of_ne (by omega)]
          exact hk d (by omega)
      · obtain ⟨ls, hrun⟩ := run_setTimer hsim.free (hsim.idle c hc)
        refine ⟨_, ht.run (fun _ _ _ => trivial) hrun, ⟨?_, ?_, rfl, fun d hd => ?_, hsim.fresh⟩⟩
        · rw [hcounters, ← hsim.counters]
          rfl
        · rw [hids, ← hsim.ids, ← hsim.counters]
          rfl
        · have hdc : d ≠ c := fun hdc => hset (hdc ▸ hd)
          show update t.setting c .left d = .idle
          rw [update_of_ne hdc]
          exact hsim.idle d (idle_of_moves hmoves hd)
      · exact ⟨t, ht, ⟨by rw [hcounters, hsim.counters], by rw [hids, hsim.ids], hsim.free,
          fun c hc => hsim.idle c (idle_of_moves hmoves hc), hsim.fresh⟩⟩

end RewardsDriver.Timer.Ids
