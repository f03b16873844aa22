import Mathlib.Tactic
import RewardsDriver.Fetch.Registry

/-!
Request ids: does the handler hear the id its loader reports?

`LoadURL` reads `next_id` into the callback before it takes the lock and increments `next_id`
under the lock, so two calls may bind the same value while their loaders take different ones.

* `ids_disagree`: two calls whose reads both come before the first registration; the second
  handler is called with the first call's id.
* `Alone`: the guard under which the ids agree, no call registers while another one is between
  its read and its registration, and fewer than `2^64` requests have been registered.
* `IdInv`, `idInv_step`: the invariant, every pending call has bound the current `next_id` and
  every callback held anywhere carries the id of its handler's loader.
* `ids_agree_of_alone`: **request id agreement** in every state of every such run.
-/

namespace RewardsDriver.Fetch

/-- Every handler invocation carries the id that the loader of the handler's own call reports,
each call has one loader, and no two loaders share an id. -/
structure IdsAgree (s : State) : Prop where
  handled : ∀ t ∈ s.handled, (t.1.handler, t.1.request_id) ∈ s.loaders
  calls : (s.loaders.map Prod.fst).Nodup
  ids : (s.loaders.map Prod.snd).Nodup

/-- A registration finds no other call between its read of `next_id` and its registration, and
an id that has not been given out. -/
def Alone (s : State) : Label → Prop
  | .register c => (∀ d, d ≠ c → ¬ (s.phase d).Pending) ∧ s.loaders.length < 2 ^ 64
  | _ => True

/-- The id of the loader that is registered after `n` others. -/
def idAfter (n : ℕ) : UInt64 := UInt64.ofNat (n + 1)

lemma idAfter_succ (n : ℕ) : idAfter n + 1 = idAfter (n + 1) := by
  simp [idAfter, UInt64.ofNat_add]

lemma idAfter_inj {m n : ℕ} (hm : m < 2 ^ 64) (hn : n < 2 ^ 64) (h : idAfter m = idAfter n) :
    m = n := by
  have h' := congrArg UInt64.toNat h
  simp only [idAfter, UInt64.toNat_ofNat'] at h'
  omega

/-- The invariant of the runs in which every registration is `Alone`. -/
structure IdInv (s : State) : Prop where
  next : s.next_id = idAfter s.loaders.length
  count : s.loaders.length ≤ 2 ^ 64
  ids : s.loaders.map Prod.snd = (List.range s.loaders.length).map idAfter
  calls : (s.loaders.map Prod.fst).Nodup
  unregistered : ∀ c, (s.phase c).Unregistered → c ∉ s.loaders.map Prod.fst
  pending : ∀ c a cb, s.phase c = .bound a cb → cb.handler = c ∧ cb.request_id = s.next_id
  held : ∀ cb, Held s cb → (cb.handler, cb.request_id) ∈ s.loaders

lemma idInv_init : IdInv init where
  next := rfl
  count := by simp [init]
  ids := rfl
  calls := by simp [init]
  unregistered := by simp [init]
  pending := by intro c a cb h; cases h
  held := fun cb h => absurd h (not_held_init cb)

/-- The ids of at most `2^64` loaders are pairwise different. -/
lemma IdInv.ids_nodup {s : State} (h : IdInv s) : (s.loaders.map Prod.snd).Nodup := by
  rw [h.ids]
  refine List.Nodup.map_on (fun m hm n hn heq => ?_) List.nodup_range
  have hcount := h.count
  rw [List.mem_range] at hm hn
  exact idAfter_inj (by omega) (by omega) heq

/-- A step that registers nothing keeps the invariant, provided it puts no call back before its
registration and binds only the current `next_id`. -/
lemma IdInv.of_same_loaders {s s' : State} {l : Label} (h : IdInv s) (hs : Moves s l s')
    (hl : s'.loaders = s.loaders) (hn : s'.next_id = s.next_id) (hreg : ∀ c, l ≠ .register c)
    (hun : ∀ c, (s'.phase c).Unregistered → (s.phase c).Unregistered)
    (hbound : ∀ c a cb, s'.phase c = .bound a cb →
      s.phase c = .bound a cb ∨ cb.handler = c ∧ cb.request_id = s.next_id) : IdInv s' where
  next := by rw [hn, hl]; exact h.next
  count := by rw [hl]; exact h.count
  ids := by rw [hl]; exact h.ids
  calls := by rw [hl]; exact h.calls
  unregistered := fun c hc => by rw [hl]; exact h.unregistered c (hun c hc)
  pending := fun c a cb hc => by
    rw [hn]
    obtain hc | hc := hbound c a cb hc
    · exact h.pending c a cb hc
    · exact hc
  held := fun cb hcb => by
    rw [hl]
    obtain hcb | ⟨c, _, hlab, _⟩ := held_step hs hcb
    · exact h.held cb hcb
    · exact absurd hlab (hreg c)

/-- The registration step: the callback registered carries the id of the loader made. -/
lemma IdInv.register {s s' : State} {c : Call} {a : Addr} {cb : FetchCallback} (h : IdInv s)
    (hc : s.phase c = .bound a cb) (halone : Alone s (.register c))
    (hs : Moves s (.register c) s') (hl : s'.loaders = s.loaders ++ [(c, s.next_id)])
    (hn : s'.next_id = s.next_id + 1)
    (hp : s'.phase = Function.update s.phase c (.registered a)) : IdInv s' where
  next := by rw [hn, hl, h.next, idAfter_succ]; simp
  count := by
    have := halone.2
    rw [hl, List.length_append, List.length_singleton]
    omega
  ids := by
    rw [hl, List.map_append, h.ids, List.length_append, List.length_singleton,
      List.range_succ, List.map_append, h.next]
    rfl
  calls := by
    rw [hl, List.map_append, List.nodup_append]
    refine ⟨h.calls, by simp, fun d hd e he hde => ?_⟩
    have hec : e = c := by simpa using he
    rw [hde, hec] at hd
    exact h.unregistered c (by rw [hc]; trivial) hd
  unregistered := fun d hd => by
    rw [hl, List.map_append, List.mem_append]
    rw [hp] at hd
    by_cases hdc : d = c
    · subst hdc
      simp [Phase.Unregistered] at hd
    · rw [Function.update_of_ne hdc] at hd
      rintro (hmem | hmem)
      · exact h.unregistered d hd hmem
      · exact hdc (by simpa using hmem)
  pending := fun d b cb' hd => by
    rw [hp] at hd
    by_cases hdc : d = c
    · subst hdc
      simp at hd
    · rw [Function.update_of_ne hdc] at hd
      exact absurd (by rw [hd]; trivial) (halone.1 d hdc)
  held := fun cb' hcb => by
    rw [hl, List.mem_append]
    obtain hcb | ⟨d, b, hlab, hd⟩ := held_step hs hcb
    · exact .inl (h.held cb' hcb)
    · obtain rfl : c = d := by simpa using hlab
      obtain ⟨hhandler, hid⟩ := h.pending c b cb' hd
      exact .inr (by rw [hhandler, hid]; simp)

/-- A phase update after registration makes no call unregistered. -/
lemma unregistered_update {s : State} {c d : Call} {p : Phase} (hp : ¬ p.Unregistered)
    (h : (Function.update s.phase c p d).Unregistered) : (s.phase d).Unregistered := by
  by_cases hd : d = c
  · subst hd
    rw [Function.update_self] at h
    exact absurd h hp
  · rwa [Function.update_of_ne hd] at h

/-- A phase update to a phase that holds no bound callback makes no call pending. -/
lemma bound_update {s : State} {c d : Call} {p : Phase} {a : Addr} {cb : FetchCallback}
    (hp : ¬ p.Pending) (h : Function.update s.phase c p d = .bound a cb) :
    s.phase d = .bound a cb := by
  by_cases hd : d = c
  · subst hd
    rw [Function.update_self] at h
    exact absurd (by rw [h]; trivial) hp
  · rwa [Function.update_of_ne hd] at h

/-- **The step lemma**: every step that meets the guard keeps the invariant. -/
theorem idInv_step {s s' : State} {l : Label} (h : IdInv s) (hok : Alone s l)
    (hs : Moves s l s') : IdInv s' := by
  have hmoves := hs
  cases hs with
  | @create c a url hc ha =>
      refine h.of_same_loaders hmoves rfl rfl (by simp) (fun d hd => ?_)
        fun d b cb hd => .inl (bound_update (by simp [Phase.Pending]) hd)
      by_cases hdc : d = c
      · subst hdc
        rw [hc]
        trivial
      · dsimp only at hd
        rwa [Function.update_of_ne hdc] at hd
  | @bind c a url hc =>
      refine h.of_same_loaders hmoves rfl rfl (by simp) (fun d hd => ?_) fun d b cb hd => ?_
      · by_cases hdc : d = c
        · subst hdc
          rw [hc]
          trivial
        · dsimp only at hd
          rwa [Function.update_of_ne hdc] at hd
      · dsimp only at hd
        by_cases hdc : d = c
        · subst hdc
          rw [Function.update_self, Phase.bound.injEq] at hd
          exact .inr ⟨by rw [← hd.2], by rw [← hd.2]⟩
        · rw [Function.update_of_ne hdc] at hd
          exact .inl hd
  | register hc => exact h.register hc hok hmoves rfl rfl rfl
  | fetch _ | take _ _ | absent _ _ | read _ _ | delete _ | post _ =>
      exact h.of_same_loaders hmoves rfl rfl (by simp)
        (fun _ hd => unregistered_update (by simp [Phase.Unregistered]) hd)
        fun _ _ _ hd => .inl (bound_update (by simp [Phase.Pending]) hd)
  | invoke _ | shutdown =>
      exact h.of_same_loaders hmoves rfl rfl (by simp) (fun _ hd => hd) fun _ _ _ hd => .inl hd

/-- The invariant holds in every state of every run whose registrations are `Alone`. -/
theorem idInv_reach {s : State} (h : system.Reach Alone s) : IdInv s :=
  h.invariant idInv_init fun _ _ _ hinv hok hs => idInv_step hinv hok (step_moves hs)

/-- **Request id agreement**: in every run in which no call registers while another is between
its read of `next_id` and its registration, and fewer than `2^64` requests are registered, every
handler is invoked with the id of its own loader and no two requests share an id. -/
theorem ids_agree_of_alone {s : State} (h : system.Reach Alone s) : IdsAgree s where
  handled := fun t ht => (idInv_reach h).held t.1 (.handled t.2 ht)
  calls := (idInv_reach h).calls
  ids := (idInv_reach h).ids_nodup

/-- Two calls on two threads: both read `next_id` before either registers. -/
def racingCalls : List Label :=
  [.create 0 0 "a", .create 1 1 "b", .bind 0, .bind 1, .register 0, .register 1,
    .fetch 1 ⟨200, "", ""⟩, .take 1, .read 1, .delete 1, .post 1, .invoke 0]

/-- After `racingCalls` the second handler has been invoked with the id of the first request. -/
theorem ids_disagree : ¬ ∀ s, system.Reach System.Free s → IdsAgree s := by
  intro hall
  obtain ⟨s, hs⟩ : ∃ s, system.run system.init racingCalls = some s := ⟨_, rfl⟩
  have hagree := (hall s (System.reach_of_run hs)).handled
  have hhandled : s.handled = [(⟨1, 1, "b"⟩, ⟨200, "", ""⟩)] := by
    cases hs
    rfl
  have hloaders : s.loaders = [(0, 1), (1, 2)] := by
    cases hs
    rfl
  rw [hhandled, hloaders] at hagree
  have hmem := hagree _ (List.mem_singleton_self _)
  revert hmem
  decide

/-- Two requests, both answered: the second call reads `next_id` when the first has registered. -/
def orderlyAnswers : List Label :=
  [.fetch 1 ⟨200, "", ""⟩, .take 1, .fetch 0 ⟨200, "{}", ""⟩, .read 1, .delete 1, .take 0, .post 1,
    .invoke 0, .read 0, .delete 0, .post 0, .invoke 0]

/-- Both handlers are invoked with the ids of their own requests. -/
theorem ids_agree_of_alone_two :
    ∃ s, s.handled = [(⟨1, 2, "b"⟩, ⟨200, "", ""⟩), (⟨0, 1, "a"⟩, ⟨200, "{}", ""⟩)] ∧
      IdsAgree s := by
  have hbound : system.Reach Alone _ :=
    .step (.step (.step .init (a := .create 0 0 "a") trivial rfl) (a := .create 1 1 "b") trivial
      rfl) (a := .bind 0) trivial rfl
  have hregistered : system.Reach Alone _ :=
    .step hbound (a := .register 0) ⟨fun d hd => ?_, by decide⟩ rfl
  · have hsecond : system.Reach Alone _ := .step hregistered (a := .bind 1) trivial rfl
    obtain ⟨t, ht, s, hs, hhandled⟩ : ∃ t, system.Reach Alone t ∧ ∃ s,
        system.run t orderlyAnswers = some s ∧
          s.handled = [(⟨1, 2, "b"⟩, ⟨200, "", ""⟩), (⟨0, 1, "a"⟩, ⟨200, "{}", ""⟩)] := by
      refine ⟨_, .step hsecond (a := .register 1) ⟨fun d hd => ?_, by decide⟩ rfl, _, rfl, rfl⟩
      by_cases h0 : d = 0
      · subst h0
        exact id
      · simp [system, init, Function.update_of_ne hd, Function.update_of_ne h0, Phase.Pending]
    exact ⟨s, hhandled, ids_agree_of_alone (ht.run (by simp [Alone, orderlyAnswers]) hs)⟩
  · by_cases h1 : d = 1
    · subst h1
      exact id
    · simp [system, init, Function.update_of_ne hd, Function.update_of_ne h1, Phase.Pending]

end RewardsDriver.Fetch
