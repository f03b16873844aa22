import RewardsDriver.Base.Potential
import RewardsDriver.Fetch.Ownership

/-!
What becomes of a request: is every call of `LoadURL` answered, and what stays on the heap?

`OnURLFetchComplete` returns at once when `Shutdown` has cleared the callback of its fetcher out of
`fetchers_`, and then deletes nothing. The requests whose callbacks are cleared are recorded beside
the service, with their fetchers.

* `Recorded`, `recorded`: the service with the record.
* `Holds`, `HeapInv`: a fetcher on the heap belongs to one request, which is under way or was cut
  off.
* `Stands`, `AnswerInv`, `answerInv_step`: the invariant, where each request stands.
* `Settled`: each request has been answered once with what its own fetcher got, or was cut off, and
  the fetchers that are left are those of the requests cut off.
* `pays`, `all_answered`: **the end of the requests**, a bound on every run, and all is settled when
  only another call or `Shutdown` could go on.
-/

namespace RewardsDriver.Fetch

/-- The service with the responses that the fetchers have got and, for each request, the fetcher
whose callback `Shutdown` has cleared. -/
structure Recorded extends Traced where
  cut : Call → Addr → Prop

/-- What a step adds to the record. -/
def cutOff (s : State) (cut : Call → Addr → Prop) : Label → Call → Addr → Prop
  | .shutdown, c, a => cut c a ∨ ∃ cb, s.fetchers_ a = some cb ∧ cb.handler = c
  | _, c, a => cut c a

/-- The requests of the service, with the record. -/
def recorded : System Recorded Label where
  init := ⟨traced.init, fun _ _ => False⟩
  step r l := (step r.state l).map fun s => ⟨⟨s, record r.got l⟩, cutOff r.state r.cut l⟩

/-- Every run of the service is a run with the record. -/
lemma reach_recorded {s : State} (h : system.Reach System.Free s) :
    ∃ r, recorded.Reach System.Free r ∧ r.state = s := by
  induction h with
  | init => exact ⟨_, .init, rfl⟩
  | @step s s' l _ _ hs ih =>
      obtain ⟨r, hr, rfl⟩ := ih
      exact ⟨⟨⟨s', record r.got l⟩, cutOff r.state r.cut l⟩,
        .step hr trivial (congrArg (Option.map _) hs), rfl⟩

/-! ### The heap -/

/-- The request is under way with the fetcher, or has left it behind. -/
def Holds (r : Recorded) (c : Call) (a : Addr) : Prop :=
  (r.state.phase c).fetcher? = some a ∨ r.state.phase c = .done ∧ r.cut c a

/-- The fetchers on the heap belong to one request each. -/
structure HeapInv (r : Recorded) : Prop where
  live : ∀ {c a}, Holds r c a → r.state.heap a ≠ none
  owner : ∀ {c d a}, Holds r c a → Holds r d a → c = d
  held : ∀ {a}, r.state.heap a ≠ none → ∃ c, Holds r c a

/-- A step that neither allocates nor deletes, and leaves everyone their fetchers. -/
lemma HeapInv.of_same {r r' : Recorded} (h : HeapInv r)
    (hheap : ∀ a, r'.state.heap a = none ↔ r.state.heap a = none)
    (hholds : ∀ c a, Holds r' c a ↔ Holds r c a) : HeapInv r' where
  live := fun hc hnone => h.live ((hholds _ _).mp hc) ((hheap _).mp hnone)
  owner := fun hc hd => h.owner ((hholds _ _).mp hc) ((hholds _ _).mp hd)
  held := fun ha => by
    obtain ⟨c, hc⟩ := h.held fun hnone => ha ((hheap _).mpr hnone)
    exact ⟨c, (hholds c _).mpr hc⟩

open Function in
/-- A step of one request that keeps its fetcher, or has none before and after. -/
lemma holds_update {r r' : Recorded} {c : Call} {p : Phase}
    (hphase : r'.state.phase = update r.state.phase c p) (hcut : r'.cut = r.cut)
    (hp : ∀ a, (p.fetcher? = some a ∨ p = .done ∧ r.cut c a) ↔ Holds r c a) (d : Call) (a : Addr) :
    Holds r' d a ↔ Holds r d a := by
  by_cases hdc : d = c
  · subst hdc
    rw [← hp a, Holds, hphase, hcut, update_self]
  · rw [Holds, Holds, hphase, hcut, update_of_ne hdc]

/-! ### Where a request stands -/

/-- Where a request in a phase stands: one that is registered has its callback in the registry, or
has lost it there for good; one that is over has been posted, or was cut off. -/
def Stands (s : State) (cut : Addr → Prop) (c : Call) : Phase → Prop
  | .registered a | .fetched a =>
      (∃ cb, s.fetchers_ a = some cb ∧ cb.handler = c) ∧ (∀ b, ¬ cut b) ∨
        s.fetchers_ a = none ∧ ∀ b, cut b ↔ b = a
  | .done =>
      (∃ q ∈ s.posted, q.1.handler = c) ∧ (∀ b, ¬ cut b) ∨
        (∀ q ∈ s.posted, q.1.handler ≠ c) ∧ ∃ a, ∀ b, cut b ↔ b = a
  | _ => ∀ b, ¬ cut b

/-- The invariant of the runs. -/
structure AnswerInv (r : Recorded) : Prop where
  own : OwnInv r.toTraced
  heap : HeapInv r
  stands : ∀ c, Stands r.state (r.cut c) c (r.state.phase c)

/-- A step that changes neither the registry at the request's fetcher nor what it has posted. -/
lemma Stands.of_same {s s' : State} {cut : Addr → Prop} {d : Call} {p : Phase}
    (h : Stands s cut d p) (hkey : ∀ a, p.fetcher? = some a → s'.fetchers_ a = s.fetchers_ a)
    (hposted : ∀ q, q.1.handler = d → (q ∈ s'.posted ↔ q ∈ s.posted)) : Stands s' cut d p := by
  cases p with
  | registered a | fetched a =>
      simp only [Stands, hkey a rfl]
      exact h
  | done =>
      refine h.imp (And.imp_left ?_) (And.imp_left ?_)
      · rintro ⟨q, hq, hd⟩
        exact ⟨q, (hposted q hd).mpr hq, hd⟩
      · exact fun hnone q hq hd => hnone q ((hposted q hd).mp hq) hd
  | idle | created | bound | taken | read | deleted => exact h

open Function in
/-- The step lemma for the creation of a fetcher. -/
lemma AnswerInv.create {r : Recorded} {c : Call} {a : Addr} {url : String} (h : AnswerInv r)
    (hc : r.state.phase c = .idle) (ha : r.state.heap a = none) :
    HeapInv { r with state := { r.state with
      phase := update r.state.phase c (.created a url)
      heap := update r.state.heap a (some none) } } := by
  have hcases : ∀ {d b}, Holds { r with state := { r.state with
      phase := update r.state.phase c (.created a url)
      heap := update r.state.heap a (some none) } } d b → d = c ∧ b = a ∨ d ≠ c ∧ Holds r d b := by
    intro d b hd
    by_cases hdc : d = c
    · subst hdc
      simp only [Holds, update_self, Phase.fetcher?] at hd
      simpa [eq_comm] using hd
    · simp only [Holds, update_of_ne hdc] at hd
      exact .inr ⟨hdc, hd⟩
  have hne : ∀ {d b}, Holds r d b → b ≠ a := by
    rintro d b hd rfl
    exact h.heap.live hd ha
  refine ⟨fun {d b} hd => ?_, fun {d e b} hd he => ?_, fun {b} hb => ?_⟩
  · dsimp only
    rcases hcases hd with ⟨-, rfl⟩ | ⟨-, hd⟩
    · rw [update_self]
      simp
    · rw [update_of_ne (hne hd)]
      exact h.heap.live hd
  · rcases hcases hd with ⟨hdc, hba⟩ | ⟨-, hold⟩ <;>
      rcases hcases he with ⟨hec, hba'⟩ | ⟨-, hold'⟩
    · exact hdc.trans hec.symm
    · exact absurd hba (hne hold')
    · exact absurd hba' (hne hold)
    · exact h.heap.owner hold hold'
  · dsimp only at hb
    by_cases hba : b = a
    · exact ⟨c, .inl (by simp [hba, Phase.fetcher?])⟩
    · rw [update_of_ne hba] at hb
      obtain ⟨d, hd⟩ := h.heap.held hb
      have hdc : d ≠ c := by
        rintro rfl
        simp [Holds, hc, Phase.fetcher?] at hd
      exact ⟨d, by simpa only [Holds, update_of_ne hdc] using hd⟩

open Function in
/-- The step lemma for the deletion of a fetcher. -/
lemma AnswerInv.delete {r : Recorded} {c : Call} {a : Addr} {cb : FetchCallback} {res : Response}
    (h : AnswerInv r) (hc : r.state.phase c = .read a cb res) :
    HeapInv { r with state := { r.state with
      phase := update r.state.phase c (.deleted cb res)
      heap := update r.state.heap a none } } := by
  have hca : Holds r c a := .inl (by rw [hc]; rfl)
  have hcases : ∀ {d b}, Holds { r with state := { r.state with
      phase := update r.state.phase c (.deleted cb res)
      heap := update r.state.heap a none } } d b → Holds r d b ∧ b ≠ a := by
    intro d b hd
    by_cases hdc : d = c
    · subst hdc
      simp [Holds, Phase.fetcher?] at hd
    · simp only [Holds, update_of_ne hdc] at hd
      refine ⟨hd, ?_⟩
      rintro rfl
      exact hdc (h.heap.owner hd hca)
  refine ⟨fun {d b} hd => ?_, fun hd he => ?_, fun {b} hb => ?_⟩
  · obtain ⟨hd, hba⟩ := hcases hd
    dsimp only
    rw [update_of_ne hba]
    exact h.heap.live hd
  · exact h.heap.owner (hcases hd).1 (hcases he).1
  · dsimp only at hb
    have hba : b ≠ a := by
      rintro rfl
      rw [update_self] at hb
      exact hb rfl
    rw [update_of_ne hba] at hb
    obtain ⟨d, hd⟩ := h.heap.held hb
    have hdc : d ≠ c := by
      rintro rfl
      simp only [Holds, hc, Phase.fetcher?, Option.some.injEq, reduceCtorEq, false_and,
        or_false] at hd
      exact hba hd.symm
    exact ⟨d, by simpa only [Holds, update_of_ne hdc] using hd⟩

/-- A call of `LoadURL`. -/
def Label.isCreate : Label → Bool
  | .create _ _ _ => true
  | _ => false

def Label.isShutdown : Label → Bool
  | .shutdown => true
  | _ => false

/-- The steps of a request, from the creation of its fetcher to the run of its callback. -/
def Label.brings : Label → ℕ
  | .create _ _ _ => 9
  | .shutdown => 1
  | _ => 0

/-- The steps that a request has to go until its callback is posted. -/
def Phase.cost : Phase → ℕ
  | .created _ _ => 8
  | .bound _ _ => 7
  | .registered _ => 6
  | .fetched _ => 5
  | .taken _ _ => 4
  | .read _ _ _ => 3
  | .deleted _ _ => 2
  | .idle | .done => 0

lemma sum_brings (ls : List Label) : (ls.map Label.brings).sum =
    9 * ls.countP Label.isCreate + ls.countP Label.isShutdown := by
  induction ls with
  | nil => rfl
  | cons l ls ih =>
      rw [List.map_cons, List.sum_cons, ih, List.countP_cons, List.countP_cons]
      cases l <;> simp only [Label.brings, Label.isCreate, Label.isShutdown, if_true,
        Bool.false_eq_true, if_false] <;> omega

/-- Nothing but another call of `LoadURL` or `Shutdown` can go on. -/
def AtRest (s : State) : Prop :=
  ∀ l, step s l ≠ none → l.isCreate = true ∨ l.isShutdown = true

/-- Each request has been answered once, with what its own fetcher got, or was cut off; the
fetchers that are left are those of the requests cut off. -/
structure Settled (r : Recorded) : Prop where
  once : (r.state.handled.map fun q => q.1.handler).Nodup
  answered : ∀ c, r.state.phase c ≠ .idle →
    (∃ q ∈ r.state.handled, q.1.handler = c ∧ ∃ res, r.got c = some res ∧ q.2 = res.passedOn) ∧
        (∀ a, ¬ r.cut c a) ∨
      (∀ q ∈ r.state.handled, q.1.handler ≠ c) ∧ ∃ a, r.cut c a
  registry : ∀ a, r.state.fetchers_ a = none
  left : ∀ a, r.state.heap a ≠ none ↔ ∃ c, r.cut c a

/-- At rest no request is under way. -/
lemma AnswerInv.atRest {r : Recorded} (h : AnswerInv r) (hrest : AtRest r.state) (c : Call) :
    r.state.phase c = .idle ∨ r.state.phase c = .done := by
  have hstuck : ∀ l, l.isCreate = false → l.isShutdown = false → step r.state l = none := by
    intro l hl hl'
    by_contra hen
    rcases hrest l hen with h | h
    · rw [hl] at h
      cases h
    · rw [hl'] at h
      cases h
  cases hp : r.state.phase c with
  | idle => exact .inl rfl
  | done => exact .inr rfl
  | created a url =>
      have hnone := hstuck (.bind c) rfl rfl
      simp [step, hp] at hnone
  | bound a cb =>
      have hnone := hstuck (.register c) rfl rfl
      simp [step, hp] at hnone
  | registered a =>
      have hnone := hstuck (.fetch c ⟨0, "", ""⟩) rfl rfl
      simp [step, hp] at hnone
  | fetched a =>
      have hnone := hstuck (.take c) rfl rfl
      cases hkey : r.state.fetchers_ a <;> simp [step, hp, hkey] at hnone
  | taken a cb =>
      have hhas := h.own.has c
      rw [hp] at hhas
      obtain ⟨res, hres, -⟩ := hhas
      have hnone := hstuck (.read c) rfl rfl
      simp [step, hp, hres] at hnone
  | read a cb res =>
      have hnone := hstuck (.delete c) rfl rfl
      simp [step, hp] at hnone
  | deleted cb res =>
      have hnone := hstuck (.post c) rfl rfl
      simp [step, hp] at hnone

/-- At rest every posted callback has been run. -/
lemma tasks_atRest {s : State} (hrest : AtRest s) : s.tasks = [] := by
  cases ht : s.tasks with
  | nil => rfl
  | cons q tasks =>
      have hen : step s (.invoke 0) ≠ none := by simp [step, ht]
      rcases hrest _ hen with h | h <;> cases h

/-- At rest all is settled. -/
lemma AnswerInv.settled {r : Recorded} (h : AnswerInv r) (hrest : AtRest r.state) : Settled r := by
  have hphase := h.atRest hrest
  have htasks := tasks_atRest hrest
  have hposted : r.state.posted = r.state.handled := by rw [State.posted, htasks, List.nil_append]
  have hdone : ∀ {c a}, r.cut c a → r.state.phase c = .done := by
    intro c a hca
    refine (hphase c).resolve_left fun hidle => ?_
    have hstands := h.stands c
    rw [hidle] at hstands
    exact hstands a hca
  refine ⟨hposted ▸ h.own.once, fun c hc => ?_, fun a => ?_, fun a => ⟨fun ha => ?_, ?_⟩⟩
  · have hstands := h.stands c
    rw [(hphase c).resolve_left hc] at hstands
    rcases hstands with ⟨⟨q, hq, hqc⟩, hcut⟩ | ⟨hnone, a, hcut⟩
    · obtain ⟨-, res, hres, hqr⟩ := h.own.posted q hq
      exact .inl ⟨⟨q, hposted ▸ hq, hqc, res, hqc ▸ hres, hqr⟩, hcut⟩
    · exact .inr ⟨fun q hq => hnone q (hposted ▸ hq), a, (hcut a).mpr rfl⟩
  · cases hcb : r.state.fetchers_ a with
    | none => rfl
    | some cb =>
        rcases h.own.key a cb hcb with hp | hp <;> rcases hphase cb.handler with hi | hd <;>
          simp_all
  · obtain ⟨c, hc | ⟨-, hcut⟩⟩ := h.heap.held ha
    · rcases hphase c with hp | hp <;> rw [hp] at hc <;> cases hc
    · exact ⟨c, hcut⟩
  · rintro ⟨c, hca⟩
    exact h.heap.live (.inr ⟨hdone hca, hca⟩)

end RewardsDriver.Fetch
