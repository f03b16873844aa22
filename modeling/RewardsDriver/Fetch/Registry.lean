import Mathlib.Logic.Function.Basic
import Mathlib.Data.List.Basic
import RewardsDriver.Base.Runs

/-!
The registry of URL requests: `BraveRewardsServiceImpl::LoadURL`, `OnURLFetchComplete` and the
map `fetchers_` between them (`driver/brave_rewards_service_impl.cc`).

Any number of threads run `LoadURL`; a call is identified with the request it makes and with the
handler it is given. A request passes through the steps of `Phase`: the call creates its fetcher,
binds the callback with an unlocked read of `next_id`, then registers the fetcher and takes a
loader with the locked `next_id++`. Later `URLFetcher::Start` performs the transfer and calls
`OnURLFetchComplete`, which takes the callback out of `fetchers_` under the lock and, the lock
released, reads the result, deletes the fetcher and hands the callback to `RunTask`.

* `system`: the labelled transition system; addresses of deleted fetchers may be used again.
* `Moves`, `step_moves`: what one step can do, guard and result, for every label.
* `Held`, `held_step`: a callback is in the registry, in a completion, posted or run; only a
  registration makes a new one.
-/

namespace RewardsDriver.Fetch

/-- A call of `LoadURL`, which is also the handler passed to it. -/
abbrev Call := ℕ

/-- The address of a `URLFetcher`. -/
abbrev Addr := ℕ

/-- What `curl_easy_perform` leaves in a fetcher: the response code, the body and the raw
header lines. -/
structure Response where
  code : Int
  body : String
  header_data : String
  deriving DecidableEq

/-- `FetchCallback`: `OnURLRequestResponse` bound to the handler, the request id and the URL. -/
structure FetchCallback where
  handler : Call
  request_id : UInt64
  url : String
  deriving DecidableEq

/-- The progress of one request. -/
inductive Phase where
  | idle
  /-- `URLFetcher::Create` has returned the fetcher. -/
  | created (fetcher : Addr) (url : String)
  /-- The callback holds the value of `next_id` read without the lock. -/
  | bound (fetcher : Addr) (callback : FetchCallback)
  /-- `LoadURL` has returned its loader. -/
  | registered (fetcher : Addr)
  /-- `Start` has performed the transfer and calls `OnURLFetchComplete`. -/
  | fetched (fetcher : Addr)
  /-- The callback is out of `fetchers_` and the lock released. -/
  | taken (fetcher : Addr) (callback : FetchCallback)
  /-- The result has been read from the fetcher. -/
  | read (fetcher : Addr) (callback : FetchCallback) (response : Response)
  /-- The fetcher has been deleted. -/
  | deleted (callback : FetchCallback) (response : Response)
  | done
  deriving DecidableEq

namespace Phase

/-- The callback a completion holds. -/
def callback? : Phase → Option FetchCallback
  | taken _ cb => some cb
  | read _ cb _ => some cb
  | deleted cb _ => some cb
  | _ => none

/-- The call is between its read of `next_id` and its registration. -/
def Pending : Phase → Prop
  | bound _ _ => True
  | _ => False

/-- `LoadURL` has not yet registered the request. -/
def Unregistered : Phase → Prop
  | idle => True
  | created _ _ => True
  | bound _ _ => True
  | _ => False

end Phase

/-- The service, as far as requests go. `loaders` lists the calls that have returned a
`LedgerURLLoader`, with its `request_id()`, in the order of their registrations; `handled` lists
the invocations of `OnURLRequestResponse`. -/
structure State where
  next_id : UInt64
  phase : Call → Phase
  heap : Addr → Option (Option Response)
  fetchers_ : Addr → Option FetchCallback
  loaders : List (Call × UInt64)
  tasks : List (FetchCallback × Response)
  handled : List (FetchCallback × Response)

/-- A step of one thread, or the environment's answer in it. -/
inductive Label where
  | create (c : Call) (fetcher : Addr) (url : String)
  | bind (c : Call)
  | register (c : Call)
  | fetch (c : Call) (r : Response)
  | take (c : Call)
  | read (c : Call)
  | delete (c : Call)
  | post (c : Call)
  | invoke (i : ℕ)
  | shutdown

/-- `URLFetcher::HTTP_OK`. -/
def HTTP_OK : Int := 200

/-- What `OnURLFetchComplete` passes on: the body only of a response with code `HTTP_OK`. -/
def Response.passedOn (r : Response) : Response :=
  if r.code = HTTP_OK then r else { r with body := "" }

open Function in
/-- One step. A completion whose fetcher is not in `fetchers_` returns at once. -/
def step (s : State) : Label → Option State
  | .create c a url =>
      match s.phase c, s.heap a with
      | .idle, none =>
          some { s with phase := update s.phase c (.created a url)
                        heap := update s.heap a (some none) }
      | _, _ => none
  | .bind c =>
      match s.phase c with
      | .created a url =>
          some { s with phase := update s.phase c (.bound a ⟨c, s.next_id, url⟩) }
      | _ => none
  | .register c =>
      match s.phase c with
      | .bound a cb =>
          some { s with phase := update s.phase c (.registered a)
                        fetchers_ := update s.fetchers_ a (some cb)
                        loaders := s.loaders ++ [(c, s.next_id)]
                        next_id := s.next_id + 1 }
      | _ => none
  | .fetch c r =>
      match s.phase c with
      | .registered a =>
          some { s with phase := update s.phase c (.fetched a)
                        heap := update s.heap a (some (some r)) }
      | _ => none
  | .take c =>
      match s.phase c with
      | .fetched a =>
          match s.fetchers_ a with
          | some cb =>
              some { s with phase := update s.phase c (.taken a cb)
                            fetchers_ := update s.fetchers_ a none }
          | none => some { s with phase := update s.phase c .done }
      | _ => none
  | .read c =>
      match s.phase c with
      | .taken a cb =>
          match s.heap a with
          | some (some r) => some { s with phase := update s.phase c (.read a cb r.passedOn) }
          | _ => none
      | _ => none
  | .delete c =>
      match s.phase c with
      | .read a cb r =>
          some { s with phase := update s.phase c (.deleted cb r)
                        heap := update s.heap a none }
      | _ => none
  | .post c =>
      match s.phase c with
      | .deleted cb r =>
          some { s with phase := update s.phase c .done
                        tasks := s.tasks ++ [(cb, r)] }
      | _ => none
  | .invoke i =>
      match s.tasks[i]? with
      | some t => some { s with tasks := s.tasks.eraseIdx i, handled := s.handled ++ [t] }
      | none => none
  | .shutdown => some { s with fetchers_ := fun _ => none }

/-- The service before its first request: `next_id` is `1`. -/
def init : State where
  next_id := 1
  phase := fun _ => .idle
  heap := fun _ => none
  fetchers_ := fun _ => none
  loaders := []
  tasks := []
  handled := []

/-- The requests of the service. -/
def system : System State Label := ⟨init, step⟩

/-! ### What one step can do -/

open Function in
/-- The enabled steps from `s`: the guard of each label and the state it leads to. -/
inductive Moves (s : State) : Label → State → Prop
  | create {c a url} (hc : s.phase c = .idle) (ha : s.heap a = none) :
      Moves s (.create c a url) { s with
        phase := update s.phase c (.created a url), heap := update s.heap a (some none) }
  | bind {c a url} (hc : s.phase c = .created a url) :
      Moves s (.bind c) { s with phase := update s.phase c (.bound a ⟨c, s.next_id, url⟩) }
  | register {c a cb} (hc : s.phase c = .bound a cb) :
      Moves s (.register c) { s with
        phase := update s.phase c (.registered a), fetchers_ := update s.fetchers_ a (some cb)
        loaders := s.loaders ++ [(c, s.next_id)], next_id := s.next_id + 1 }
  | fetch {c a r} (hc : s.phase c = .registered a) :
      Moves s (.fetch c r) { s with
        phase := update s.phase c (.fetched a), heap := update s.heap a (some (some r)) }
  | take {c a cb} (hc : s.phase c = .fetched a) (ha : s.fetchers_ a = some cb) :
      Moves s (.take c) { s with
        phase := update s.phase c (.taken a cb), fetchers_ := update s.fetchers_ a none }
  | absent {c a} (hc : s.phase c = .fetched a) (ha : s.fetchers_ a = none) :
      Moves s (.take c) { s with phase := update s.phase c .done }
  | read {c a cb r} (hc : s.phase c = .taken a cb) (ha : s.heap a = some (some r)) :
      Moves s (.read c) { s with phase := update s.phase c (.read a cb r.passedOn) }
  | delete {c a cb r} (hc : s.phase c = .read a cb r) :
      Moves s (.delete c) { s with
        phase := update s.phase c (.deleted cb r), heap := update s.heap a none }
  | post {c cb r} (hc : s.phase c = .deleted cb r) :
      Moves s (.post c) { s with
        phase := update s.phase c .done, tasks := s.tasks ++ [(cb, r)] }
  | invoke {i t} (hi : s.tasks[i]? = some t) :
      Moves s (.invoke i) { s with tasks := s.tasks.eraseIdx i, handled := s.handled ++ [t] }
  | shutdown : Moves s .shutdown { s with fetchers_ := fun _ => none }

/-- The inversion of `step`: an enabled step is one of `Moves`. -/
theorem step_moves {s s' : State} {a : Label} (h : step s a = some s') : Moves s a s' := by
  cases a with
  | create c a url =>
      simp only [step] at h
      split at h
      · cases h; exact .create ‹_› ‹_›
      · cases h
  | bind c =>
      simp only [step] at h
      split at h
      · cases h; exact .bind ‹_›
      · cases h
  | register c =>
      simp only [step] at h
      split at h
      · cases h; exact .register ‹_›
      · cases h
  | fetch c r =>
      simp only [step] at h
      split at h
      · cases h; exact .fetch ‹_›
      · cases h
  | take c =>
      simp only [step] at h
      split at h
      · split at h
        · cases h; exact .take ‹_› ‹_›
        · cases h; exact .absent ‹_› ‹_›
      · cases h
  | read c =>
      simp only [step] at h
      split at h
      · split at h
        · cases h; exact .read ‹_› ‹_›
        · cases h
      · cases h
  | delete c =>
      simp only [step] at h
      split at h
      · cases h; exact .delete ‹_›
      · cases h
  | post c =>
      simp only [step] at h
      split at h
      · cases h; exact .post ‹_›
      · cases h
  | invoke i =>
      simp only [step] at h
      split at h
      · cases h; exact .invoke ‹_›
      · cases h
  | shutdown => cases h; exact .shutdown

/-! ### Where a callback can be -/

/-- The callback is registered, held by a completion, posted or has been invoked. -/
inductive Held (s : State) (cb : FetchCallback) : Prop
  | registered (a : Addr) (h : s.fetchers_ a = some cb)
  | completing (c : Call) (h : (s.phase c).callback? = some cb)
  | posted (r : Response) (h : (cb, r) ∈ s.tasks)
  | handled (r : Response) (h : (cb, r) ∈ s.handled)

lemma not_held_init (cb : FetchCallback) : ¬ Held init cb := by
  rintro (⟨_, h⟩ | ⟨_, h⟩ | ⟨_, h⟩ | ⟨_, h⟩) <;> simp [init, Phase.callback?] at h

/-- A step of one call that hands on no callback of its own keeps the completions' callbacks. -/
lemma callback?_update {s : State} {c d : Call} {p : Phase} {cb : FetchCallback}
    (h : (Function.update s.phase c p d).callback? = some cb) :
    p.callback? = some cb ∨ (s.phase d).callback? = some cb := by
  by_cases hd : d = c
  · subst hd
    rw [Function.update_self] at h
    exact .inl h
  · rw [Function.update_of_ne hd] at h
    exact .inr h

/-- **Only a registration makes a new callback**: every other step moves a callback that was
already held, or drops it. -/
theorem held_step {s s' : State} {l : Label} {cb : FetchCallback} (hs : Moves s l s')
    (h : Held s' cb) : Held s cb ∨ ∃ c a, l = .register c ∧ s.phase c = .bound a cb := by
  cases hs with
  | create _ _ | bind _ | fetch _ | absent _ _ =>
      obtain ⟨a, h⟩ | ⟨d, h⟩ | ⟨r, h⟩ | ⟨r, h⟩ := h
      · exact .inl (.registered a h)
      · obtain h | h := callback?_update h
        · simp [Phase.callback?] at h
        · exact .inl (.completing d h)
      · exact .inl (.posted r h)
      · exact .inl (.handled r h)
  | @register c a cb' hc =>
      obtain ⟨b, h⟩ | ⟨d, h⟩ | ⟨r, h⟩ | ⟨r, h⟩ := h
      · dsimp only at h
        by_cases hb : b = a
        · subst hb
          rw [Function.update_self, Option.some.injEq] at h
          exact .inr ⟨c, b, rfl, h ▸ hc⟩
        · rw [Function.update_of_ne hb] at h
          exact .inl (.registered b h)
      · obtain h | h := callback?_update h
        · simp [Phase.callback?] at h
        · exact .inl (.completing d h)
      · exact .inl (.posted r h)
      · exact .inl (.handled r h)
  | @take c a cb' hc ha =>
      obtain ⟨b, h⟩ | ⟨d, h⟩ | ⟨r, h⟩ | ⟨r, h⟩ := h
      · dsimp only at h
        by_cases hb : b = a
        · subst hb
          rw [Function.update_self] at h
          cases h
        · rw [Function.update_of_ne hb] at h
          exact .inl (.registered b h)
      · obtain h | h := callback?_update h
        · exact .inl (.registered a (ha.trans h))
        · exact .inl (.completing d h)
      · exact .inl (.posted r h)
      · exact .inl (.handled r h)
  | @read c a cb' r' hc ha =>
      obtain ⟨b, h⟩ | ⟨d, h⟩ | ⟨r, h⟩ | ⟨r, h⟩ := h
      · exact .inl (.registered b h)
      · obtain h | h := callback?_update h
        · exact .inl (.completing c (by rw [hc]; exact h))
        · exact .inl (.completing d h)
      · exact .inl (.posted r h)
      · exact .inl (.handled r h)
  | @delete c a cb' r' hc =>
      obtain ⟨b, h⟩ | ⟨d, h⟩ | ⟨r, h⟩ | ⟨r, h⟩ := h
      · exact .inl (.registered b h)
      · obtain h | h := callback?_update h
        · exact .inl (.completing c (by rw [hc]; exact h))
        · exact .inl (.completing d h)
      · exact .inl (.posted r h)
      · exact .inl (.handled r h)
  | @post c cb' r' hc =>
      obtain ⟨b, h⟩ | ⟨d, h⟩ | ⟨r, h⟩ | ⟨r, h⟩ := h
      · exact .inl (.registered b h)
      · obtain h | h := callback?_update h
        · simp [Phase.callback?] at h
        · exact .inl (.completing d h)
      · rcases List.mem_append.mp h with h | h
        · exact .inl (.posted r h)
        · obtain ⟨rfl, _⟩ := Prod.mk.inj (List.mem_singleton.mp h)
          exact .inl (.completing c (by rw [hc]; rfl))
      · exact .inl (.handled r h)
  | @invoke i t hi =>
      obtain ⟨b, h⟩ | ⟨d, h⟩ | ⟨r, h⟩ | ⟨r, h⟩ := h
      · exact .inl (.registered b h)
      · exact .inl (.completing d h)
      · exact .inl (.posted r (List.mem_of_mem_eraseIdx h))
      · rcases List.mem_append.mp h with h | h
        · exact .inl (.handled r h)
        · exact .inl (.posted r (List.mem_singleton.mp h ▸ List.mem_of_getElem? hi))
  | shutdown =>
      obtain ⟨b, h⟩ | ⟨d, h⟩ | ⟨r, h⟩ | ⟨r, h⟩ := h
      · cases h
      · exact .inl (.completing d h)
      · exact .inl (.posted r h)
      · exact .inl (.handled r h)

end RewardsDriver.Fetch
