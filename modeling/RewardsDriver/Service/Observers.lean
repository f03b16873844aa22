import RewardsDriver.Base.Runs
import RewardsDriver.Store.Recurring

/-!
The list of recurring donations on its way to the observers: `UpdateRecurringDonationsList`,
`GetRecurringDonations` and `OnRecurringDonationUpdated`.

A call reads the list at once and leaves its delivery to a task of its own, so that the lists of
several calls are delivered in any order; a task hands its list to one observer after the other.

* `ContentSite`, `contentSite`: what the observers get.
* `delivering`: the labelled transition system; writes and calls by one thread, and the tasks.
* `Delivers`, `deliver_delivers`: what one step can do, guard and result, for every label.
* `InOrder`: the guard that the task of the last call comes to an observer only after the tasks with
  other lists.
* `DeliveryInv`, `deliveryInv_step`: the invariant, the list of the last call is on its way to an
  observer, or it is the last one that the observer has got and no other is on its way to it.
* `Settled`, `EndsWith`, `ends_newest`: **the observers** end with the newest list in every such
  run.
* `ends_stale`: two deliveries in the other order.
-/

namespace RewardsDriver.Service

open RewardsDriver.Store

/-! ### What the observers get -/

/-- `brave_rewards::ContentSite`. -/
structure ContentSite where
  id : String
  percentage : Double
  verified : Bool
  excluded : Int32
  name : String
  favicon_url : String
  url : String
  provider : String
  reconcile_stamp : UInt64
  deriving DecidableEq

/-- `PublisherInfoToContentSite`, with the percentage that `OnRecurringDonationUpdated` puts in the
place of the percent. -/
def contentSite (publisher : PublisherInfo) : ContentSite where
  id := publisher.id
  percentage := publisher.weight
  verified := publisher.verified
  excluded := publisher.excluded
  name := publisher.name
  favicon_url := publisher.favicon_url
  url := publisher.url
  provider := publisher.provider
  reconcile_stamp := publisher.reconcile_stamp

/-- An observer. -/
abbrev Observer := ℕ

/-- A task that delivers a list: the list, and the observers that have not got it. -/
structure Delivery where
  new_list : List ContentSite
  remaining : List Observer

/-- The service. `calls` are the lists that the calls have read, `tasks` the deliveries of each
call, `received` what each observer has got of which call; `settled` says that no write has come
after the last call. -/
structure Delivering where
  conn : Conn
  calls : List (List PublisherInfo)
  tasks : ℕ → Option Delivery
  received : Observer → List (ℕ × List ContentSite)
  settled : Bool

/-- A step of the one thread that writes and calls, or of a task. -/
inductive DeliveryLabel where
  | write (w : Write)
  | update
  /-- The task of a call hands its list to the next observer. -/
  | notify (call : ℕ)
  | finish (call : ℕ)

section System

variable (E : Sqlite) (L : Ledger) (observers_ : List Observer)

open Function in
/-- One step. -/
def deliver (s : Delivering) : DeliveryLabel → Option Delivering
  | .write w => some { s with conn := (w.run E s.conn).2, settled := false }
  | .update =>
      match getRecurringDonations E L [] s.conn with
      | (.ok list, conn) =>
          some { s with
            conn
            calls := s.calls ++ [list]
            tasks := update s.tasks s.calls.length (some ⟨list.map contentSite, observers_⟩)
            settled := true }
      | (.error _, _) => none
  | .notify n =>
      match s.tasks n with
      | some ⟨new_list, o :: remaining⟩ =>
          some { s with
            tasks := update s.tasks n (some ⟨new_list, remaining⟩)
            received := update s.received o (s.received o ++ [(n, new_list)]) }
      | _ => none
  | .finish n =>
      match s.tasks n with
      | some ⟨_, []⟩ => some { s with tasks := update s.tasks n none }
      | _ => none

/-- The deliveries from a connection on. -/
def delivering (c : Conn) : System Delivering DeliveryLabel :=
  ⟨⟨c, [], fun _ => none, fun _ => [], false⟩, deliver E L observers_⟩

/-! ### What one step can do -/

open Function in
/-- The enabled steps from `s`: the guard of each label and the state it leads to. -/
inductive Delivers (s : Delivering) : DeliveryLabel → Delivering → Prop
  | write {w} : Delivers s (.write w) { s with conn := (w.run E s.conn).2, settled := false }
  | update {list conn} (h : getRecurringDonations E L [] s.conn = (.ok list, conn)) :
      Delivers s .update { s with
        conn
        calls := s.calls ++ [list]
        tasks := update s.tasks s.calls.length (some ⟨list.map contentSite, observers_⟩)
        settled := true }
  | notify {n new_list o remaining} (h : s.tasks n = some ⟨new_list, o :: remaining⟩) :
      Delivers s (.notify n) { s with
        tasks := update s.tasks n (some ⟨new_list, remaining⟩)
        received := update s.received o (s.received o ++ [(n, new_list)]) }
  | finish {n new_list} (h : s.tasks n = some ⟨new_list, []⟩) :
      Delivers s (.finish n) { s with tasks := update s.tasks n none }

variable {E L observers_}

/-- The inversion of `deliver`: an enabled step is one of `Delivers`. -/
theorem deliver_delivers {s s' : Delivering} {l : DeliveryLabel}
    (h : deliver E L observers_ s l = some s') : Delivers E L observers_ s l s' := by
  cases l with
  | write w => cases h; exact .write
  | update =>
      simp only [deliver] at h
      split at h
      · cases h; exact .update ‹_›
      · cases h
  | notify n =>
      simp only [deliver] at h
      split at h
      · cases h; exact .notify ‹_›
      · cases h
  | finish n =>
      simp only [deliver] at h
      split at h
      · cases h; exact .finish ‹_›
      · cases h

end System

/-! ### The newest list -/

/-- The list that a call has read, as the observers are to get it. -/
def Delivering.sites? (s : Delivering) (n : ℕ) : Option (List ContentSite) :=
  (s.calls[n]?).map fun list => list.map contentSite

/-- The tasks that are still to hand their lists to an observer have this one. -/
def Delivering.OnlyAwaits (s : Delivering) (o : Observer) (list : List ContentSite) : Prop :=
  ∀ n d, s.tasks n = some d → o ∈ d.remaining → d.new_list = list

/-- The task of the last call comes to an observer only when no task is still to hand another list
to that observer. -/
def InOrder (last : ℕ) (s : Delivering) : DeliveryLabel → Prop
  | .notify n => n = last → ∀ new_list o remaining, s.tasks n = some ⟨new_list, o :: remaining⟩ →
      s.OnlyAwaits o new_list
  | _ => True

/-- The invariant of the runs in order. -/
structure DeliveryInv (observers_ : List Observer) (last : ℕ) (s : Delivering) : Prop where
  /-- A task has the list of its call. -/
  task : ∀ n d, s.tasks n = some d → s.sites? n = some d.new_list
  /-- An observer has got the lists of calls. -/
  received : ∀ o n list, (n, list) ∈ s.received o → s.sites? n = some list
  /-- An observer that has got the list of the last call has got it last and waits for no other. -/
  newest : s.calls.length ≤ last + 1 → ∀ o list, (last, list) ∈ s.received o →
    (s.received o).getLast?.map Prod.snd = some list ∧ s.OnlyAwaits o list
  /-- The list of the last call is on its way to an observer, or the observer has got it. -/
  pending : ∀ o ∈ observers_, last < s.calls.length →
    (∃ list, (last, list) ∈ s.received o) ∨ ∃ d, s.tasks last = some d ∧ o ∈ d.remaining

lemma deliveryInv_init (observers_ : List Observer) (last : ℕ) (c : Conn) :
    DeliveryInv observers_ last ⟨c, [], fun _ => none, fun _ => [], false⟩ where
  task := fun n d h => by cases h
  received := fun o n list h => absurd h List.not_mem_nil
  newest := fun _ o list h => absurd h List.not_mem_nil
  pending := fun o _ h => absurd h (Nat.not_lt_zero _)

/-- The list of a call is still the same after another call. -/
lemma sites?_append {calls : List (List PublisherInfo)} {list : List PublisherInfo} {n : ℕ}
    {sites : List ContentSite}
    (h : (calls[n]?).map (fun list => list.map contentSite) = some sites) :
    ((calls ++ [list])[n]?).map (fun list => list.map contentSite) = some sites := by
  obtain ⟨read, hread, rfl⟩ := Option.map_eq_some_iff.mp h
  have hlt : n < calls.length := (List.getElem?_eq_some_iff.mp hread).1
  rw [List.getElem?_append_left hlt, hread]
  rfl

/-- A list that an observer has got, or that a task has, is one that a call has read. -/
lemma lt_of_sites? {s : Delivering} {n : ℕ} {sites : List ContentSite}
    (h : s.sites? n = some sites) : n < s.calls.length := by
  obtain ⟨read, hread, -⟩ := Option.map_eq_some_iff.mp h
  exact (List.getElem?_eq_some_iff.mp hread).1

open Function in
/-- A task that goes on to fewer observers makes none of them wait for another list. -/
lemma Delivering.OnlyAwaits.of_update {s : Delivering} {o : Observer} {list : List ContentSite}
    {n : ℕ} {d : Delivery} {d' : Option Delivery} (h : s.OnlyAwaits o list)
    (hn : s.tasks n = some d)
    (hd' : ∀ e ∈ d', e.new_list = d.new_list ∧ e.remaining ⊆ d.remaining) {s' : Delivering}
    (hs' : s'.tasks = update s.tasks n d') : s'.OnlyAwaits o list := by
  intro m e he ho
  rw [hs'] at he
  by_cases hmn : m = n
  · subst hmn
    rw [update_self] at he
    obtain ⟨hlist, hsub⟩ := hd' e he
    rw [hlist]
    exact h m d hn (hsub ho)
  · rw [update_of_ne hmn] at he
    exact h m e he ho

open Function in
/-- **The step lemma**: every step that meets the guard keeps the invariant. -/
theorem deliveryInv_step {E : Sqlite} {L : Ledger} {observers_ : List Observer}
    {last : ℕ} {s s' : Delivering} {l : DeliveryLabel} (h : DeliveryInv observers_ last s)
    (hok : InOrder last s l) (hs : Delivers E L observers_ s l s') :
    DeliveryInv observers_ last s' := by
  cases hs with
  | write => exact ⟨h.task, h.received, h.newest, h.pending⟩
  | @update list conn hread =>
      refine ⟨fun n d hd => ?_, fun o n sites hn => sites?_append (h.received o n sites hn),
        fun hlength o sites hgot => ?_, fun o ho hk => ?_⟩
      · by_cases hn : n = s.calls.length
        · subst hn
          obtain rfl : (⟨list.map contentSite, observers_⟩ : Delivery) = d :=
            Option.some.inj ((update_self s.calls.length _ s.tasks).symm.trans hd)
          simp [Delivering.sites?]
        · exact sites?_append (h.task n d ((update_of_ne hn ..).symm.trans hd))
      · -- the call of a list that has been got is no longer to come
        have hlt := lt_of_sites? (h.received o last sites hgot)
        rw [List.length_append, List.length_singleton] at hlength
        omega
      · dsimp only at hk
        rw [List.length_append, List.length_singleton] at hk
        rcases Nat.lt_succ_iff_lt_or_eq.mp hk with hk | rfl
        · rcases h.pending o ho hk with hgot | ⟨d, hd, hmem⟩
          · exact .inl hgot
          · exact .inr ⟨d, update_eq_of_ne _ hk.ne hd, hmem⟩
        · exact .inr ⟨_, update_self .., ho⟩
  | @notify n new_list o remaining hn =>
      have hkeeps : ∀ o' list, s.OnlyAwaits o' list → Delivering.OnlyAwaits { s with
          tasks := update s.tasks n (some ⟨new_list, remaining⟩)
          received := update s.received o (s.received o ++ [(n, new_list)]) } o' list :=
        fun o' list hawaits => hawaits.of_update hn (by simp) rfl
      refine ⟨fun m d hd => ?_, fun o' m sites hm => ?_, fun hlength o' sites hm => ?_,
        fun o' ho' hk => ?_⟩
      · by_cases hmn : m = n
        · subst hmn
          obtain rfl : (⟨new_list, remaining⟩ : Delivery) = d :=
            Option.some.inj ((update_self m _ s.tasks).symm.trans hd)
          exact h.task m ⟨new_list, o :: remaining⟩ hn
        · exact h.task m d ((update_of_ne hmn ..).symm.trans hd)
      · by_cases ho : o' = o
        · subst ho
          dsimp only at hm
          rw [update_self, List.mem_append, List.mem_singleton] at hm
          rcases hm with hm | hm
          · exact h.received o' m sites hm
          · cases hm
            exact h.task n _ hn
        · dsimp only at hm
          rw [update_of_ne ho] at hm
          exact h.received o' m sites hm
      · by_cases ho : o' = o
        · subst ho
          dsimp only at hm ⊢
          rw [update_self, List.mem_append, List.mem_singleton] at hm
          rw [update_self, List.getLast?_concat, Option.map_some, Option.some.injEq]
          rcases hm with hm | hm
          · -- the observer has the newest list: this task has the same one
            have hawaits := (h.newest hlength o' sites hm).2
            exact ⟨hawaits n _ hn List.mem_cons_self, hkeeps o' sites hawaits⟩
          · -- it gets the newest list: the guard says that it waits for no other
            cases hm
            exact ⟨rfl, hkeeps o' new_list (hok rfl new_list o' remaining hn)⟩
        · dsimp only at hm ⊢
          rw [update_of_ne ho] at hm ⊢
          obtain ⟨hlast, hawaits⟩ := h.newest hlength o' sites hm
          exact ⟨hlast, hkeeps o' sites hawaits⟩
      · have hgets : ∀ list, (last, list) ∈ s.received o' →
            (last, list) ∈ update s.received o (s.received o ++ [(n, new_list)]) o' := by
          intro list hlist
          by_cases ho : o' = o
          · subst ho
            rw [update_self]
            exact List.mem_append_left _ hlist
          · rwa [update_of_ne ho]
        rcases h.pending o' ho' hk with ⟨list, hlist⟩ | ⟨d, hd, hmem⟩
        · exact .inl ⟨list, hgets list hlist⟩
        · by_cases hln : last = n
          · subst hln
            obtain rfl := Option.some.inj (hn.symm.trans hd)
            rcases List.mem_cons.mp hmem with rfl | hmem
            · refine .inl ⟨new_list, ?_⟩
              dsimp only
              rw [update_self]
              exact List.mem_append_right _ (List.mem_singleton_self _)
            · exact .inr ⟨_, update_self .., hmem⟩
          · exact .inr ⟨d, update_eq_of_ne _ hln hd, hmem⟩
  | @finish n new_list hn =>
      refine ⟨fun m d hd => ?_, h.received, fun hlength o sites hgot => ?_, fun o ho hk => ?_⟩
      · exact h.task m d (of_update_eq hd (by simp)).2
      · obtain ⟨hlast, hawaits⟩ := h.newest hlength o sites hgot
        exact ⟨hlast, hawaits.of_update hn (by simp) rfl⟩
      · rcases h.pending o ho hk with hgot | ⟨d, hd, hmem⟩
        · exact .inl hgot
        · have hln : last ≠ n := by
            rintro rfl
            obtain rfl := Option.some.inj (hn.symm.trans hd)
            exact absurd hmem List.not_mem_nil
          exact .inr ⟨d, update_eq_of_ne _ hln hd, hmem⟩

/-! ### The end of a run -/

/-- The connection is one without failures, and the newest list is the one of its database. -/
structure FreshRead (E : Sqlite) (L : Ledger) (s : Delivering) : Prop where
  ready : s.conn.Ready
  quiet : s.conn.Quiet
  read : s.settled = true →
    s.calls.getLast? = some ((E.recurring s.conn.file).map (Donation.record L))

lemma freshRead_step {E : Sqlite} {L : Ledger} {observers_ : List Observer} {s s' : Delivering}
    {l : DeliveryLabel} (h : FreshRead E L s) (hs : Delivers E L observers_ s l s') :
    FreshRead E L s' := by
  cases hs with
  | @write w =>
      obtain ⟨c', hrun, hleaves⟩ := run_ready (E := E) h.ready w
      have hconn : (w.run E s.conn).2 = c' := by rw [hrun]
      exact ⟨hconn ▸ hleaves.ready, hconn ▸ hleaves.quiet h.quiet,
        fun hsettled => by cases hsettled⟩
  | @update list conn hread =>
      rw [getRecurringDonations_ready L h.ready (h.quiet 0), List.nil_append, Prod.mk.injEq,
        Except.ok.injEq] at hread
      obtain ⟨rfl, rfl⟩ := hread
      exact ⟨h.ready.next, h.quiet.next, fun _ => List.getLast?_concat⟩
  | notify | finish => exact ⟨h.ready, h.quiet, h.read⟩

/-- All tasks have finished, and the last call came after the last write. -/
def Settled (s : Delivering) : Prop := s.settled = true ∧ ∀ n, s.tasks n = none

/-- Every observer has got a list last. -/
def EndsWith (observers_ : List Observer) (list : List PublisherInfo) (s : Delivering) : Prop :=
  ∀ o ∈ observers_, (s.received o).getLast?.map Prod.snd = some (list.map contentSite)

/-- The list of the last call, when no task is left. -/
lemma DeliveryInv.endsWith {observers_ : List Observer} {last : ℕ} {s : Delivering}
    (h : DeliveryInv observers_ last s) (hcalls : s.calls.length = last + 1)
    (htasks : ∀ n, s.tasks n = none) {list : List PublisherInfo}
    (hlast : s.calls[last]? = some list) : EndsWith observers_ list s := by
  have hlt : last < s.calls.length := hcalls ▸ Nat.lt_succ_self last
  have hsites : s.sites? last = some (list.map contentSite) := by
    rw [Delivering.sites?, hlast, Option.map_some]
  intro o ho
  rcases h.pending o ho hlt with ⟨sites, hgot⟩ | ⟨d, hd, -⟩
  · have hread : s.sites? last = some sites := h.received o last sites hgot
    rw [(h.newest hcalls.le o sites hgot).1, ← hread, hsites]
  · rw [htasks] at hd
    cases hd

/-- **The observers**: in every run of writes, calls and deliveries in which the task of the last
call comes to an observer only after the tasks with other lists, once the last call has come after
the last write and all tasks have finished, every observer has got the list of the last call last.
On an initialised store without failures that list is the one which `GetRecurringDonations` reads
from the final database. -/
theorem ends_newest {E : Sqlite} {L : Ledger} {observers_ : List Observer} {c : Conn} {last : ℕ}
    {s : Delivering} (h : (delivering E L observers_ c).Reach (InOrder last) s)
    (hcalls : s.calls.length = last + 1) (hsettled : Settled s) :
    ∃ list, s.calls.getLast? = some list ∧ EndsWith observers_ list s ∧
      (c.Ready → c.Quiet → (getRecurringDonations E L [] s.conn).1 = .ok list) := by
  have hinv : DeliveryInv observers_ last s := h.invariant (deliveryInv_init observers_ last c)
    fun _ _ _ hinv hok hs => deliveryInv_step hinv hok (deliver_delivers hs)
  have hread : s.calls[last]? = some s.calls[last] := List.getElem?_eq_getElem _
  have hlast : s.calls.getLast? = some s.calls[last] := by
    rw [← hread, List.getLast?_eq_getElem?, hcalls, Nat.add_sub_cancel]
  refine ⟨s.calls[last], hlast, hinv.endsWith hcalls hsettled.2 hread, fun hready hquiet => ?_⟩
  have hinit : FreshRead E L (delivering E L observers_ c).init :=
    ⟨hready, hquiet, fun h => by cases h⟩
  have hfresh : FreshRead E L s := h.invariant hinit
    fun _ _ _ hfresh _ hs => freshRead_step hfresh (deliver_delivers hs)
  have hrecords := hfresh.read hsettled.1
  rw [hlast, Option.some.injEq] at hrecords
  rw [getRecurringDonations_ready L hfresh.ready (hfresh.quiet 0), hrecords]
  rfl

/-! ### Runs on a sample store -/

/-- The deliveries to two observers, from the sample store. -/
def sampleDelivering : System Delivering DeliveryLabel :=
  delivering reference sampleLedger [0, 1] (Conn.on sampleDb)

/-- The recording of a donation to the sample publisher. -/
def donate : DeliveryLabel := .write (.recurringDonation ⟨"brave.com", .val 5, 7⟩)

lemma inOrder_finish (last : ℕ) (s : Delivering) (n : ℕ) : InOrder last s (.finish n) := trivial

/-- The tasks of other calls may come to an observer at any time. -/
lemma inOrder_of_ne {last n : ℕ} (hne : n ≠ last) (s : Delivering) : InOrder last s (.notify n) :=
  fun h => absurd h hne

/-- Two calls with a donation between them, and the first delivery of the first task. -/
def inTurn : List DeliveryLabel := [.update, donate, .update, .notify 0]

lemma inOrder_inTurn : ∀ a ∈ inTurn, ∀ s, InOrder 1 s a := by
  intro a ha s
  simp only [inTurn, donate, List.mem_cons, List.not_mem_nil, or_false] at ha
  rcases ha with rfl | rfl | rfl | rfl
  · exact trivial
  · exact trivial
  · exact trivial
  · exact inOrder_of_ne (by decide) s

/-- The second of two tasks may come to an observer that the first one has no list for any more. -/
lemma inOrder_second {s : Delivering} {d₁ : Delivery} {d₀ : Option Delivery}
    (h₁ : s.tasks 1 = some d₁) (h₀ : s.tasks 0 = d₀) (hrest : ∀ n, s.tasks (n + 2) = none)
    (hpassed : ∀ d ∈ d₀, ∀ o ∈ d₁.remaining.head?, o ∉ d.remaining) : InOrder 1 s (.notify 1) := by
  intro _ new_list o remaining htask n d hd ho
  obtain rfl := Option.some.inj (h₁.symm.trans htask)
  match n with
  | 0 => exact absurd ho (hpassed d (h₀.symm.trans hd) o rfl)
  | 1 =>
      rw [← Option.some.inj (htask.symm.trans hd)]
  | n + 2 =>
      rw [hrest] at hd
      cases hd

/-- The second task comes to the first observer while the first task is still to come to the second
one. -/
lemma settled_inOrder :
    ∃ s, sampleDelivering.Reach (InOrder 1) s ∧ s.calls.length = 2 ∧ Settled s := by
  have hcall : sampleDelivering.run sampleDelivering.init inTurn = some _ := rfl
  have hcalled : sampleDelivering.Reach (InOrder 1) _ := .run .init inOrder_inTurn hcall
  have hfirst := hcalled.step (a := .notify 1)
    (inOrder_second rfl rfl (fun _ => rfl) (by simp)) rfl
  have hstale := hfirst.step (a := .notify 0) (inOrder_of_ne (by decide) _) rfl
  have hfinished := hstale.step (a := .finish 0) (inOrder_finish 1 _ 0) rfl
  have hsecond := hfinished.step (a := .notify 1)
    (inOrder_second rfl rfl (fun _ => rfl) (by simp)) rfl
  have hsettled := hsecond.step (a := .finish 1) (inOrder_finish 1 _ 1) rfl
  refine ⟨_, hsettled, rfl, rfl, fun n => ?_⟩
  match n with
  | 0 => rfl
  | 1 => rfl
  | n + 2 => rfl

/-- After two calls the observers have got the list of the second. -/
theorem ends_newest_two : ∃ s list, s.calls.length = 2 ∧ s.calls.getLast? = some list ∧
    EndsWith [0, 1] list s ∧
    (Conn.Ready (Conn.on sampleDb) → Conn.Quiet (Conn.on sampleDb) →
      (getRecurringDonations reference sampleLedger [] s.conn).1 = .ok list) := by
  obtain ⟨s, hreach, hcalls, hsettled⟩ := settled_inOrder
  obtain ⟨list, hlist⟩ := ends_newest hreach hcalls hsettled
  exact ⟨s, list, hcalls, hlist⟩

/-- Two calls with a donation between them, and their deliveries in the other order. -/
def outOfTurn : List DeliveryLabel :=
  [.update, donate, .update, .notify 1, .notify 1, .finish 1, .notify 0, .notify 0, .finish 0]

/-- The observer ends with the empty list of the first call. -/
lemma run_outOfTurn : ∃ s, sampleDelivering.run sampleDelivering.init outOfTurn = some s ∧
    Settled s ∧ s.calls.getLast?.map List.length = some 1 ∧
    (s.received 0).getLast?.map Prod.snd = some [] := by
  refine ⟨_, rfl, ⟨rfl, fun n => ?_⟩, rfl, rfl⟩
  match n with
  | 0 => rfl
  | 1 => rfl
  | n + 2 => rfl

/-- Two deliveries in the other order leave an observer with an old list. -/
theorem ends_stale : ¬ ∀ (E : Sqlite) (L : Ledger) (observers_ : List Observer) (c : Conn)
    (s : Delivering), c.Ready → c.Quiet → (delivering E L observers_ c).Reach System.Free s →
    Settled s → ∃ list, s.calls.getLast? = some list ∧ EndsWith observers_ list s := by
  intro hall
  obtain ⟨s, hrun, hsettled, hlength, hreceived⟩ := run_outOfTurn
  obtain ⟨list, hlast, hends⟩ := hall reference sampleLedger [0, 1] (Conn.on sampleDb) s
    sampleDb_ready (Conn.on_quiet _) (System.reach_of_run hrun) hsettled
  have hsites := (hends 0 List.mem_cons_self).symm.trans hreceived
  rw [hlast, Option.map_some, Option.some.injEq] at hlength
  rw [Option.some.injEq, List.map_eq_nil_iff] at hsites
  subst hsites
  cases hlength

end RewardsDriver.Service
