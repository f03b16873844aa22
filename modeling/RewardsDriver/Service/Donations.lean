import RewardsDriver.Service.Relay
import RewardsDriver.Store.Durable
import RewardsDriver.Store.Integrity

/-!
Donations and tips on their way through the service: `OnDonate`, the functions that save and remove,
and the lists that the observers are told of them.

What a function finds in the store, or has made of it, it leaves to a task of its own; the tasks go
on in any order, one event after the other, and some of them read the store again.

* `saveDonation`, `onDonate`, `updateRecurringDonationsList`, `tipsUpdated`, `Task`: the functions
  and their tasks.
* `donating`: the labelled transition system.
* `Proceeds`, `proceed_proceeds`: what one step can do, guard and result, for every label.
* `RefreshInv`, `refreshInv_step`, `refreshes`: **who has the lists read again**: the calls that ask
  for it and the removals, each once, and no donation.
* `ReadInv`, `readInv_step`, `donations_stay`: **a donation that has been told** stays in the lists.
-/

namespace RewardsDriver.Service.Donations

open RewardsDriver.Store RewardsDriver.Service.Relay

/-! ### The functions -/

/-- What a task has still to do. -/
inductive Task where
  /-- `OnPublisherInfoSaved`, `OnContributionInfoSaved` and their like. -/
  | saved (w : Write) (events : List Event)
  /-- `OnRecurringDonationsData` with the list of a reading, and `OnRecurringDonationUpdated`. -/
  | recurring (n : ℕ) (list : List PublisherInfo)
  /-- `OnTipsUpdatedData`. -/
  | tips (list : List PublisherInfo)

/-- What the ledger and the observers are told. -/
inductive Told where
  | callback (w : Write) (LEDGER_OK : Bool)
  | doDirectDonation (publisher_info : PublisherInfo) (amount : Int32) (currency : String)
  | contentSiteUpdated
  | recurringDonationUpdated (n : ℕ) (new_list : List ContentSite)
  | currentTips (new_list : List ContentSite)

/-- A reading of the recurring donations: the file that was read, and the operation whose task has
read it, if it was one. -/
structure Reading where
  file : Db
  cause : Option Write

/-- The service. `asked` and `removed` are the calls of `UpdateRecurringDonationsList` and of
`OnRemoveRecurring`, `readings` those of the recurring donations, and `tipsCauses` tells of the
readings of the tips which operation's task has made them. -/
structure State where
  conn : Conn
  tasks : List Task
  told : List Told
  asked : ℕ
  removed : ℕ
  readings : List Reading
  tipsCauses : List (Option Write)

/-- Whether an operation is that of `OnRemoveRecurring`. -/
def removals : Write → ℕ
  | .remove _ => 1
  | _ => 0

section Functions

variable (E : Sqlite) (L : Ledger)

/-- `SavePublisherInfo`, `SaveMediaPublisherInfo`, `SaveContributionInfo`, `SaveRecurringDonation`
and `OnRemoveRecurring`. There is no task when an exception gets out. -/
def saveDonation (w : Write) (s : State) : State :=
  let removed := s.removed + removals w
  match w.run E s.conn with
  | (.ok success, conn) =>
      { s with conn, tasks := s.tasks ++ [.saved w (w.onSaved L success)], removed }
  | (.error _, conn) => { s with conn, removed }

/-- `OnDonate`. -/
def onDonate (publisher_key : String) (amount : Int32) (recurring : Bool) (clock : Clock)
    (s : State) : State :=
  if recurring then
    saveDonation E L (.recurringDonation
      ⟨publisher_key, .val (WithBot.some (WithTop.some (Rat.ofInt amount.toInt))),
        clock.now.toUInt32⟩) s
  else
    { s with told := s.told ++ [.doDirectDonation (L.publisherInfo publisher_key L.ANY (-1)) amount
        "BAT"] }

/-- `UpdateRecurringDonationsList`, with `GetRecurringDonations`. -/
def updateRecurringDonationsList (cause : Option Write) (s : State) : State :=
  match getRecurringDonations E L [] s.conn with
  | (.ok pl, conn) =>
      { s with
        conn
        tasks := s.tasks ++ [.recurring s.readings.length pl]
        readings := s.readings ++ [⟨conn.file, cause⟩] }
  | (.error _, conn) => { s with conn }

/-- `UpdateTipsList` and `TipsUpdated`. -/
def tipsUpdated (cause : Option Write) (clock : Clock) (s : State) : State :=
  match getTips E L [] clock.month clock.year s.conn with
  | (.ok pl, conn) =>
      { s with conn, tasks := s.tasks ++ [.tips pl], tipsCauses := s.tipsCauses ++ [cause] }
  | (.error _, conn) => { s with conn }

/-- One event of a task of the operation `w`. -/
def happens (w : Write) (clock : Clock) (s : State) : Event → State
  | .callback success => { s with told := s.told ++ [.callback w success] }
  | .contentSiteUpdated => { s with told := s.told ++ [.contentSiteUpdated] }
  | .tipsUpdated => tipsUpdated E L (some w) clock s
  | .recurringDonationsListUpdated => updateRecurringDonationsList E L (some w) s

/-! ### Runs of the service -/

/-- A call from outside, or a task that goes on. -/
inductive Label where
  | save (w : Write)
  | donate (publisher_key : String) (amount : Int32) (recurring : Bool) (clock : Clock)
  | updateRecurringDonationsList
  | updateTipsList (clock : Clock)
  | task (i : ℕ) (clock : Clock)

/-- One step. The tasks are in no order. -/
def proceed (s : State) : Label → Option State
  | .save w => some (saveDonation E L w s)
  | .donate publisher_key amount recurring clock =>
      some (onDonate E L publisher_key amount recurring clock s)
  | .updateRecurringDonationsList =>
      some (updateRecurringDonationsList E L none { s with asked := s.asked + 1 })
  | .updateTipsList clock => some (tipsUpdated E L none clock s)
  | .task i clock =>
      let rest : State := { s with tasks := s.tasks.eraseIdx i }
      match s.tasks[i]? with
      | some (.saved w (e :: events)) =>
          some (happens E L w clock { rest with tasks := rest.tasks ++ [.saved w events] } e)
      | some (.saved _ []) => some rest
      | some (.recurring n list) =>
          some { rest with
            told := s.told ++ [.recurringDonationUpdated n (list.map contentSite)] }
      | some (.tips list) =>
          some { rest with told := s.told ++ [.currentTips (list.map contentSite)] }
      | none => none

/-- The service from a connection on. -/
def donating (c : Conn) : System State Label := ⟨⟨c, [], [], 0, 0, [], []⟩, proceed E L⟩

end Functions

/-! ### What one step can do -/

section Steps

variable (E : Sqlite) (L : Ledger)

/-- The enabled steps from `s`: the guard of each label and the state it leads to. -/
inductive Proceeds (s : State) : Label → State → Prop
  | save {w} : Proceeds s (.save w) (saveDonation E L w s)
  | donate {publisher_key amount recurring clock} :
      Proceeds s (.donate publisher_key amount recurring clock)
        (onDonate E L publisher_key amount recurring clock s)
  | update :
      Proceeds s .updateRecurringDonationsList
        (updateRecurringDonationsList E L none { s with asked := s.asked + 1 })
  | updateTips {clock} : Proceeds s (.updateTipsList clock) (tipsUpdated E L none clock s)
  | event {i clock w e events} (h : s.tasks[i]? = some (.saved w (e :: events))) :
      Proceeds s (.task i clock)
        (happens E L w clock { s with tasks := s.tasks.eraseIdx i ++ [.saved w events] } e)
  | ends {i clock w} (h : s.tasks[i]? = some (.saved w [])) :
      Proceeds s (.task i clock) { s with tasks := s.tasks.eraseIdx i }
  | tellsRecurring {i clock n list} (h : s.tasks[i]? = some (.recurring n list)) :
      Proceeds s (.task i clock) { s with
        tasks := s.tasks.eraseIdx i
        told := s.told ++ [.recurringDonationUpdated n (list.map contentSite)] }
  | tellsTips {i clock list} (h : s.tasks[i]? = some (.tips list)) :
      Proceeds s (.task i clock) { s with
        tasks := s.tasks.eraseIdx i
        told := s.told ++ [.currentTips (list.map contentSite)] }

variable {E L}

/-- The inversion of `proceed`: an enabled step is one of `Proceeds`. -/
theorem proceed_proceeds {s s' : State} {l : Label} (h : proceed E L s l = some s') :
    Proceeds E L s l s' := by
  cases l with
  | save w => cases h; exact .save
  | donate publisher_key amount recurring clock => cases h; exact .donate
  | updateRecurringDonationsList => cases h; exact .update
  | updateTipsList clock => cases h; exact .updateTips
  | task i clock =>
      simp only [proceed] at h
      split at h
      · cases h; exact .event ‹_›
      · cases h; exact .ends ‹_›
      · cases h; exact .tellsRecurring ‹_›
      · cases h; exact .tellsTips ‹_›
      · cases h

/-! ### What the functions find -/

/-- The recurring donations are read without an exception. -/
lemma getRecurringDonations_ok (c : Conn) :
    ∃ pl, getRecurringDonations E L [] c = (.ok pl, (getRecurringDonations E L [] c).2) := by
  rw [getRecurringDonations, DbM.tryCatch]
  split
  · exact ⟨_, rfl⟩
  · exact ⟨_, rfl⟩

/-- The tips are never found. -/
lemma getTips_empty {c : Conn} (h : c.Sound) (month year : Int32) :
    (getTips E L [] month year c).1 = .ok [] := by
  cases hinit : init E c with
  | mk r c' =>
      obtain ⟨-, -, hready, -⟩ := init_sound h hinit
      cases r with
      | error e => exact congrArg Prod.fst (DbM.tryCatch_error (DbM.bind_error hinit))
      | ok b =>
          cases b with
          | false => exact congrArg Prod.fst (Operation.gives_up L hinit (.getTips [] month year))
          | true =>
              have hsame : getTips E L [] month year c = getTips E L [] month year c' :=
                tryCatch_congr (bind_init hinit (hready rfl))
              rw [hsame, getTips_refused L (hready rfl)]

/-- A removal throws no exception. -/
lemma removeRecurring_ok (key : String) (c : Conn) :
    ∃ success, (Write.remove key).run E c = (.ok success, ((Write.remove key).run E c).2) := by
  show ∃ success, orFalse _ c = (_, (orFalse _ c).2)
  rw [orFalse, DbM.tryCatch]
  split
  · exact ⟨_, rfl⟩
  · exact ⟨_, rfl⟩

end Steps

/-! ### Who has the lists read again -/

/-- A task that is to have the recurring donations read. -/
def Task.refreshes : Task → Bool
  | .saved _ events => .recurringDonationsListUpdated ∈ events
  | _ => false

/-- What the task of an operation has still to do: it never has the tips read, and the recurring
donations at most once and after a removal only. -/
structure Leads (w : Write) (events : List Event) : Prop where
  tips : .tipsUpdated ∉ events
  once : events.count .recurringDonationsListUpdated ≤ 1
  removal : .recurringDonationsListUpdated ∈ events → ∃ key, w = .remove key

/-- The invariant of who has the lists read; `due` readings are about to be made. -/
structure RefreshInv (due : ℕ) (s : State) : Prop where
  sound : s.conn.Sound
  saved : ∀ w events, .saved w events ∈ s.tasks → Leads w events
  tips : ∀ list, .tips list ∈ s.tasks → list = []
  told : ∀ new_list, .currentTips new_list ∈ s.told → new_list = []
  causes : ∀ r ∈ s.readings, ∀ w, r.cause = some w → ∃ key, w = .remove key
  tipsCauses : ∀ cause ∈ s.tipsCauses, cause = none
  balance : s.readings.length + s.tasks.countP Task.refreshes + due = s.asked + s.removed

section Invariant

variable {E : Sqlite} {L : Ledger} {s s' : State} {due : ℕ}

/-- The tasks that go on are those of the task that is taken and the others. -/
lemma countP_eraseIdx {α : Type} {l : List α} {i : ℕ} {a : α} (h : l[i]? = some a)
    (p : α → Bool) : l.countP p = (l.eraseIdx i).countP p + if p a then 1 else 0 := by
  obtain ⟨hi, rfl⟩ := List.getElem?_eq_some_iff.mp h
  rw [← (List.getElem_cons_eraseIdx_perm hi).countP_eq p, List.countP_cons]

lemma leads_onSaved {c : Conn} (h : c.Sound) {w : Write} {success : Bool}
    (hrun : (w.run E c).1 = .ok success) : Leads w (w.onSaved L success) := by
  have hreturns : success = true → w.returns = true := by
    rintro rfl
    exact run_returns h hrun
  cases w with
  | publisherInfo info => exact ⟨by simp [Write.onSaved], by simp [Write.onSaved], by simp [Write.onSaved]⟩
  | mediaPublisherInfo media_key publisher_id =>
      exact ⟨by simp [Write.onSaved], by simp [Write.onSaved], by simp [Write.onSaved]⟩
  | remove key =>
      exact ⟨by simp [Write.onSaved], by simp [Write.onSaved], fun _ => ⟨key, rfl⟩⟩
  | contributionInfo info | recurringDonation info =>
      obtain rfl : success = false := by
        cases success with
        | false => rfl
        | true => exact absurd (hreturns rfl) (by simp [Write.returns])
      exact ⟨by simp [Write.onSaved], by simp [Write.onSaved], by simp [Write.onSaved]⟩

/-- `SaveRecurringDonation` and the others. -/
lemma RefreshInv.save (h : RefreshInv 0 s) (w : Write) : RefreshInv 0 (saveDonation E L w s) := by
  have hsound := (run_outcome (E := E) h.sound w).1
  have hleads : ∀ success, (w.run E s.conn).1 = .ok success → Leads w (w.onSaved L success) :=
    fun success => leads_onSaved h.sound
  have hremoval : ∀ e, (w.run E s.conn).1 = .error e → removals w = 0 := by
    intro e he
    cases w with
    | remove key =>
        obtain ⟨success, hok⟩ := removeRecurring_ok (E := E) key s.conn
        rw [hok] at he
        cases he
    | _ => rfl
  have hbalance := h.balance
  rw [saveDonation]
  cases hrun : w.run E s.conn with
  | mk r conn =>
      rw [hrun] at hsound hleads hremoval
      cases r with
      | error e =>
          have hzero := hremoval e rfl
          exact ⟨hsound, h.saved, h.tips, h.told, h.causes, h.tipsCauses, by simpa [hzero] using hbalance⟩
      | ok success =>
          have hwrites := hleads success rfl
          have hcount : (if Task.refreshes (.saved w (w.onSaved L success)) then 1 else 0)
              = removals w := by
            cases w with
            | contributionInfo info | recurringDonation info =>
                rw [if_neg]
                · rfl
                · intro hrefreshes
                  obtain ⟨key, hkey⟩ := hwrites.removal (by simpa [Task.refreshes] using hrefreshes)
                  cases hkey
            | _ => rfl
          refine ⟨hsound, fun w' events hmem => ?_, fun list hmem => ?_, h.told, h.causes,
            h.tipsCauses, ?_⟩
          · obtain hmem | hmem := List.mem_append.mp hmem
            · exact h.saved w' events hmem
            · cases List.mem_singleton.mp hmem
              exact hwrites
          · simp only [List.mem_append, List.mem_singleton, reduceCtorEq, or_false] at hmem
            exact h.tips list hmem
          · simp only [List.countP_append, List.countP_singleton, hcount]
            omega

/-- A reading that is due is made. -/
lemma RefreshInv.update (h : RefreshInv 1 s) {cause : Option Write}
    (hcause : ∀ w, cause = some w → ∃ key, w = .remove key) :
    RefreshInv 0 (updateRecurringDonationsList E L cause s) := by
  obtain ⟨pl, hread⟩ := getRecurringDonations_ok (E := E) (L := L) s.conn
  obtain ⟨hsound, -⟩ := read_outcome (E := E) (L := L) h.sound (.getRecurringDonations []) trivial
  have heq : updateRecurringDonationsList E L cause s = { s with
      conn := (getRecurringDonations E L [] s.conn).2
      tasks := s.tasks ++ [.recurring s.readings.length pl]
      readings := s.readings ++ [⟨(getRecurringDonations E L [] s.conn).2.file, cause⟩] } := by
    rw [updateRecurringDonationsList, hread]
  rw [heq]
  refine ⟨hsound, fun w events hmem => ?_, fun list hmem => ?_, h.told, fun r hr w hw => ?_,
    h.tipsCauses, ?_⟩
  · simp only [List.mem_append, List.mem_singleton, reduceCtorEq, or_false] at hmem
    exact h.saved w events hmem
  · simp only [List.mem_append, List.mem_singleton, reduceCtorEq, or_false] at hmem
    exact h.tips list hmem
  · obtain hr | hr := List.mem_append.mp hr
    · exact h.causes r hr w hw
    · obtain rfl := List.mem_singleton.mp hr
      exact hcause w hw
  · have hbalance := h.balance
    simp only [List.length_append, List.length_singleton, List.countP_append, List.countP_singleton,
      Task.refreshes]
    simp only [Bool.false_eq_true, if_false]
    omega

/-- The tips are read. -/
lemma RefreshInv.updateTips (h : RefreshInv 0 s) (clock : Clock) :
    RefreshInv 0 (tipsUpdated E L none clock s) := by
  have hempty := getTips_empty (E := E) (L := L) h.sound clock.month clock.year
  obtain ⟨hsound, -⟩ := read_outcome (E := E) (L := L) h.sound
    (.getTips [] clock.month clock.year) trivial
  have heq : tipsUpdated E L none clock s = { s with
      conn := (getTips E L [] clock.month clock.year s.conn).2
      tasks := s.tasks ++ [.tips []]
      tipsCauses := s.tipsCauses ++ [none] } := by
    rw [tipsUpdated]
    cases hrun : getTips E L [] clock.month clock.year s.conn with
    | mk r conn =>
        rw [hrun] at hempty
        cases hempty
        rfl
  rw [heq]
  refine ⟨hsound, fun w events hmem => ?_, fun list hmem => ?_, h.told, h.causes,
    fun cause hmem => ?_, ?_⟩
  · simp only [List.mem_append, List.mem_singleton, reduceCtorEq, or_false] at hmem
    exact h.saved w events hmem
  · obtain hmem | hmem := List.mem_append.mp hmem
    · exact h.tips list hmem
    · cases List.mem_singleton.mp hmem
      rfl
  · obtain hmem | hmem := List.mem_append.mp hmem
    · exact h.tipsCauses cause hmem
    · exact List.mem_singleton.mp hmem
  · have hbalance := h.balance
    simp only [List.countP_append, List.countP_singleton, Task.refreshes]
    simp only [Bool.false_eq_true, if_false]
    omega

/-- What is told of anything but tips changes nothing. -/
lemma RefreshInv.tell (h : RefreshInv due s) {t : Told} (ht : ∀ new_list, t ≠ .currentTips new_list) :
    RefreshInv due { s with told := s.told ++ [t] } :=
  ⟨h.sound, h.saved, h.tips, fun new_list hmem => by
    obtain hmem | hmem := List.mem_append.mp hmem
    · exact h.told new_list hmem
    · exact absurd (List.mem_singleton.mp hmem).symm (ht new_list), h.causes, h.tipsCauses, h.balance⟩

/-- A task is over. -/
lemma RefreshInv.erase (h : RefreshInv 0 s) {i : ℕ} {t : Task} (ht : s.tasks[i]? = some t)
    (hrefreshes : t.refreshes = false) : RefreshInv 0 { s with tasks := s.tasks.eraseIdx i } := by
  have hbalance := h.balance
  rw [countP_eraseIdx ht, hrefreshes] at hbalance
  exact ⟨h.sound, fun w events hmem => h.saved w events (List.mem_of_mem_eraseIdx hmem),
    fun list hmem => h.tips list (List.mem_of_mem_eraseIdx hmem), h.told, h.causes, h.tipsCauses,
    hbalance⟩

/-- A task goes on to its next event, which makes a reading due or none. -/
lemma RefreshInv.goOn (h : RefreshInv 0 s) {i : ℕ} {w : Write} {e : Event} {events : List Event}
    (ht : s.tasks[i]? = some (.saved w (e :: events))) :
    RefreshInv (if e = .recurringDonationsListUpdated then 1 else 0)
      { s with tasks := s.tasks.eraseIdx i ++ [.saved w events] } := by
  have hleads := h.saved w _ (List.mem_of_getElem? ht)
  have hbalance := h.balance
  rw [countP_eraseIdx ht] at hbalance
  have hcount : (if Task.refreshes (.saved w (e :: events)) then 1 else 0)
      = (if Task.refreshes (.saved w events) then 1 else 0)
        + if e = .recurringDonationsListUpdated then 1 else 0 := by
    have honce := hleads.once
    by_cases he : e = .recurringDonationsListUpdated
    · subst he
      rw [List.count_cons_self] at honce
      have hnot : .recurringDonationsListUpdated ∉ events :=
        List.count_eq_zero.mp (by omega)
      simp [Task.refreshes, hnot]
    · have hne : Event.recurringDonationsListUpdated ≠ e := fun heq => he heq.symm
      simp [Task.refreshes, he, hne]
  refine ⟨h.sound, fun w' events' hmem => ?_, fun list hmem => ?_, h.told, h.causes,
    h.tipsCauses, ?_⟩
  · obtain hmem | hmem := List.mem_append.mp hmem
    · exact h.saved w' events' (List.mem_of_mem_eraseIdx hmem)
    · cases List.mem_singleton.mp hmem
      exact ⟨fun htips => hleads.tips (List.mem_cons_of_mem e htips),
        (List.count_le_count_cons).trans hleads.once,
        fun hmem => hleads.removal (List.mem_cons_of_mem e hmem)⟩
  · simp only [List.mem_append, List.mem_singleton, reduceCtorEq, or_false] at hmem
    exact h.tips list (List.mem_of_mem_eraseIdx hmem)
  · simp only [List.countP_append, List.countP_singleton]
    omega

/-- **The step lemma**: every step keeps the invariant. -/
theorem refreshInv_step {l : Label} (h : RefreshInv 0 s) (hs : Proceeds E L s l s') :
    RefreshInv 0 s' := by
  cases hs with
  | save => exact h.save _
  | @donate publisher_key amount recurring clock =>
      rw [onDonate]
      split
      · exact h.save _
      · exact h.tell fun new_list heq => by cases heq
  | update =>
      have hdue : RefreshInv 1 { s with asked := s.asked + 1 } :=
        ⟨h.sound, h.saved, h.tips, h.told, h.causes, h.tipsCauses, by
          have hbalance := h.balance
          show s.readings.length + s.tasks.countP Task.refreshes + 1 = s.asked + 1 + s.removed
          omega⟩
      exact hdue.update fun w hw => by cases hw
  | updateTips => exact h.updateTips _
  | @event i clock w e events ht =>
      have hleads := h.saved w _ (List.mem_of_getElem? ht)
      have hgoes := h.goOn ht
      cases e with
      | callback success => exact hgoes.tell fun new_list heq => by cases heq
      | contentSiteUpdated => exact hgoes.tell fun new_list heq => by cases heq
      | tipsUpdated => exact absurd List.mem_cons_self hleads.tips
      | recurringDonationsListUpdated =>
          refine RefreshInv.update hgoes fun w' hw' => ?_
          obtain rfl := Option.some.inj hw'
          exact hleads.removal List.mem_cons_self
  | ends ht => exact h.erase ht rfl
  | tellsRecurring ht => exact (h.erase ht rfl).tell fun new_list heq => by cases heq
  | @tellsTips i clock list ht =>
      obtain rfl := h.tips list (List.mem_of_getElem? ht)
      obtain ⟨hsound, hsaved, htips, htold, hcauses, htipsCauses, hbalance⟩ := h.erase ht rfl
      refine ⟨hsound, hsaved, htips, fun new_list hmem => ?_, hcauses, htipsCauses, hbalance⟩
      obtain hmem | hmem := List.mem_append.mp hmem
      · exact htold new_list hmem
      · cases List.mem_singleton.mp hmem
        rfl

/-- **Who has the lists read again**: in every run, whatever fails in it and in whatever order the
tasks go on, the recurring donations are read once for each call that asks for it and once for each
removal, for no other operation, and the tips for no operation at all. What the observers are told
of the tips is never anything. -/
theorem refreshes {c : Conn} (hc : c.Sound) (h : (donating E L c).Reach System.Free s) :
    s.readings.length + s.tasks.countP Task.refreshes = s.asked + s.removed ∧
      (∀ r ∈ s.readings, ∀ w, r.cause = some w → ∃ key, w = .remove key) ∧
      (∀ cause ∈ s.tipsCauses, cause = none) ∧
      ∀ new_list, .currentTips new_list ∈ s.told → new_list = [] := by
  have hinit : RefreshInv 0 (donating E L c).init := by
    refine ⟨hc, fun w events hmem => ?_, fun list hmem => ?_, fun new_list hmem => ?_,
      fun r hmem => ?_, fun cause hmem => ?_, rfl⟩
    all_goals exact absurd hmem List.not_mem_nil
  have hinv : RefreshInv 0 s := h.invariant hinit
    fun _ _ _ hinv _ hs => refreshInv_step hinv (proceed_proceeds hs)
  exact ⟨hinv.balance, hinv.causes, hinv.tipsCauses, hinv.told⟩

end Invariant

/-! ### The donations that are told -/

/-- The store lists the donation to a publisher: it has the donation, and it knows the publisher. -/
def Lists (db : Db) (key : String) : Prop :=
  (db.recurring_donation.row? key).isSome = true ∧ db.known key = true

/-- The rows decide what is listed. -/
lemma lists_of_contents {db db' : Db} (h : db'.contents = db.contents) {key : String}
    (hkey : Lists db key) : Lists db' key := by
  have hdonations : db'.contents.recurring_donation = db.contents.recurring_donation := by rw [h]
  have hpublishers : db'.contents.publisher_info = db.contents.publisher_info := by rw [h]
  simp only [Db.contents] at hdonations hpublishers
  rw [Lists, Db.known, hdonations, hpublishers]
  exact hkey

/-- **No operation** ends the listing of a donation. -/
lemma lists_apply {db : Db} {key : String} (h : Lists db key) (w : Write) :
    Lists (w.apply db) key := by
  obtain ⟨hdonation, hknown⟩ := h
  cases w with
  | publisherInfo info => exact ⟨hdonation, known_replace info.publisherRow hknown⟩
  | recurringDonation info =>
      refine ⟨?_, hknown⟩
      show (UniqueTable.row? (db.recurring_donation.replace info.row) key).isSome = true
      by_cases hkey : key = info.row.publisher_id
      · rw [hkey, UniqueTable.row?_replace_self]
        rfl
      · rw [UniqueTable.row?_replace_of_ne hkey]
        exact hdonation
  | mediaPublisherInfo | contributionInfo | remove => exact ⟨hdonation, hknown⟩

/-- What the observers are told of a file. -/
def sites (E : Sqlite) (L : Ledger) (db : Db) : List ContentSite :=
  ((E.recurring db).map (Donation.record L)).map contentSite

/-- The listed publishers are those of the records. -/
lemma lists_iff {E : Sqlite} {L : Ledger} {db : Db} {key : String} :
    Lists db key ↔ ∃ site ∈ sites E L db, site.id = key := by
  have hdonation : Lists db key ↔ (db.donation key).isSome = true := by
    rw [Lists, Db.donation, Db.known]
    cases hd : db.recurring_donation.row? key with
    | none => simp
    | some d =>
        have hid : d.publisher_id = key := (UniqueTable.row?_eq_some.mp hd).2
        simp [hid]
  have hfilter := filter_recurring (E := E) L db key
  rw [hdonation, sites]
  constructor
  · intro hsome
    obtain ⟨d, hd⟩ := Option.isSome_iff_exists.mp hsome
    have hmem : d.record L ∈ ((E.recurring db).map (Donation.record L)).filter
        fun info => info.id = key := by
      rw [hfilter, hd]
      exact List.mem_singleton_self _
    obtain ⟨hrecord, hkey⟩ := List.mem_filter.mp hmem
    exact ⟨contentSite (d.record L), List.mem_map_of_mem hrecord, of_decide_eq_true hkey⟩
  · rintro ⟨site, hsite, hkey⟩
    obtain ⟨info, hinfo, rfl⟩ := List.mem_map.mp hsite
    have hid : info.id = key := hkey
    have hmem : info ∈ ((E.recurring db).map (Donation.record L)).filter fun info => info.id = key :=
      List.mem_filter.mpr ⟨hinfo, decide_eq_true hid⟩
    rw [hfilter] at hmem
    cases hd : db.donation key with
    | none => simp [hd] at hmem
    | some d => rfl

/-- The invariant of what is read and told, in an environment without failures. -/
structure ReadInv (E : Sqlite) (L : Ledger) (s : State) : Prop where
  sound : s.conn.Sound
  quiet : s.conn.Quiet
  /-- What has been listed once is listed now. -/
  listed : ∀ r ∈ s.readings, ∀ key, Lists r.file key → Lists s.conn.file key
  grows : s.readings.Pairwise fun r r' => ∀ key, Lists r.file key → Lists r'.file key
  /-- Every list is that of its reading. -/
  task : ∀ n list, .recurring n list ∈ s.tasks →
    (s.readings[n]?).map (fun r => sites E L r.file) = some (list.map contentSite)
  told : ∀ n new_list, .recurringDonationUpdated n new_list ∈ s.told →
    (s.readings[n]?).map (fun r => sites E L r.file) = some new_list

section Reads

variable {E : Sqlite} {L : Ledger} {s s' : State}

/-- A change of the connection that ends no listing. -/
lemma ReadInv.conn (h : ReadInv E L s) {conn : Conn} (hsound : conn.Sound) (hquiet : conn.Quiet)
    (hkeeps : ∀ key, Lists s.conn.file key → Lists conn.file key) :
    ReadInv E L { s with conn } :=
  ⟨hsound, hquiet, fun r hr key hkey => hkeeps key (h.listed r hr key hkey), h.grows, h.task, h.told⟩

/-- Other tasks, other things told. -/
lemma ReadInv.others (h : ReadInv E L s) {tasks : List Task} {told : List Told} {asked removed : ℕ}
    {tipsCauses : List (Option Write)}
    (htasks : ∀ n list, .recurring n list ∈ tasks → .recurring n list ∈ s.tasks)
    (htold : ∀ n new_list, .recurringDonationUpdated n new_list ∈ told →
      .recurringDonationUpdated n new_list ∈ s.told ∨
        ∃ list, .recurring n list ∈ s.tasks ∧ new_list = list.map contentSite) :
    ReadInv E L { s with tasks, told, asked, removed, tipsCauses } :=
  ⟨h.sound, h.quiet, h.listed, h.grows, fun n list hmem => h.task n list (htasks n list hmem),
    fun n new_list hmem => by
      obtain hmem | ⟨list, htask, rfl⟩ := htold n new_list hmem
      · exact h.told n new_list hmem
      · exact h.task n list htask⟩

lemma ReadInv.save (h : ReadInv E L s) (w : Write) : ReadInv E L (saveDonation E L w s) := by
  obtain ⟨hsound, hrows, -, hquiet⟩ := run_outcome (E := E) h.sound w
  obtain ⟨hserves, hquiet⟩ := hquiet h.quiet
  rw [if_pos hserves, ← Db.contents_apply] at hrows
  have hconn := h.conn hsound hquiet fun key hkey => lists_of_contents hrows (lists_apply hkey w)
  rw [saveDonation]
  cases hrun : w.run E s.conn with
  | mk r conn =>
      rw [hrun] at hconn
      cases r with
      | error e => exact hconn.others (fun n list hmem => hmem) fun n new_list hmem => .inl hmem
      | ok success =>
          refine hconn.others (fun n list hmem => ?_) fun n new_list hmem => .inl hmem
          simpa using hmem

/-- The connection that a read leaves. -/
lemma ReadInv.read (h : ReadInv E L s) (op : Operation) (hop : op.Reads) :
    ReadInv E L { s with conn := op.conn E L s.conn } := by
  obtain ⟨hsound, hrows, hquiet⟩ := read_outcome (E := E) (L := L) h.sound op hop
  exact h.conn hsound (hquiet h.quiet) fun key hkey => lists_of_contents hrows hkey

/-- The recurring donations are read as the store has them. -/
lemma getRecurringDonations_sites {c : Conn} (hc : c.Sound) (hquiet : c.Quiet) :
    ∃ pl, getRecurringDonations E L [] c = (.ok pl, (getRecurringDonations E L [] c).2) ∧
      pl.map contentSite = sites E L (getRecurringDonations E L [] c).2.file := by
  cases hinit : init E c with
  | mk r c' =>
      obtain ⟨-, -, hready, hquiets⟩ := init_sound hc hinit
      obtain ⟨rfl, hquiet'⟩ := hquiets hquiet
      have hsame : getRecurringDonations E L [] c = getRecurringDonations E L [] c' :=
        tryCatch_congr (bind_init hinit (hready rfl))
      have hread := getRecurringDonations_ready (E := E) L (hready rfl) (hquiet' 0) []
      rw [hsame, hread]
      exact ⟨_, rfl, rfl⟩

lemma ReadInv.update (h : ReadInv E L s) (cause : Option Write) :
    ReadInv E L (updateRecurringDonationsList E L cause s) := by
  obtain ⟨pl, hrun, hsites⟩ := getRecurringDonations_sites (E := E) (L := L) h.sound h.quiet
  have hread := h.read (.getRecurringDonations []) trivial
  have hconn : Operation.conn E L s.conn (.getRecurringDonations [])
      = (getRecurringDonations E L [] s.conn).2 := rfl
  rw [hconn] at hread
  rw [updateRecurringDonationsList, hrun]
  generalize (getRecurringDonations E L [] s.conn).2 = conn at hread hsites
  -- The earlier readings are where they were.
  have hearlier : ∀ (n : ℕ) (new_list : List ContentSite),
      (s.readings[n]?).map (fun r => sites E L r.file) = some new_list →
      ((s.readings ++ [(⟨conn.file, cause⟩ : Reading)])[n]?).map (fun r => sites E L r.file)
        = some new_list := by
    intro n new_list hn
    obtain ⟨r, hr, rfl⟩ := Option.map_eq_some_iff.mp hn
    have hlt : n < s.readings.length := (List.getElem?_eq_some_iff.mp hr).1
    rw [List.getElem?_append_left hlt, hr]
    rfl
  refine ⟨hread.sound, hread.quiet, fun r hr key hkey => ?_, ?_, fun n list hmem => ?_,
    fun n new_list hmem => hearlier n new_list (h.told n new_list hmem)⟩
  · obtain hr | hr := List.mem_append.mp hr
    · exact hread.listed r hr key hkey
    · obtain rfl := List.mem_singleton.mp hr
      exact hkey
  · refine List.pairwise_append.mpr ⟨h.grows, List.pairwise_singleton _ _, fun r hr r' hr' => ?_⟩
    obtain rfl := List.mem_singleton.mp hr'
    exact hread.listed r hr
  · obtain hmem | hmem := List.mem_append.mp hmem
    · exact hearlier n _ (h.task n list hmem)
    · cases List.mem_singleton.mp hmem
      rw [List.getElem?_append_right le_rfl, Nat.sub_self, hsites]
      rfl

lemma ReadInv.updateTips (h : ReadInv E L s) (cause : Option Write) (clock : Clock) :
    ReadInv E L (tipsUpdated E L cause clock s) := by
  have hread := h.read (.getTips [] clock.month clock.year) trivial
  have hconn : Operation.conn E L s.conn (.getTips [] clock.month clock.year)
      = (getTips E L [] clock.month clock.year s.conn).2 := rfl
  rw [hconn] at hread
  rw [tipsUpdated]
  cases hrun : getTips E L [] clock.month clock.year s.conn with
  | mk r conn =>
      rw [hrun] at hread
      cases r with
      | error e => exact hread
      | ok pl =>
          refine hread.others (fun n list hmem => ?_) fun n new_list hmem => .inl hmem
          simpa using hmem

/-- **The step lemma**: every step keeps the invariant. -/
theorem readInv_step {l : Label} (h : ReadInv E L s) (hs : Proceeds E L s l s') :
    ReadInv E L s' := by
  have herase : ∀ i n list, .recurring n list ∈ s.tasks.eraseIdx i → .recurring n list ∈ s.tasks :=
    fun i n list hmem => List.mem_of_mem_eraseIdx hmem
  cases hs with
  | save => exact h.save _
  | @donate publisher_key amount recurring clock =>
      rw [onDonate]
      split
      · exact h.save _
      · refine h.others (fun n list hmem => hmem) fun n new_list hmem => .inl ?_
        simpa using hmem
  | update =>
      have hasked : ReadInv E L { s with asked := s.asked + 1 } :=
        h.others (fun n list hmem => hmem) fun n new_list hmem => .inl hmem
      exact hasked.update none
  | updateTips => exact h.updateTips none _
  | @event i clock w e events ht =>
      have hgoes : ReadInv E L { s with tasks := s.tasks.eraseIdx i ++ [.saved w events] } := by
        refine h.others (fun n list hmem => herase i n list ?_) fun n new_list hmem => .inl hmem
        simpa using hmem
      cases e with
      | callback success =>
          refine hgoes.others (fun n list hmem => hmem) fun n new_list hmem => .inl ?_
          simpa using hmem
      | contentSiteUpdated =>
          refine hgoes.others (fun n list hmem => hmem) fun n new_list hmem => .inl ?_
          simpa using hmem
      | tipsUpdated => exact hgoes.updateTips (some w) clock
      | recurringDonationsListUpdated => exact hgoes.update (some w)
  | ends ht => exact h.others (herase _) fun n new_list hmem => .inl hmem
  | @tellsRecurring i clock m list ht =>
      refine h.others (herase i) fun n new_list hmem => ?_
      obtain hmem | hmem := List.mem_append.mp hmem
      · exact .inl hmem
      · cases List.mem_singleton.mp hmem
        exact .inr ⟨list, List.mem_of_getElem? ht, rfl⟩
  | tellsTips ht =>
      refine h.others (herase _) fun n new_list hmem => .inl ?_
      simpa using hmem

/-- **A donation that has been told** stays in the lists: in every run without failures of
statements, whatever is saved and removed and in whatever order the tasks go on, a publisher of a
list that the observers have been told is in every such list that was read later. -/
theorem donations_stay {c : Conn} (hc : c.Sound) (hquiet : c.Quiet)
    (h : (donating E L c).Reach System.Free s) {n m : ℕ} {new_list new_list' : List ContentSite}
    (hn : .recurringDonationUpdated n new_list ∈ s.told)
    (hm : .recurringDonationUpdated m new_list' ∈ s.told) (hnm : n ≤ m) :
    ∀ site ∈ new_list, ∃ site' ∈ new_list', site'.id = site.id := by
  have hinit : ReadInv E L (donating E L c).init := by
    refine ⟨hc, hquiet, fun r hmem => ?_, List.Pairwise.nil, fun n list hmem => ?_,
      fun n new_list hmem => ?_⟩
    all_goals exact absurd hmem List.not_mem_nil
  have hinv : ReadInv E L s := h.invariant hinit
    fun _ _ _ hinv _ hs => readInv_step hinv (proceed_proceeds hs)
  obtain ⟨r, hr, rfl⟩ := Option.map_eq_some_iff.mp (hinv.told n new_list hn)
  obtain ⟨r', hr', rfl⟩ := Option.map_eq_some_iff.mp (hinv.told m new_list' hm)
  intro site hsite
  have hlists : Lists r.file site.id := lists_iff.mpr ⟨site, hsite, rfl⟩
  obtain hlt | rfl := Nat.lt_or_eq_of_le hnm
  · obtain ⟨hnlt, rfl⟩ := List.getElem?_eq_some_iff.mp hr
    obtain ⟨hmlt, rfl⟩ := List.getElem?_eq_some_iff.mp hr'
    have hgrows := List.pairwise_iff_getElem.mp hinv.grows n m hnlt hmlt hlt
    exact lists_iff.mp (hgrows site.id hlists)
  · rw [hr, Option.some.injEq] at hr'
    exact ⟨site, hr' ▸ hsite, rfl⟩

end Reads

/-! ### A donation that is removed -/

/-- A clock. -/
def noon : Clock := ⟨7, 10, 2018⟩

/-- A donation is made, listed and removed, and listed again by the task of the removal. -/
def givenAndRemoved : List Label :=
  [.donate "brave.com" 5 true noon, .updateRecurringDonationsList, .task 1 noon,
    .save (.remove "brave.com"), .task 1 noon, .task 1 noon, .task 2 noon]

/-- The service on a store with one publisher. -/
abbrev sampleDonating : System State Label := donating reference sampleLedger (Conn.on sampleDb)

theorem refreshes_removed : ∃ s, sampleDonating.run sampleDonating.init givenAndRemoved = some s ∧
    s.readings.length + s.tasks.countP Task.refreshes = s.asked + s.removed ∧
      (∀ r ∈ s.readings, ∀ w, r.cause = some w → ∃ key, w = .remove key) ∧
      (∀ cause ∈ s.tipsCauses, cause = none) ∧
      ∀ new_list, .currentTips new_list ∈ s.told → new_list = [] :=
  ⟨_, rfl, refreshes sampleDb_ready.sound (System.reach_of_run
    (show sampleDonating.run sampleDonating.init givenAndRemoved = some _ from rfl))⟩

/-- The donation is still told after its removal. -/
theorem donations_stay_removed : ∃ s new_list new_list',
    sampleDonating.run sampleDonating.init givenAndRemoved = some s ∧
      s.told = [.recurringDonationUpdated 0 new_list, .callback (.remove "brave.com") false,
        .recurringDonationUpdated 1 new_list'] ∧
      ∀ site ∈ new_list, ∃ site' ∈ new_list', site'.id = site.id :=
  ⟨_, _, _, rfl, rfl, donations_stay (n := 0) (m := 1) sampleDb_ready.sound (Conn.on_quiet _)
    (System.reach_of_run
      (show sampleDonating.run sampleDonating.init givenAndRemoved = some _ from rfl))
    List.mem_cons_self (List.mem_cons_of_mem _ (List.mem_cons_of_mem _ List.mem_cons_self))
    (Nat.zero_le 1)⟩

end RewardsDriver.Service.Donations
