import RewardsDriver.Store.Tips

/-!
The references between the tables of the store.

Four tables refer to `publisher_info` by a foreign key, which SQLite does not enforce on this
connection. What an operation refers to has to be there already.

* `Db.Intact`, `Db.JoinsKeepRows`, `intact_iff_joins`: every reference has its publisher, that is,
  **no join drops a row**.
* `Write.refersTo`, `intact_apply_iff`: the step lemma, what a write refers to is known.
* `Upheld`, `GroundedRun`, `upheld_iff`: the references hold after every operation of a run if and
  only if every operation is `Grounded`.
-/

namespace RewardsDriver.Store

/-! ### References and joins -/

/-- Whether an id has a publisher. -/
def Db.known (db : Db) (id : String) : Bool := (db.publisher_info.row? id).isSome

/-- Every row of the four tables refers to a publisher. -/
structure Db.Intact (db : Db) : Prop where
  activity_info : ∀ r ∈ db.activity_info, db.known r.publisher_id = true
  media_publisher_info : ∀ r ∈ db.media_publisher_info, db.known r.publisher_id = true
  contribution_info : ∀ r ∈ db.contribution_info, db.known r.publisher_id = true
  recurring_donation : ∀ r ∈ db.recurring_donation, db.known r.publisher_id = true

/-- The joins of `Find`, `GetMediaPublisherInfo`, `GetTips` and `GetRecurringDonations` have every
row of their tables. -/
structure Db.JoinsKeepRows (db : Db) : Prop where
  find : db.joined.map Joined.ai = db.activity_info
  media : ∀ r ∈ db.media_publisher_info, (db.mediaPublisher r.media_key).isSome = true
  tips : db.tips.map Tip.ci = db.contribution_info
  donations : db.donations.map Donation.rd = db.recurring_donation.rows

section Join

variable {α β γ : Type} (f : α → Option β) (mk : α → β → γ) (row : γ → α)

/-- A join has at most one row for each row of its table. -/
lemma length_join_le (l : List α) :
    (l.flatMap fun a => ((f a).map (mk a)).toList).length ≤ l.length := by
  induction l with
  | nil => exact le_refl 0
  | cons a l ih =>
      rw [List.flatMap_cons, List.length_append, List.length_cons]
      have hle : ((f a).map (mk a)).toList.length ≤ 1 := by cases f a <;> simp
      omega

/-- A join has every row of its table exactly if each is joined. -/
lemma map_join_eq_iff (hrow : ∀ a b, row (mk a b) = a) (l : List α) :
    (l.flatMap fun a => ((f a).map (mk a)).toList).map row = l
      ↔ ∀ a ∈ l, (f a).isSome = true := by
  induction l with
  | nil => simp
  | cons a l ih =>
      rw [List.flatMap_cons, List.map_append, List.forall_mem_cons]
      cases ha : f a with
      | none =>
          refine iff_of_false (fun h => ?_) fun h => by simp at h
          have hlength := congrArg List.length h
          have hle := length_join_le f mk l
          simp only [Option.map_none, Option.toList_none, List.map_nil, List.nil_append,
            List.length_map, List.length_cons] at hlength
          omega
      | some b =>
          rw [← ih]
          simp [hrow]

end Join

/-- **The joins** drop no row exactly if every row refers to a publisher. -/
theorem intact_iff_joins (db : Db) : db.Intact ↔ db.JoinsKeepRows := by
  have hfind : db.joined.map Joined.ai = db.activity_info ↔ _ :=
    map_join_eq_iff (fun a : ActivityRow => db.publisher_info.row? a.publisher_id) Joined.mk Joined.ai
      (fun _ _ => rfl) db.activity_info
  have htips : db.tips.map Tip.ci = db.contribution_info ↔ _ :=
    map_join_eq_iff (fun a : ContributionRow => db.publisher_info.row? a.publisher_id) Tip.mk Tip.ci
      (fun _ _ => rfl) db.contribution_info
  have hdonations : db.donations.map Donation.rd = db.recurring_donation.rows ↔ _ :=
    map_join_eq_iff (fun a : DonationRow => db.publisher_info.row? a.publisher_id) Donation.mk
      Donation.rd (fun _ _ => rfl) db.recurring_donation.rows
  have hmedia : ∀ r ∈ db.media_publisher_info,
      db.mediaPublisher r.media_key = db.publisher_info.row? r.publisher_id := by
    intro r hr
    rw [Db.mediaPublisher, UniqueTable.mem_iff_row?.mp hr, Option.bind_some]
  constructor
  · intro h
    refine ⟨hfind.mpr h.activity_info, fun r hr => ?_, htips.mpr h.contribution_info,
      hdonations.mpr h.recurring_donation⟩
    rw [hmedia r hr]
    exact h.media_publisher_info r hr
  · intro h
    refine ⟨hfind.mp h.find, fun r hr => ?_, htips.mp h.tips, hdonations.mp h.donations⟩
    rw [Db.known, ← hmedia r hr]
    exact h.media r hr

/-! ### One operation -/

/-- The publisher that the row of an operation refers to. -/
def Write.refersTo : Write → Option String
  | .publisherInfo _ => none
  | .mediaPublisherInfo _ publisher_id => some publisher_id
  | .contributionInfo info => some info.publisher_key
  | .recurringDonation info => some info.publisher_key
  | .remove _ => none

/-- A save keeps the publishers known. -/
lemma known_replace {db : Db} {id : String} (p : PublisherRow) (h : db.known id = true) :
    Db.known { db with publisher_info := db.publisher_info.replace p } id = true := by
  by_cases hid : id = p.publisher_id
  · subst hid
    rw [Db.known, UniqueTable.row?_replace_self]
    rfl
  · rw [Db.known, UniqueTable.row?_replace_of_ne hid]
    exact h

/-- **The step lemma**: a write keeps the references exactly if it refers to a publisher that is
there. -/
lemma intact_apply_iff {db : Db} (h : db.Intact) (w : Write) :
    (w.apply db).Intact ↔ ∀ id ∈ w.refersTo, db.known id = true := by
  cases w with
  | publisherInfo info =>
      refine iff_of_true ⟨fun r hr => ?_, fun r hr => ?_, fun r hr => ?_, fun r hr => ?_⟩
        fun id hid => by cases hid
      · exact known_replace _ (h.activity_info r hr)
      · exact known_replace _ (h.media_publisher_info r hr)
      · exact known_replace _ (h.contribution_info r hr)
      · exact known_replace _ (h.recurring_donation r hr)
  | mediaPublisherInfo media_key publisher_id =>
      constructor
      · rintro h' id hid
        obtain rfl := Option.mem_some.mp hid
        exact h'.media_publisher_info ⟨media_key, publisher_id⟩
          (UniqueTable.mem_replace_self _ _)
      · intro hknown
        refine ⟨h.activity_info, fun r hr => ?_, h.contribution_info, h.recurring_donation⟩
        rcases UniqueTable.mem_replace.mp hr with ⟨hr, -⟩ | rfl
        · exact h.media_publisher_info r hr
        · exact hknown publisher_id rfl
  | contributionInfo info =>
      constructor
      · rintro h' id hid
        obtain rfl := Option.mem_some.mp hid
        exact h'.contribution_info info.row
          (List.mem_append_right _ (List.mem_singleton_self _))
      · intro hknown
        refine ⟨h.activity_info, h.media_publisher_info, fun r hr => ?_, h.recurring_donation⟩
        rcases List.mem_append.mp hr with hr | hr
        · exact h.contribution_info r hr
        · rw [List.mem_singleton.mp hr]
          exact hknown info.publisher_key rfl
  | recurringDonation info =>
      constructor
      · rintro h' id hid
        obtain rfl := Option.mem_some.mp hid
        exact h'.recurring_donation info.row (UniqueTable.mem_replace_self _ _)
      · intro hknown
        refine ⟨h.activity_info, h.media_publisher_info, h.contribution_info, fun r hr => ?_⟩
        rcases UniqueTable.mem_replace.mp hr with ⟨hr, -⟩ | rfl
        · exact h.recurring_donation r hr
        · exact hknown info.publisher_key rfl
  | remove publisher_key => exact iff_of_true h fun id hid => by cases hid

/-- An operation whose statement fails, or whose row refers to a publisher that is there. -/
def Write.Grounded (w : Write) (c : Conn) : Prop :=
  c.fails 0 = none → ∀ id ∈ w.refersTo, c.file.known id = true

/-! ### Runs -/

variable (E : Sqlite)

/-- Every operation of a run is grounded when it comes. -/
def GroundedRun : List Write → Conn → Prop
  | [], _ => True
  | w :: ws, c => w.Grounded c ∧ GroundedRun ws (w.run E c).2

/-- After every number of operations of a run the references hold, and the joins drop no row. -/
def Upheld (ws : List Write) (c : Conn) : Prop :=
  ∀ n, (runAll E (ws.take n) c).2.file.Intact ∧ (runAll E (ws.take n) c).2.file.JoinsKeepRows

variable {E}

/-- An operation keeps the references exactly if it is grounded. -/
lemma intact_run_iff {c : Conn} (hready : c.Ready) (h : c.file.Intact) (w : Write) :
    (w.run E c).2.file.Intact ↔ w.Grounded c := by
  obtain ⟨c', hrun, hleaves⟩ := run_ready (E := E) hready w
  rw [hrun, hleaves.file, Write.Grounded]
  split
  · rename_i hc
    rw [intact_apply_iff h]
    exact ⟨fun hknown _ => hknown, fun hgrounded => hgrounded hc⟩
  · rename_i hc
    exact iff_of_true h fun hc' => absurd hc' hc

/-- **The references**: from an initialised store whose references hold, an empty one among them,
for every run of operations and every pattern of failures, the references hold after every
operation if and only if every operation is grounded. -/
theorem upheld_iff {c : Conn} (hready : c.Ready) (h : c.file.Intact) (ws : List Write) :
    Upheld E ws c ↔ GroundedRun E ws c := by
  have hboth : ∀ ws c, Upheld E ws c ↔ ∀ n, (runAll E (ws.take n) c).2.file.Intact :=
    fun ws c => forall_congr' fun n => by rw [← intact_iff_joins, and_self]
  rw [hboth]
  induction ws generalizing c with
  | nil => exact iff_of_true (fun n => by rw [List.take_nil]; exact h) trivial
  | cons w ws ih =>
      obtain ⟨c', hrun, hleaves⟩ := run_ready (E := E) hready w
      have hstep : ∀ n, runAll E ((w :: ws).take (n + 1)) c = runAll E (ws.take n) c' :=
        fun n => DbM.bind_ok hrun
      have hfirst : c'.file.Intact ↔ w.Grounded c := by
        have hiff := intact_run_iff (E := E) hready h w
        rwa [hrun] at hiff
      rw [GroundedRun, hrun]
      constructor
      · intro hall
        have hc' : c'.file.Intact := by
          have hone := hall 1
          rwa [hstep 0] at hone
        refine ⟨hfirst.mp hc', (ih hleaves.ready hc').mp fun n => ?_⟩
        rw [← hstep n]
        exact hall (n + 1)
      · rintro ⟨hgrounded, hrest⟩ n
        have hc' := hfirst.mpr hgrounded
        cases n with
        | zero => exact h
        | succ n =>
            rw [hstep n]
            exact (ih hleaves.ready hc').mpr hrest n

lemma Db.fresh_intact : Db.fresh.Intact where
  activity_info := fun _ hr => absurd hr List.not_mem_nil
  media_publisher_info := fun _ hr => absurd hr List.not_mem_nil
  contribution_info := fun _ hr => absurd hr List.not_mem_nil
  recurring_donation := fun _ hr => absurd hr List.not_mem_nil

/-- A donation to a publisher that has been saved. -/
theorem upheld_iff_saved : Upheld reference
    [.publisherInfo { sampleLedger.defaults with id := "brave.com" },
      .recurringDonation ⟨"brave.com", .val 5, 7⟩] (Conn.on Db.fresh) := by
  refine (upheld_iff (Conn.on_ready Db.fresh_complete) Db.fresh_intact _).mpr
    ⟨fun _ id hid => ?_, fun _ id hid => ?_, trivial⟩
  · cases hid
  · obtain rfl := Option.mem_some.mp hid
    rfl

/-- A donation to a publisher that is not known. -/
theorem reference_dangles : ¬ ∀ (E : Sqlite) (ws : List Write), Upheld E ws (Conn.on Db.fresh) := by
  intro hall
  have hupheld := hall reference [.recurringDonation ⟨"brave.com", .val 5, 7⟩] 1
  have hone : runAll reference [.recurringDonation ⟨"brave.com", .val 5, 7⟩] (Conn.on Db.fresh)
      = (.ok (), ((Write.recurringDonation ⟨"brave.com", .val 5, 7⟩).run reference
        (Conn.on Db.fresh)).2) := rfl
  rw [List.take_succ_cons, List.take_zero, hone] at hupheld
  have hgrounded :=
    (intact_run_iff (Conn.on_ready Db.fresh_complete) Db.fresh_intact _).mp hupheld.1
  have hknown := hgrounded rfl "brave.com" rfl
  cases hknown

end RewardsDriver.Store
