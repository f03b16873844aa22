import RewardsDriver.Store.Gate

/-!
`GetTips`, whose text SQLite refuses.

The text has no space between the first category and `OR`, so that a number is followed by a
letter. The list stays as it was.

* `Db.tips`, `Tip.Asked`: the joined rows, and those that a month and a year ask for.
* `illegal_tipsClauses`, `getTips_refused`: **the text of `GetTips`** has an illegal token.
* `TipsListed`, `tipsListed_iff`: the rows asked for are listed if and only if there are none.
-/

namespace RewardsDriver.Store

open RewardsDriver.Sql

/-! ### The tips of a month -/

/-- The rows of the join on `ci.publisher_id = pi.publisher_id`. -/
def Db.tips (db : Db) : List Tip :=
  db.contribution_info.flatMap fun ci =>
    ((db.publisher_info.row? ci.publisher_id).map (Tip.mk ci)).toList

/-- A direct donation or a tip of a month and a year. -/
def Tip.Asked (L : Ledger) (month year : Int32) (t : Tip) : Prop :=
  t.ci.month.toInt = month.toInt ∧ t.ci.year.toInt = year.toInt ∧
    (t.ci.category.toInt = L.DIRECT_DONATION.toInt ∨ t.ci.category.toInt = L.TIPPING.toInt)

instance (L : Ledger) (month year : Int32) (t : Tip) : Decidable (t.Asked L month year) :=
  inferInstanceAs (Decidable (_ ∧ _ ∧ (_ ∨ _)))

/-- A record that carries the publisher and the date of a tip. -/
structure Tip.Shown (t : Tip) (info : PublisherInfo) : Prop where
  id : info.id = t.pi.publisher_id
  name : info.name = t.pi.name
  url : info.url = t.pi.url
  favicon_url : info.favicon_url = t.pi.favIcon
  provider : info.provider = t.pi.provider
  verified : info.verified = columnBool t.pi.verified
  reconcile_stamp : info.reconcile_stamp = t.ci.date.toUInt64

variable (E : Sqlite)

/-- `GetTips` appends one record for each row that a month and a year ask for, and nothing else. -/
def TipsListed (L : Ledger) (c : Conn) (month year : Int32) : Prop :=
  ∀ list, ∃ appended c', getTips E L list month year c = (.ok (list ++ appended), c') ∧
    ∃ rows : List Tip, rows.Perm (c.file.tips.filter fun t => t.Asked L month year) ∧
      List.Forall₂ Tip.Shown rows appended

/-! ### The text -/

/-- The text up to the first category. -/
def tipsBeginning (month year : Int32) : List Char :=
  "AND ci.month =".toList ++ ' ' :: ((toString month.toInt).toList ++
    ' ' :: ("AND ci.year = ".toList ++ ' ' :: ((toString year.toInt).toList ++
      ' ' :: "AND (ci.category =".toList)))

lemma closed_tipsBeginning (month year : Int32) : Closed (tipsBeginning month year) := by
  have hmonth : Closed "AND ci.month =".toList := by decide
  have hyear : Closed "AND ci.year = ".toList := by decide
  have hcategory : Closed "AND (ci.category =".toList := by decide
  exact hmonth.append_space ((lex_toString _).2.append_space (hyear.append_space
    ((lex_toString _).2.append_space hcategory)))

/-- After the first category comes a letter. -/
lemma toList_tipsClauses (L : Ledger) (month year : Int32) : ∃ rest,
    (tipsClauses L month year).toList
      = (tipsBeginning month year ++ ' ' :: (toString L.DIRECT_DONATION.toInt).toList) ++
        'O' :: rest := by
  refine ⟨"R ci.category = ".toList ++ (toString L.TIPPING.toInt).toList ++ [')'], ?_⟩
  unfold tipsClauses tipsBeginning
  simp only [String.toList_append, List.append_assoc, List.cons_append]
  rfl

/-- **The text of `GetTips`** has an illegal token, whatever the month, the year and the
categories. -/
lemma illegal_tipsClauses (L : Ledger) (month year : Int32) :
    .illegal ∈ lex (tipsClauses L month year).toList := by
  obtain ⟨rest, hrest⟩ := toList_tipsClauses L month year
  obtain ⟨n, hn⟩ := stateAfter_toString L.DIRECT_DONATION.toInt
  obtain ⟨ts, hts⟩ := lexFrom_append .start
    (tipsBeginning month year ++ ' ' :: (toString L.DIRECT_DONATION.toInt).toList) ('O' :: rest)
  have hletter : next (.num n) 'O' = ([.illegal], .dead) := rfl
  rw [stateAfter_append_space _ (closed_tipsBeginning month year), hn, lexFrom_cons, hletter] at hts
  rw [lex, hrest, hts]
  simp

lemma nul_notMem_tipsClauses (L : Ledger) (month year : Int32) :
    '\x00' ∉ (tipsClauses L month year).toList := by
  have hnumber : ∀ z : ℤ, '\x00' ∉ (toString z).toList := nul_notMem_toString
  unfold tipsClauses
  simp only [String.toList_append, List.mem_append, hnumber, or_false]
  decide

lemma read_tips (L : Ledger) (month year : Int32) :
    read ⟨.tips, cString (tipsClauses L month year)⟩ = .refuses := by
  have hnul := nul_notMem_tipsClauses L month year
  have hillegal := illegal_tipsClauses L month year
  have hne : tipsClauses L month year ≠ "" := by
    intro hempty
    rw [hempty] at hillegal
    exact absurd hillegal List.not_mem_nil
  rw [cString_eq_self hnul, read, if_neg hnul]
  dsimp only
  rw [if_neg hne, if_pos hillegal]

variable {E}

/-- `GetTips` leaves the list as it was, whatever the store holds. -/
lemma getTips_refused {c : Conn} (L : Ledger) (hready : c.Ready) (list : List PublisherInfo)
    (month year : Int32) : getTips E L list month year c = (.ok list, c.next) := by
  have hstep := stepSql_refused (E := E) (b := []) hready.txn (read_tips L month year)
  exact DbM.tryCatch_error ((DbM.bind_ok (init_of_ready hready)).trans (DbM.bind_error hstep))

/-- A refused query lists no rows, so none may be asked for. -/
lemma not_asked_of_listed {c : Conn} {L : Ledger} (hready : c.Ready) {month year : Int32}
    (h : TipsListed E L c month year) : ∀ t ∈ c.file.tips, ¬ t.Asked L month year := by
  obtain ⟨appended, c', happ, rows, hrows, hshown⟩ := h []
  rw [getTips_refused L hready, List.nil_append, Prod.mk.injEq, Except.ok.injEq] at happ
  rw [← happ.1, List.forall₂_nil_right_iff] at hshown
  have hnil : (c.file.tips.filter fun t => t.Asked L month year) = [] :=
    (hshown ▸ hrows).nil_eq.symm
  simpa [List.filter_eq_nil_iff] using hnil

/-- **Tips**: for every content of an initialised store, every month and every year, the rows asked
for are listed if and only if there are none. -/
theorem tipsListed_iff {c : Conn} (L : Ledger) (hready : c.Ready) (month year : Int32) :
    TipsListed E L c month year ↔ ∀ t ∈ c.file.tips, ¬ t.Asked L month year := by
  refine ⟨not_asked_of_listed hready, fun h list => ?_⟩
  have hnil : (c.file.tips.filter fun t => t.Asked L month year) = [] := by
    simpa [List.filter_eq_nil_iff] using h
  refine ⟨[], c.next, by rw [getTips_refused L hready, List.append_nil], [], ?_, .nil⟩
  rw [hnil]

/-- A direct donation to a publisher. -/
def directDonation : ContributionInfo := ⟨"10", 8, 2018, 8, 7, "brave.com"⟩

/-- The sample store with a direct donation in August. -/
def tippedDb : Db := { sampleDb with contribution_info := [directDonation.row] }

lemma tippedDb_ready : (Conn.on tippedDb).Ready := Conn.on_ready Db.fresh_complete

lemma tips_tippedDb : tippedDb.tips = [⟨directDonation.row, samplePublisher⟩] := by
  have hrow : tippedDb.publisher_info.row? directDonation.row.publisher_id = some samplePublisher :=
    UniqueTable.row?_replace_self _ samplePublisher
  have hrows : tippedDb.contribution_info = [directDonation.row] := rfl
  rw [Db.tips, hrows, List.flatMap_singleton, hrow]
  rfl

/-- September has no tips to list. -/
theorem tipsListed_iff_september :
    TipsListed reference sampleLedger (Conn.on tippedDb) 9 2018 := by
  refine (tipsListed_iff sampleLedger tippedDb_ready 9 2018).mpr fun t ht hasked => ?_
  have htips : (Conn.on tippedDb).file.tips = [⟨directDonation.row, samplePublisher⟩] :=
    tips_tippedDb
  rw [htips, List.mem_singleton] at ht
  rw [ht] at hasked
  exact absurd hasked.1 (by decide)

/-- A direct donation that the store has recorded is not listed. -/
theorem tip_not_listed : ¬ ∀ (E : Sqlite) (L : Ledger) (ws : List Write) (c : Conn)
    (month year : Int32), runAll E ws (Conn.on Db.fresh) = (.ok (), c) →
    TipsListed E L c month year := by
  intro hall
  let publisher : PublisherInfo := { sampleLedger.defaults with id := "brave.com", month := 0 }
  obtain ⟨c, hrun, hready, -, hfile⟩ := runAll_ready (E := reference)
    (Conn.on_ready Db.fresh_complete) (Conn.on_quiet _)
    [.publisherInfo publisher, .contributionInfo directDonation]
  have hlisted := hall reference sampleLedger _ c 8 2018 hrun
  have hnone := not_asked_of_listed hready hlisted
  rw [hfile] at hnone
  exact hnone ⟨directDonation.row, publisher.publisherRow⟩ (by decide) (by decide)

end RewardsDriver.Store
