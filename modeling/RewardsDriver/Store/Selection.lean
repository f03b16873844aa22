import RewardsDriver.Store.Frame

/-!
The rows that a filter is to select, and those that `Find` selects.

The clause for `FILTER_ALL_EXCEPT_EXCLUDED` compares the publisher's value with the filter's own,
which is that of the sentinel, and not with `EXCLUDED`.

* `PublisherInfoFilter.meets`, `PublisherInfoFilter.allows`: the conditions of a filter.
* `PublisherInfoFilter.compares`, `all_conds`: **the conditions that `Find` writes**.
* `perm_map_filter_iff`: when two selections of one list give the same records.
* `Selects`, `selects_iff`: `Find` appends the rows of the filter if and only if it is `Exact`.
-/

namespace RewardsDriver.Store

open RewardsDriver.Sql

/-! ### The conditions of a filter -/

/-- `PUBLISHER_EXCLUDE::EXCLUDED`. -/
def EXCLUDED : Int32 := 1

namespace PublisherInfoFilter

variable (L : Ledger) (filter : PublisherInfoFilter)

/-- The conditions on a row other than that on exclusion, on the integers as they are stored. -/
def meets (r : Joined) : Bool :=
  (filter.id = "" || r.ai.publisher_id = filter.id) &&
  (filter.category = L.ALL_CATEGORIES || r.ai.category.toInt = filter.category.toInt) &&
  (filter.month = L.ANY || r.ai.month.toInt = filter.month.toInt) &&
  (!(filter.year > 0) || r.ai.year.toInt = filter.year.toInt) &&
  (!(filter.reconcile_stamp > 0) ||
    r.ai.reconcile_stamp.toInt = (filter.reconcile_stamp.toNat : ℤ)) &&
  (!(filter.min_duration > 0) || (filter.min_duration.toNat : ℤ) ≤ r.ai.duration.toInt)

/-- The condition on exclusion, where `FILTER_ALL_EXCEPT_EXCLUDED` keeps one value out. -/
def admits (value : Int32) (r : Joined) : Bool :=
  if filter.excluded = L.FILTER_ALL then true
  else if filter.excluded = L.FILTER_ALL_EXCEPT_EXCLUDED then r.pi.excluded.toInt ≠ value.toInt
  else r.pi.excluded.toInt = filter.excluded.toInt

/-- The condition on exclusion. -/
def allows : Joined → Bool := filter.admits L EXCLUDED

/-- The condition on exclusion that `Find` writes. -/
def compares : Joined → Bool := filter.admits L filter.excluded

/-- The rows that a filter is to select. -/
def selects (r : Joined) : Bool := filter.meets L r && filter.allows L r

/-- A filter and a content for which the clause on exclusion makes no difference: with
`FILTER_ALL_EXCEPT_EXCLUDED` no row that meets the other conditions has the value of the sentinel
or `EXCLUDED`, unless these are the same. Of an id with NUL there is to be nothing. -/
def Exact (db : Db) : Prop :=
  if '\x00' ∈ filter.id.toList then ∀ r ∈ db.joined, filter.selects L r = false
  else filter.excluded = L.FILTER_ALL_EXCEPT_EXCLUDED → ∀ r ∈ db.joined, filter.meets L r = true →
    (r.pi.excluded.toInt = L.FILTER_ALL_EXCEPT_EXCLUDED.toInt ↔
      r.pi.excluded.toInt = EXCLUDED.toInt)

end PublisherInfoFilter

/-- `Find` appends the records of the rows that the filter is to select, with their multiplicity. -/
def Selects (E : Sqlite) (L : Ledger) (filter : PublisherInfoFilter) (c : Conn) : Prop :=
  ∀ list, ∃ success appended c', find E L 0 0 filter list c = (.ok (success, list ++ appended), c') ∧
    appended.Perm ((c.file.joined.filter (filter.selects L)).map (Joined.record L))

/-! ### What `Find` writes -/

lemma all_condIf {p : Prop} [Decidable p] {k : Cond} {r : Joined} :
    (condIf p k).all (·.holds r) = (!decide p || k.holds r) := by
  by_cases hp : p <;> simp [condIf, hp]

/-- **The conditions that `Find` writes.** -/
lemma all_conds (L : Ledger) (filter : PublisherInfoFilter) (r : Joined) :
    (filter.conds L).all (·.holds r) = (filter.meets L r && filter.compares L r) := by
  have hexcluded : ((!decide (filter.excluded ≠ L.FILTER_ALL ∧
        filter.excluded ≠ L.FILTER_ALL_EXCEPT_EXCLUDED) ||
        (Cond.int .pi_excluded .eq filter.excluded.toInt).holds r) &&
      (!decide (filter.excluded = L.FILTER_ALL_EXCEPT_EXCLUDED) ||
        (Cond.int .pi_excluded .ne filter.excluded.toInt).holds r)) = filter.compares L r := by
    rw [PublisherInfoFilter.compares, PublisherInfoFilter.admits]
    by_cases hall : filter.excluded = L.FILTER_ALL
    · simp [hall, L.filters_ne]
    · by_cases hexcept : filter.excluded = L.FILTER_ALL_EXCEPT_EXCLUDED <;>
        simp [hall, hexcept, L.filters_ne.symm, Cond.holds, Column.field, Op.holds]
  rw [PublisherInfoFilter.conds, PublisherInfoFilter.periodConds, PublisherInfoFilter.stampConds,
    PublisherInfoFilter.restConds, PublisherInfoFilter.meets]
  simp only [List.all_append, all_condIf, Bool.and_assoc]
  rw [hexcluded]
  simp only [Cond.holds, Column.field, Op.holds, ne_eq, decide_not, Bool.not_not]

/-! ### Two selections of one list -/

section Selections

variable {α β : Type} {p q : α → Bool} {f : α → β} {l : List α}

/-- A selection by one condition, and within it by another. -/
lemma perm_filter_split (p q : α → Bool) (l : List α) :
    (l.filter p).Perm (l.filter (fun a => p a && q a) ++ l.filter fun a => p a && !q a) := by
  have hsplit := List.filter_append_perm q (l.filter p)
  rw [List.filter_filter, List.filter_filter] at hsplit
  simpa [Bool.and_comm] using hsplit.symm

/-- Two selections of one list give the same records exactly if they are the same, when no record
of a row that only the one selects is that of a row that only the other selects. -/
lemma perm_map_filter_iff
    (hsep : ∀ a ∈ l, ∀ b ∈ l, p a = true → q a = false → q b = true → p b = false → f a ≠ f b) :
    ((l.filter p).map f).Perm ((l.filter q).map f) ↔ ∀ a ∈ l, p a = q a := by
  constructor
  · intro h
    have hp := ((perm_filter_split p q l).map f).symm.trans
      (h.trans ((perm_filter_split q p l).map f))
    have hcomm : l.filter (fun a => q a && p a) = l.filter fun a => p a && q a := by
      simp only [Bool.and_comm]
    rw [hcomm, List.map_append, List.map_append, List.perm_append_left_iff] at hp
    intro a ha
    cases hpa : p a <;> cases hqa : q a
    · rfl
    · have hmem : f a ∈ (l.filter fun a => q a && !p a).map f :=
        List.mem_map_of_mem (List.mem_filter.mpr ⟨ha, by simp [hpa, hqa]⟩)
      obtain ⟨b, hb, hfb⟩ := List.mem_map.mp (hp.mem_iff.mpr hmem)
      obtain ⟨hbl, hb⟩ := List.mem_filter.mp hb
      simp only [Bool.and_eq_true, Bool.not_eq_true'] at hb
      exact absurd hfb (hsep b hbl a ha hb.1 hb.2 hqa hpa)
    · have hmem : f a ∈ (l.filter fun a => p a && !q a).map f :=
        List.mem_map_of_mem (List.mem_filter.mpr ⟨ha, by simp [hpa, hqa]⟩)
      obtain ⟨b, hb, hfb⟩ := List.mem_map.mp (hp.mem_iff.mp hmem)
      obtain ⟨hbl, hb⟩ := List.mem_filter.mp hb
      simp only [Bool.and_eq_true, Bool.not_eq_true'] at hb
      exact absurd hfb.symm (hsep a ha b hbl hpa hqa hb.1 hb.2)
    · rfl
  · intro h
    rw [List.filter_congr h]

end Selections

/-! ### What `Find` selects -/

variable {E : Sqlite} {L : Ledger} {filter : PublisherInfoFilter}

/-- A row that only `Find` selects and a row that it misses have different records. -/
lemma record_ne {a b : Joined}
    (ha : (filter.meets L a && filter.compares L a) = true) (ha' : filter.selects L a = false)
    (hb : filter.selects L b = true) (hb' : (filter.meets L b && filter.compares L b) = false) :
    Joined.record L a ≠ Joined.record L b := by
  rw [PublisherInfoFilter.selects] at ha' hb
  simp only [Bool.and_eq_true, Bool.and_eq_false_iff] at ha ha' hb hb'
  obtain ⟨hameets, hacompares⟩ := ha
  obtain ⟨hbmeets, hballows⟩ := hb
  have haallows : filter.allows L a = false := ha'.resolve_left (by simp [hameets])
  have hbcompares : filter.compares L b = false := hb'.resolve_left (by simp [hbmeets])
  rw [PublisherInfoFilter.allows, PublisherInfoFilter.admits] at haallows hballows
  rw [PublisherInfoFilter.compares, PublisherInfoFilter.admits] at hacompares hbcompares
  by_cases hall : filter.excluded = L.FILTER_ALL
  · simp [hall] at haallows
  · by_cases hexcept : filter.excluded = L.FILTER_ALL_EXCEPT_EXCLUDED
    · rw [if_neg hall, if_pos hexcept, decide_eq_false_iff_not, not_not] at haallows hbcompares
      rw [if_neg hall, if_pos hexcept, decide_eq_true_eq] at hacompares hballows
      intro hrecord
      have hexcluded : a.pi.excluded.toInt32 = b.pi.excluded.toInt32 :=
        congrArg PublisherInfo.excluded hrecord
      rw [← Int32.toInt_toInt64, Int64.toInt_inj] at haallows hbcompares
      rw [haallows, hbcompares, Int32.toInt32_toInt64, Int32.toInt32_toInt64] at hexcluded
      rw [haallows, Int32.toInt_toInt64, hexcluded] at hacompares
      exact hacompares rfl
    · simp only [hall, hexcept, if_false] at haallows hacompares
      rw [hacompares] at haallows
      cases haallows

/-- The clause on exclusion makes no difference for a row. -/
lemma conds_eq_selects_iff (r : Joined) :
    (filter.meets L r && filter.compares L r) = filter.selects L r ↔
      (filter.excluded = L.FILTER_ALL_EXCEPT_EXCLUDED → filter.meets L r = true →
        (r.pi.excluded.toInt = L.FILTER_ALL_EXCEPT_EXCLUDED.toInt ↔
          r.pi.excluded.toInt = EXCLUDED.toInt)) := by
  rw [PublisherInfoFilter.selects, PublisherInfoFilter.compares, PublisherInfoFilter.allows,
    PublisherInfoFilter.admits, PublisherInfoFilter.admits]
  by_cases hexcept : filter.excluded = L.FILTER_ALL_EXCEPT_EXCLUDED
  · cases hmeets : filter.meets L r with
    | false => simp
    | true =>
        have hall : filter.excluded ≠ L.FILTER_ALL := fun h => L.filters_ne (h.symm.trans hexcept)
        rw [if_neg hall, if_neg hall, if_pos hexcept, if_pos hexcept, hexcept, Bool.true_and,
          Bool.true_and, decide_eq_decide, not_iff_not]
        simp
  · simp [hexcept]

/-- With a NUL in the id the query is refused, so nothing may be asked for. -/
lemma selects_iff_of_nul {c : Conn} (hready : c.Ready) (hc : c.fails 0 = none)
    (hfilter : filter.Readable) (hnul : '\x00' ∈ filter.id.toList) :
    Selects E L filter c ↔ ∀ r ∈ c.file.joined, filter.selects L r = false := by
  have hserves : c.Serves c.file := ⟨hready, hc, rfl⟩
  rcases find_readable (E := E) L hfilter with ⟨-, hrefused⟩ | ⟨hno, -⟩
  · have hempty : c.file.joined.filter (filter.selects L) = []
        ↔ ∀ r ∈ c.file.joined, filter.selects L r = false := by
      simp [List.filter_eq_nil_iff]
    rw [← hempty]
    constructor
    · intro h
      obtain ⟨success, appended, c', happ, hperm⟩ := h []
      rw [hrefused [] c c.file hserves, Prod.mk.injEq, Except.ok.injEq, Prod.mk.injEq,
        List.nil_append] at happ
      rw [← happ.1.2] at hperm
      exact List.map_eq_nil_iff.mp hperm.nil_eq.symm
    · intro h list
      refine ⟨false, [], c.next, by rw [hrefused list c c.file hserves, List.append_nil], ?_⟩
      rw [h]
      exact .refl _
  · exact absurd hnul hno

/-- Without a NUL the query runs, and differs at most in what it makes of the sentinel. -/
lemma selects_iff_of_not_nul {c : Conn} (hready : c.Ready) (hc : c.fails 0 = none)
    (hfilter : filter.Readable) (hnul : '\x00' ∉ filter.id.toList) :
    Selects E L filter c ↔ (filter.excluded = L.FILTER_ALL_EXCEPT_EXCLUDED →
      ∀ r ∈ c.file.joined, filter.meets L r = true →
        (r.pi.excluded.toInt = L.FILTER_ALL_EXCEPT_EXCLUDED.toInt ↔
          r.pi.excluded.toInt = EXCLUDED.toInt)) := by
  have hserves : c.Serves c.file := ⟨hready, hc, rfl⟩
  rcases find_readable (E := E) L hfilter with ⟨hyes, -⟩ | ⟨-, order, hfind⟩
  · exact absurd hyes hnul
  · have hrows : ((E.find (.query ⟨filter.conds L, order⟩) c.file).map (Joined.record L)).Perm
        ((c.file.joined.filter fun r => filter.meets L r && filter.compares L r).map
          (Joined.record L)) := by
      refine List.Perm.map _ ((E.find_perm _ _).trans ?_)
      rw [Query.rows]
      simp only [all_conds]
      exact .refl _
    have hexact : ((c.file.joined.filter fun r => filter.meets L r && filter.compares L r).map
          (Joined.record L)).Perm ((c.file.joined.filter (filter.selects L)).map (Joined.record L))
        ↔ (filter.excluded = L.FILTER_ALL_EXCEPT_EXCLUDED → ∀ r ∈ c.file.joined,
          filter.meets L r = true → (r.pi.excluded.toInt = L.FILTER_ALL_EXCEPT_EXCLUDED.toInt ↔
            r.pi.excluded.toInt = EXCLUDED.toInt)) := by
      rw [perm_map_filter_iff fun a _ b _ ha ha' hb hb' => record_ne ha ha' hb hb']
      constructor
      · exact fun h hexcept r hr => (conds_eq_selects_iff r).mp (h r hr) hexcept
      · exact fun h r hr => (conds_eq_selects_iff r).mpr fun hexcept => h hexcept r hr
    rw [← hexact]
    constructor
    · intro h
      obtain ⟨success, appended, c', happ, hperm⟩ := h []
      rw [hfind [] c c.file hserves, Prod.mk.injEq, Except.ok.injEq, Prod.mk.injEq,
        List.nil_append, List.nil_append] at happ
      rw [← happ.1.2] at hperm
      exact hrows.symm.trans hperm
    · intro h list
      exact ⟨true, _, c.next, hfind list c c.file hserves, hrows.trans h⟩

/-- **What `Find` selects**: on an initialised store with any content, for every readable filter,
it appends exactly the rows of the filter if and only if the filter is `Exact` on the content. -/
theorem selects_iff {c : Conn} (hready : c.Ready) (hc : c.fails 0 = none)
    (hfilter : filter.Readable) : Selects E L filter c ↔ filter.Exact L c.file := by
  by_cases hnul : '\x00' ∈ filter.id.toList
  · rw [PublisherInfoFilter.Exact, if_pos hnul]
    exact selects_iff_of_nul hready hc hfilter hnul
  · rw [PublisherInfoFilter.Exact, if_neg hnul]
    exact selects_iff_of_not_nul hready hc hfilter hnul

/-- The sentinels are no values of `PUBLISHER_EXCLUDE`: `DEFAULT`, `EXCLUDED`, `INCLUDED`. -/
def Ledger.Sentinels (L : Ledger) : Prop :=
  L.FILTER_ALL ∉ [0, EXCLUDED, 2] ∧ L.FILTER_ALL_EXCEPT_EXCLUDED ∉ [0, EXCLUDED, 2]

/-- A filter without conditions but on exclusion. -/
def excludedFilter (L : Ledger) (excluded : Int32) : PublisherInfoFilter :=
  ⟨"", L.ALL_CATEGORIES, L.ANY, 0, excluded, 0, [], 0⟩

lemma excludedFilter_readable (L : Ledger) (excluded : Int32) :
    (excludedFilter L excluded).Readable :=
  ⟨by simp [excludedFilter], Nat.zero_le 1, fun _ hit => absurd hit List.not_mem_nil⟩

/-- A publisher that the user has excluded, with an activity. -/
def excludedDb : Db :=
  { Db.fresh with
    publisher_info := .replace .empty { samplePublisher with excluded := 1 }
    activity_info := [⟨"brave.com", 5, 1, 100, 1, 2, 7, 2018, 1⟩] }

lemma excludedDb_ready : (Conn.on excludedDb).Ready := ⟨rfl, rfl, Db.fresh_complete⟩

/-- `FILTER_ALL` selects everything. -/
theorem selects_iff_all :
    Selects reference sampleLedger (excludedFilter sampleLedger sampleLedger.FILTER_ALL)
      (Conn.on excludedDb) := by
  refine (selects_iff excludedDb_ready rfl (excludedFilter_readable _ _)).mpr ?_
  rw [PublisherInfoFilter.Exact, if_neg (by simp [excludedFilter])]
  exact fun hexcept => absurd hexcept sampleLedger.filters_ne

/-- `FILTER_ALL_EXCEPT_EXCLUDED` selects an excluded publisher. -/
theorem excluded_selected : ¬ ∀ (E : Sqlite) (L : Ledger) (filter : PublisherInfoFilter) (c : Conn),
    L.Sentinels → c.Ready → c.Quiet → filter.Readable → Selects E L filter c := by
  intro hall
  have hsentinels : sampleLedger.Sentinels := ⟨by decide, by decide⟩
  have hreadable := excludedFilter_readable sampleLedger sampleLedger.FILTER_ALL_EXCEPT_EXCLUDED
  have hselects := hall reference sampleLedger _ (Conn.on excludedDb) hsentinels excludedDb_ready
    (Conn.on_quiet _) hreadable
  rw [selects_iff_of_not_nul excludedDb_ready rfl hreadable (by simp [excludedFilter])] at hselects
  have hiff := hselects rfl ⟨⟨"brave.com", 5, 1, 100, 1, 2, 7, 2018, 1⟩,
    { samplePublisher with excluded := 1 }⟩ (by decide) (by decide)
  revert hiff
  decide

end RewardsDriver.Store
