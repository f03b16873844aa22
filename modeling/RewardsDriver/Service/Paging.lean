import RewardsDriver.Store.Window

/-!
Paging through a list of publishers: `LoadCurrentPublisherInfoList` and the `next_record` that
`OnPublisherInfoListLoaded` hands to its callback.

`Find` takes the start as the number of rows to skip, and `next_record` is one more than the
number of rows that have come.

* `loadCurrentPublisherInfoList`, `loadPages`: one load, and loads until `next_record` is 0.
* `pages`, `loadPages_eq`: the pages of a fixed list, and that the loads give them.
* `length_pages_le`: pages from a later start leave out at least the rows before it.
* `PagesAll`, `Fits`, `pagesAll_iff`: the pages are the whole list if and only if `Fits`.
-/

namespace RewardsDriver.Service

open RewardsDriver.Store

variable (E : Sqlite) (L : Ledger)

/-! ### The functions -/

/-- `LoadPublisherInfoListOnFileTaskRunner`. What `Find` returns is not looked at. -/
def loadPublisherInfoListOnFileTaskRunner (start limit : UInt32) (filter : PublisherInfoFilter) :
    DbM (List PublisherInfo) := do
  let (_, list) ← find E L start.toInt32 limit.toInt32 filter []
  return list

/-- The `next_record` of a list of this size. -/
def nextRecord (start limit : UInt32) (size : ℕ) : UInt32 :=
  if size = limit.toNat then start + limit + 1 else 0

/-- `OnPublisherInfoListLoaded`: what the callback gets. -/
def onPublisherInfoListLoaded (start limit : UInt32) (list : List PublisherInfo) :
    List PublisherInfo × UInt32 := (list, nextRecord start limit list.length)

/-- `LoadCurrentPublisherInfoList`, up to the call of its callback. -/
def loadCurrentPublisherInfoList (start limit : UInt32) (filter : PublisherInfoFilter) :
    DbM (List PublisherInfo × UInt32) := do
  let pubList ← loadPublisherInfoListOnFileTaskRunner E L start limit filter
  return onPublisherInfoListLoaded start limit pubList

/-- Loads from a start on until `next_record` is 0, with the pages one after the other; `none` if
that takes more loads than allowed. -/
def loadPages (limit : UInt32) (filter : PublisherInfoFilter) :
    ℕ → UInt32 → DbM (Option (List PublisherInfo))
  | 0, _ => return none
  | loads + 1, start => do
      let (list, next_record) ← loadCurrentPublisherInfoList E L start limit filter
      if next_record = 0 then return some list
      return (← loadPages limit filter loads next_record).map (list ++ ·)

/-- The number of loads that paging may take. -/
def maxLoads (n : ℕ) (limit : UInt32) : ℕ := if limit = 0 then 1 else n / limit.toNat + 1

/-- Paging loses and repeats nothing: within the loads allowed it gives the whole list. -/
def PagesAll (limit : UInt32) (filter : PublisherInfoFilter) (c : Conn)
    (records : List PublisherInfo) : Prop :=
  ∃ c', loadPages E L limit filter (maxLoads records.length limit) 0 c = (.ok (some records), c')

/-! ### The pages of a fixed list -/

/-- The pages until `next_record` is 0, given the page at each start. -/
def pages {α : Type} (page : UInt32 → List α) (limit : UInt32) : ℕ → UInt32 → Option (List α)
  | 0, _ => none
  | loads + 1, start =>
      if nextRecord start limit (page start).length = 0 then some (page start)
      else (pages page limit loads (nextRecord start limit (page start).length)).map
        (page start ++ ·)

variable {E L}

/-- The loads give the pages of the records. -/
lemma loadPages_eq {filter : PublisherInfoFilter} {core : Core} {w₀ : Option Window}
    {mode : TailMode} (h : LimitMode E L filter core w₀ mode) {c : Conn} (hready : c.Ready)
    (hquiet : c.Quiet) (limit : UInt32) (loads : ℕ) (start : UInt32) :
    ∃ c', loadPages E L limit filter loads start c
      = (.ok (pages (fun start => mode.page start.toInt32 limit.toInt32
          ((windowed w₀ (E.find core c.file)).map (Joined.record L))) limit loads start), c') := by
  induction loads generalizing c start with
  | zero => exact ⟨c, rfl⟩
  | succ loads ih =>
      obtain ⟨found, hfind⟩ := h.find_page hready (hquiet 0) start.toInt32 limit.toInt32 []
      rw [List.nil_append] at hfind
      have hload : ∀ rest : List PublisherInfo × UInt32 → DbM (Option (List PublisherInfo)),
          (loadCurrentPublisherInfoList E L start limit filter >>= rest) c
            = rest (onPublisherInfoListLoaded start limit _) c.next := fun rest =>
        DbM.bind_ok (DbM.bind_ok (DbM.bind_ok hfind))
      rw [loadPages, hload, pages, onPublisherInfoListLoaded]
      dsimp only
      split
      · exact ⟨c.next, rfl⟩
      · obtain ⟨c', hrest⟩ := ih hready.next hquiet.next
          (nextRecord start limit (mode.page start.toInt32 limit.toInt32
            ((windowed w₀ (E.find core c.file)).map (Joined.record L))).length)
        exact ⟨c', (DbM.bind_ok hrest).trans rfl⟩

section Pages

variable {α : Type} {page : UInt32 → List α} {limit : UInt32} {loads : ℕ} {start : UInt32}

lemma nextRecord_of_ne {size : ℕ} (h : size ≠ limit.toNat) : nextRecord start limit size = 0 :=
  if_neg h

lemma nextRecord_of_eq {size : ℕ} (h : size = limit.toNat) :
    nextRecord start limit size = start + limit + 1 := if_pos h

/-- A page of another size than the limit is the last one. -/
lemma pages_last (h : (page start).length ≠ limit.toNat) :
    pages page limit (loads + 1) start = some (page start) := by
  rw [pages, if_pos (nextRecord_of_ne h)]

/-- After a page of the size of the limit there are more, unless the next start is 0. -/
lemma pages_more (h : (page start).length = limit.toNat) (hnext : start + limit + 1 ≠ 0) :
    pages page limit (loads + 1) start
      = (pages page limit loads (start + limit + 1)).map (page start ++ ·) := by
  rw [pages, nextRecord_of_eq h, if_neg hnext]

/-- The pages begin with the first one. -/
lemma pages_prefix {l : List α} (h : pages page limit loads start = some l) :
    ∃ rest, l = page start ++ rest := by
  cases loads with
  | zero => simp [pages] at h
  | succ loads =>
      rw [pages] at h
      split at h
      · exact ⟨[], by simpa using h.symm⟩
      · obtain ⟨rest, -, rfl⟩ := Option.map_eq_some_iff.mp h
        exact ⟨rest, rfl⟩

/-- Where the start does not matter, a list of the size of the limit comes again. -/
lemma pages_const {records : List α} (hlimit : limit ≠ 0) :
    pages (fun _ => records) limit (loads + 1) 0 = some records
      ↔ records.length ≠ limit.toNat ∨ limit + 1 = 0 := by
  by_cases hlength : records.length = limit.toNat
  · have hzero : (0 : UInt32) + limit + 1 = limit + 1 := by rw [UInt32.zero_add]
    by_cases hnext : limit + 1 = 0
    · refine iff_of_true ?_ (.inr hnext)
      rw [pages, nextRecord_of_eq hlength, hzero, if_pos hnext]
    · refine iff_of_false (fun hpages => ?_) (by simp [hlength, hnext])
      rw [pages_more hlength (by rwa [hzero]), Option.map_eq_some_iff] at hpages
      obtain ⟨l, hl, happend⟩ := hpages
      obtain ⟨rest, rfl⟩ := pages_prefix hl
      have hnil := (List.append_eq_nil_iff.mp (List.append_right_eq_self.mp happend)).1
      rw [hnil, List.length_nil] at hlength
      exact hlimit (UInt32.toNat_inj.mp hlength.symm)
  · exact iff_of_true (pages_last hlength) (.inl hlength)

end Pages

/-! ### Pages with an offset -/

lemma toInt_toInt32_of_lt {n : UInt32} (h : n.toNat < 2 ^ 31) : n.toInt32.toInt = n.toNat := by
  change n.toBitVec.toInt = _
  rw [BitVec.toInt_eq_toNat_of_lt]
  · rfl
  · change 2 * n.toNat < 2 ^ 32
    omega

lemma toInt_toInt32_of_le {n : UInt32} (h : 2 ^ 31 ≤ n.toNat) : n.toInt32.toInt < 0 := by
  change n.toBitVec.toInt < 0
  have hn : n.toBitVec.toNat = n.toNat := rfl
  rw [BitVec.toInt_eq_toNat_cond]
  split <;> omega

/-- A limit is passed on as one if it is positive as an `int`. -/
lemma limit_pos_iff {limit : UInt32} :
    limit.toInt32 > 0 ↔ limit ≠ 0 ∧ limit.toNat < 2 ^ 31 := by
  have hzero : limit ≠ 0 ↔ 0 < limit.toNat := by
    rw [Ne, ← UInt32.toNat_inj, UInt32.toNat_zero, Nat.pos_iff_ne_zero]
  rw [gt_iff_lt, Int32.lt_iff_toInt_lt, hzero]
  rcases Nat.lt_or_ge limit.toNat (2 ^ 31) with hlt | hge
  · have hint : (0 : Int32).toInt = 0 := rfl
    rw [toInt_toInt32_of_lt hlt]
    omega
  · have hneg := toInt_toInt32_of_le hge
    have hint : (0 : Int32).toInt = 0 := rfl
    omega

/-- The offset of a start: a start of 1 skips nothing, and one that is negative as an `int` does
not either. -/
lemma getD_offset? (start : UInt32) :
    (offset? start.toInt32).getD 0
      = if 1 < start.toNat ∧ start.toNat < 2 ^ 31 then start.toNat else 0 := by
  have hone : start.toInt32 > 1 ↔ 1 < start.toInt32.toInt := Int32.lt_iff_toInt_lt
  unfold offset?
  rcases Nat.lt_or_ge start.toNat (2 ^ 31) with hlt | hge
  · rw [toInt_toInt32_of_lt hlt] at hone ⊢
    by_cases hstart : 1 < start.toNat
    · rw [if_pos (hone.mpr (by omega)), if_pos ⟨hstart, hlt⟩]
      rfl
    · rw [if_neg (fun h => hstart (by have := hone.mp h; omega)), if_neg (fun h => hstart h.1)]
      rfl
  · have hneg := toInt_toInt32_of_le hge
    rw [if_neg (fun h => by have := hone.mp h; omega), if_neg (by omega)]
    rfl

section Windows

variable {α : Type} {records : List α} {limit : UInt32}

/-- The pages of a list with a limit that takes effect. -/
def windowPage (records : List α) (limit start : UInt32) : List α :=
  Window.slice ⟨limit.toNat, (offset? start.toInt32).getD 0⟩ records

lemma length_windowPage (records : List α) (limit start : UInt32) :
    (windowPage records limit start).length
      = min limit.toNat (records.length - (offset? start.toInt32).getD 0) := by
  rw [windowPage, Window.slice, List.length_take, List.length_drop]

lemma windowPage_zero : windowPage records limit 0 = records.take limit.toNat := rfl

/-- **Pages from a later start**: they have at most the rows from there on. -/
lemma length_pages_le (hlimit : limit ≠ 0) (hn : records.length < 2 ^ 31 - 1) {loads : ℕ}
    {start : UInt32} (hone : 1 < start.toNat) (hstart : start.toNat ≤ records.length + 1)
    {l : List α} (h : pages (windowPage records limit) limit loads start = some l) :
    l.length ≤ records.length - start.toNat := by
  have hpos : 0 < limit.toNat := by
    rwa [Nat.pos_iff_ne_zero, Ne, ← UInt32.toNat_zero, UInt32.toNat_inj]
  induction loads generalizing start l with
  | zero => simp [pages] at h
  | succ loads ih =>
      have hpage := length_windowPage records limit start
      rw [getD_offset?, if_pos ⟨hone, by omega⟩] at hpage
      by_cases hfull : (windowPage records limit start).length = limit.toNat
      · have hnat : (start + limit + 1).toNat = start.toNat + limit.toNat + 1 := by
          rw [UInt32.toNat_add, UInt32.toNat_add, UInt32.toNat_one]
          omega
        have hnext : start + limit + 1 ≠ 0 := by
          rw [Ne, ← UInt32.toNat_inj, hnat, UInt32.toNat_zero]
          omega
        rw [pages_more hfull hnext, Option.map_eq_some_iff] at h
        obtain ⟨rest, hrest, rfl⟩ := h
        have hle := ih (by omega) (by omega) hrest
        rw [List.length_append, hfull]
        omega
      · rw [pages_last hfull, Option.some.injEq] at h
        subst h
        omega

/-- The first page is the whole list if there is room for one more row, or if it is full and the
next page is empty. -/
lemma pages_windowPage (hlimit : limit ≠ 0)
    (h : records.length < limit.toNat ∨
      (records.length = limit.toNat ∧ limit.toNat < 2 ^ 31 - 1)) :
    pages (windowPage records limit) limit (records.length / limit.toNat + 1) 0 = some records := by
  have hfirst : windowPage records limit 0 = records :=
    windowPage_zero.trans (List.take_of_length_le (by omega))
  rcases h with hlt | ⟨heq, hlt⟩
  · rw [pages_last (by rw [hfirst]; omega), hfirst]
  · have hpos : 0 < limit.toNat := by
      rwa [Nat.pos_iff_ne_zero, Ne, ← UInt32.toNat_zero, UInt32.toNat_inj]
    have hnat : (0 + limit + 1 : UInt32).toNat = limit.toNat + 1 := by
      rw [UInt32.zero_add, UInt32.toNat_add, UInt32.toNat_one]
      omega
    have hnext : (0 + limit + 1 : UInt32) ≠ 0 := by
      rw [Ne, ← UInt32.toNat_inj, hnat, UInt32.toNat_zero]
      omega
    have hpage := length_windowPage records limit (0 + limit + 1)
    rw [getD_offset?, hnat, if_pos ⟨by omega, by omega⟩] at hpage
    have hempty : windowPage records limit (0 + limit + 1) = [] := by
      rw [← List.length_eq_zero_iff, hpage]
      omega
    rw [heq, Nat.div_self hpos, pages_more (by rw [hfirst, heq]) hnext,
      pages_last (by rw [hempty, List.length_nil]; omega), hempty, hfirst, Option.map_some,
      List.append_nil]

/-- Without repeated rows, the pages from the second on are not the rows after the first page: they
begin one row later, or with the first row again. -/
lemma second_page_ne (hlimit : limit ≠ 0) (hbound : limit.toNat < 2 ^ 31)
    (hn : limit.toNat ≤ records.length)
    (hne : ¬ (records.length = limit.toNat ∧ limit.toNat < 2 ^ 31 - 1)) (hnodup : records.Nodup)
    {loads : ℕ} :
    pages (windowPage records limit) limit loads (0 + limit + 1)
      ≠ some (records.drop limit.toNat) := by
  intro h
  have hpos : 0 < limit.toNat := by
    rwa [Nat.pos_iff_ne_zero, Ne, ← UInt32.toNat_zero, UInt32.toNat_inj]
  have hnat : (0 + limit + 1 : UInt32).toNat = limit.toNat + 1 := by
    rw [UInt32.zero_add, UInt32.toNat_add, UInt32.toNat_one]
    omega
  have hlength := length_windowPage records limit (0 + limit + 1)
  rw [getD_offset?, hnat] at hlength
  obtain ⟨rest, hrest⟩ := pages_prefix h
  cases hpage : windowPage records limit (0 + limit + 1) with
  | nil =>
      rw [hpage, List.length_nil] at hlength
      cases loads with
      | zero => simp [pages] at h
      | succ loads =>
          rw [pages_last (by rw [hpage, List.length_nil]; omega), hpage, Option.some.injEq] at h
          have hzero := congrArg List.length h
          rw [List.length_nil, List.length_drop] at hzero
          split at hlength <;> omega
  | cons x xs =>
      rw [hpage, List.cons_append] at hrest
      have hdrop : x ∈ records.drop limit.toNat := by
        rw [hrest]
        exact List.mem_cons_self
      have hx : x ∈ windowPage records limit (0 + limit + 1) := hpage ▸ List.mem_cons_self
      rw [windowPage, Window.slice, getD_offset?, hnat] at hx
      by_cases hstart : limit.toNat + 1 < 2 ^ 31
      · rw [if_pos ⟨by omega, hstart⟩] at hx
        have hlater : x ∈ records.drop (limit.toNat + 1) := List.mem_of_mem_take hx
        rw [← List.drop_drop, hrest, List.drop_succ_cons, List.drop_zero] at hlater
        have hnodup' : (x :: (xs ++ rest)).Nodup := hrest ▸ hnodup.sublist (List.drop_sublist _ _)
        exact (List.nodup_cons.mp hnodup').1 hlater
      · rw [if_neg fun h => hstart h.2] at hx
        exact List.disjoint_take_drop hnodup le_rfl hx hdrop

/-- The second page of a longer list does not begin where the first one ended. -/
lemma pages_windowPage_ne (hlimit : limit ≠ 0) (hbound : limit.toNat < 2 ^ 31)
    (hn : limit.toNat ≤ records.length)
    (hne : ¬ (records.length = limit.toNat ∧ limit.toNat < 2 ^ 31 - 1))
    (hrecords : records.Nodup ∨ records.length < 2 ^ 31 - 1) (loads : ℕ) :
    pages (windowPage records limit) limit loads 0 ≠ some records := by
  intro h
  have hpos : 0 < limit.toNat := by
    rwa [Nat.pos_iff_ne_zero, Ne, ← UInt32.toNat_zero, UInt32.toNat_inj]
  have hnat : (0 + limit + 1 : UInt32).toNat = limit.toNat + 1 := by
    rw [UInt32.zero_add, UInt32.toNat_add, UInt32.toNat_one]
    omega
  have hnext : (0 + limit + 1 : UInt32) ≠ 0 := by
    rw [Ne, ← UInt32.toNat_inj, hnat, UInt32.toNat_zero]
    omega
  have hfull : (windowPage records limit 0).length = limit.toNat := by
    rw [windowPage_zero, List.length_take]
    omega
  cases loads with
  | zero => simp [pages] at h
  | succ loads =>
      rw [pages_more hfull hnext, Option.map_eq_some_iff] at h
      obtain ⟨rest, hrest, happend⟩ := h
      have hdrop : rest = records.drop limit.toNat := by
        rw [windowPage_zero] at happend
        exact List.append_cancel_left (happend.trans (List.take_append_drop _ _).symm)
      rcases hrecords with hnodup | hsmall
      · exact second_page_ne hlimit hbound hn hne hnodup (hdrop ▸ hrest)
      · have hle := length_pages_le hlimit hsmall (by omega) (by omega) hrest
        rw [hdrop, List.length_drop, hnat] at hle
        omega

end Windows

/-! ### Paging -/

/-- The numbers of rows for which paging works, by the fate of the limit: without a limit, some
row; with a limit that is none as an `int`, not as many rows as the limit; with a limit that takes
effect, not more rows than the first page holds. -/
def Fits (mode : TailMode) (n : ℕ) (limit : UInt32) : Prop :=
  if limit = 0 then n ≠ 0
  else if 2 ^ 31 ≤ limit.toNat then n ≠ limit.toNat ∨ limit + 1 = 0
  else match mode with
    | .windows => n < limit.toNat ∨ (n = limit.toNat ∧ limit.toNat < 2 ^ 31 - 1)
    | .ignores => n ≠ limit.toNat
    | .refuses => n = 0

lemma fits_zero {mode : TailMode} {n : ℕ} : Fits mode n 0 ↔ n ≠ 0 := by
  unfold Fits
  rw [if_pos rfl]

section Fits

variable {α : Type} {mode : TailMode} {records : List α} {limit : UInt32}

lemma fits_of_le {n : ℕ} (hlimit : limit ≠ 0) (h : 2 ^ 31 ≤ limit.toNat) :
    Fits mode n limit ↔ n ≠ limit.toNat ∨ limit + 1 = 0 := by
  unfold Fits
  rw [if_neg hlimit, if_pos h]

/-- The page of a limit that is one. -/
lemma page_of_lt (hlimit : limit ≠ 0) (hlt : limit.toNat < 2 ^ 31) (start : UInt32) :
    mode.page start.toInt32 limit.toInt32 records = match mode with
      | .windows => windowPage records limit start
      | .ignores => records
      | .refuses => [] := by
  have hint : limit.toInt32.toInt.toNat = limit.toNat := by
    rw [toInt_toInt32_of_lt hlt, Int.toNat_natCast]
  rw [mode.page_limit _ (limit_pos_iff.mpr ⟨hlimit, hlt⟩), hint]
  rfl

/-- Paging without a limit takes one load, unless there is nothing. -/
lemma pages_zero : pages (fun _ => records) 0 1 0 = some records ↔ records.length ≠ 0 := by
  by_cases hempty : records.length = 0
  · have hmore : pages (fun _ => records) 0 1 0 = none :=
      (pages_more (hempty.trans UInt32.toNat_zero.symm) (by decide)).trans rfl
    rw [hmore]
    simp [hempty]
  · exact iff_of_true (pages_last (by rwa [UInt32.toNat_zero])) hempty

/-- The pages with a limit that is one. -/
lemma pages_of_lt (hlimit : limit ≠ 0) (hlt : limit.toNat < 2 ^ 31) :
    (Fits mode records.length limit → pages (fun start => mode.page start.toInt32 limit.toInt32
        records) limit (records.length / limit.toNat + 1) 0 = some records) ∧
      ((records.Nodup ∨ records.length < 2 ^ 31 - 1) → pages (fun start => mode.page start.toInt32
        limit.toInt32 records) limit (records.length / limit.toNat + 1) 0 = some records →
        Fits mode records.length limit) := by
  simp only [page_of_lt hlimit hlt]
  unfold Fits
  rw [if_neg hlimit, if_neg (Nat.not_le.mpr hlt)]
  cases mode with
  | windows =>
      refine ⟨pages_windowPage hlimit, fun hrecords hall => ?_⟩
      by_contra hfits
      rw [not_or] at hfits
      exact pages_windowPage_ne hlimit hlt (by omega) hfits.2 hrecords _ hall
  | ignores =>
      have hnext : limit + 1 ≠ 0 := by
        rw [Ne, ← UInt32.toNat_inj, UInt32.toNat_add, UInt32.toNat_one, UInt32.toNat_zero]
        omega
      rw [pages_const hlimit]
      simp [hnext]
  | refuses =>
      have hone : ([] : List α).length ≠ limit.toNat := fun h =>
        hlimit (UInt32.toNat_inj.mp h.symm)
      rw [pages_last hone]
      simp [eq_comm]

/-- The pages of a list, by the fate of the limit. -/
lemma pages_iff_fits (mode : TailMode) (records : List α) (limit : UInt32) :
    (Fits mode records.length limit → pages (fun start => mode.page start.toInt32 limit.toInt32
        records) limit (maxLoads records.length limit) 0 = some records) ∧
      ((records.Nodup ∨ records.length < 2 ^ 31 - 1) → pages (fun start => mode.page start.toInt32
        limit.toInt32 records) limit (maxLoads records.length limit) 0 = some records →
        Fits mode records.length limit) := by
  have hconst : ¬ limit.toInt32 > 0 →
      (fun start : UInt32 => mode.page start.toInt32 limit.toInt32 records)
        = fun _ => records := fun hl => funext fun start => mode.page_no_limit _ hl records
  rcases eq_or_ne limit 0 with rfl | hlimit
  · rw [hconst (by decide), fits_zero, show maxLoads records.length 0 = 1 from rfl, pages_zero]
    exact ⟨id, fun _ => id⟩
  · rw [show maxLoads records.length limit = records.length / limit.toNat + 1 from if_neg hlimit]
    rcases Nat.lt_or_ge limit.toNat (2 ^ 31) with hlt | hge
    · exact pages_of_lt hlimit hlt
    · have hneg : ¬ limit.toInt32 > 0 := fun h =>
        Nat.not_le.mpr (limit_pos_iff.mp h).2 hge
      rw [hconst hneg, fits_of_le hlimit hge, pages_const hlimit]
      exact ⟨id, fun _ => id⟩

end Fits

/-- Paging gives the pages of the records that `Find` appends without a limit. -/
lemma pagesAll_iff_pages {c c' : Conn} {filter : PublisherInfoFilter}
    {records : List PublisherInfo} (hready : c.Ready) (hquiet : c.Quiet)
    (hfind : find E L 0 0 filter [] c = (.ok (true, records), c')) :
    ∃ mode core w₀, LimitMode E L filter core w₀ mode ∧
      ∀ limit, PagesAll E L limit filter c records ↔ pages (fun start => mode.page start.toInt32
        limit.toInt32 records) limit (maxLoads records.length limit) 0 = some records := by
  obtain ⟨-, core, w₀, hprepare, hrecords⟩ := find_true hready hfind
  rw [List.nil_append] at hrecords
  obtain ⟨mode, hmode⟩ := exists_limitMode hprepare
  refine ⟨mode, core, w₀, hmode, fun limit => ?_⟩
  obtain ⟨c'', hloads⟩ := loadPages_eq hmode hready hquiet limit (maxLoads records.length limit) 0
  rw [← hrecords] at hloads
  constructor
  · rintro ⟨c₂, hpages⟩
    rw [hloads] at hpages
    exact Except.ok.inj (Prod.mk.inj hpages).1
  · intro h
    exact ⟨c'', h ▸ hloads⟩

/-- **Paging**: for every filter whose query succeeds on an initialised store, every limit and
every number of rows, paging gives the rows once each in order if the rows fit the limit, and,
unless there are `2 ^ 31 - 1` rows and repeated ones among them, only if they do. -/
theorem pagesAll_iff {c c' : Conn} {filter : PublisherInfoFilter} {records : List PublisherInfo}
    (hready : c.Ready) (hquiet : c.Quiet)
    (hfind : find E L 0 0 filter [] c = (.ok (true, records), c')) :
    ∃ mode, (∃ core w₀, LimitMode E L filter core w₀ mode) ∧
      ('\'' ∉ filter.id.toList → '\x00' ∉ filter.id.toList → NamesColumns filter.order_by →
        mode = .windows) ∧
      ∀ limit, (Fits mode records.length limit → PagesAll E L limit filter c records) ∧
        ((records.Nodup ∨ records.length < 2 ^ 31 - 1) → PagesAll E L limit filter c records →
          Fits mode records.length limit) := by
  obtain ⟨mode, core, w₀, hmode, hpages⟩ := pagesAll_iff_pages hready hquiet hfind
  refine ⟨mode, ⟨core, w₀, hmode⟩, hmode.eq_windows, fun limit => ?_⟩
  rw [hpages limit]
  exact pages_iff_fits mode records limit

/-- A store with one publisher and two activities. -/
def pagedDb : Db :=
  { Db.fresh with
    publisher_info := .replace .empty ⟨"brave.com", 1, 0, "Brave", "", "https://brave.com", ""⟩
    activity_info := [⟨"brave.com", 5, 1, 50, 1, 2, 7, 2018, 1⟩,
      ⟨"brave.com", 9, 1, 50, 1, 2, 8, 2018, 1⟩] }

/-- A filter that asks for nothing. -/
def allFilter : PublisherInfoFilter := ⟨"", 31, -1, 0, -1, 0, [], 0⟩

/-- The records of the two activities. -/
def pagedRecords : List PublisherInfo := pagedDb.joined.map (Joined.record sampleLedger)

lemma pagedDb_ready : (Conn.on pagedDb).Ready := Conn.on_ready Db.fresh_complete

lemma find_pagedDb : find reference sampleLedger 0 0 allFilter [] (.on pagedDb)
    = (.ok (true, pagedRecords), (Conn.on pagedDb).next) := by
  have horder : NamesColumns allFilter.order_by := fun _ h => absurd h List.not_mem_nil
  rw [find_rows [] pagedDb_ready rfl (by simp [allFilter]) (by simp [allFilter]) horder
    fun _ => rfl]
  rfl

/-- Two rows with a limit of three. -/
theorem pagesAll_iff_three :
    PagesAll reference sampleLedger 3 allFilter (.on pagedDb) pagedRecords := by
  obtain ⟨mode, -, hmode, hpages⟩ := pagesAll_iff pagedDb_ready (Conn.on_quiet _) find_pagedDb
  obtain rfl := hmode (by simp [allFilter]) (by simp [allFilter])
    fun _ h => absurd h List.not_mem_nil
  exact (hpages 3).1 (.inl (by decide))

/-- Two rows with a limit of one: the second row is skipped. -/
theorem paging_skips : ¬ ∀ (E : Sqlite) (L : Ledger) (c c' : Conn) (filter : PublisherInfoFilter)
    (records : List PublisherInfo) (limit : UInt32), c.Ready → c.Quiet →
    find E L 0 0 filter [] c = (.ok (true, records), c') → PagesAll E L limit filter c records := by
  intro hall
  obtain ⟨mode, core, w₀, hmode, hpages⟩ :=
    pagesAll_iff_pages pagedDb_ready (Conn.on_quiet _) find_pagedDb
  obtain rfl := hmode.eq_windows (by simp [allFilter]) (by simp [allFilter])
    fun _ h => absurd h List.not_mem_nil
  have hall₁ := (hpages 1).mp (hall reference sampleLedger _ _ allFilter pagedRecords 1
    pagedDb_ready (Conn.on_quiet _) find_pagedDb)
  have hfits : 2 < 1 ∨ (2 = 1 ∧ 1 < 2 ^ 31 - 1) :=
    (pages_iff_fits .windows pagedRecords 1).2 (.inr (by decide)) hall₁
  omega

end RewardsDriver.Service
