import RewardsDriver.Service.Paging

/-!
The positions of a window: what `LoadPublisherInfoListOnFileTaskRunner` returns for a start and a
limit, against the list without either.

`Find` gets both as `int`. It writes no limit that is not positive, and no offset without a limit
or for a start up to 1.

* `ReturnsWindow`: the rows from the start on, as many as the limit.
* `eq_slice_iff`, `take_eq_slice_iff`: when a list, and when its beginning, is such a window of it.
* `Lands`, `page_eq_slice_iff`: when the page of a list is the window at its positions.
* `returnsWindow_iff`: **a load** returns its window if and only if it `Lands`.
-/

namespace RewardsDriver.Service

open RewardsDriver.Store

/-- A load returns the rows at the positions from `start` on, up to `limit` of them, of the list
that a load without start and limit returns. -/
def ReturnsWindow (E : Sqlite) (L : Ledger) (start limit : UInt32) (filter : PublisherInfoFilter)
    (c : Conn) : Prop :=
  (loadPublisherInfoListOnFileTaskRunner E L start limit filter c).1
    = (loadPublisherInfoListOnFileTaskRunner E L 0 0 filter c).1.map
        (Window.slice ⟨limit.toNat, start.toNat⟩)

/-! ### Windows of a list -/

section Slices

variable {α : Type} {records : List α}

/-- A whole list is a window of it. -/
lemma eq_slice_iff {n s : ℕ} (hn : 0 < n) :
    records = Window.slice ⟨n, s⟩ records ↔ records = [] ∨ (s = 0 ∧ records.length ≤ n) := by
  have hslice : Window.slice ⟨n, s⟩ records = (records.drop s).take n := rfl
  rw [hslice]
  constructor
  · intro h
    have hlength := congrArg List.length h
    rw [List.length_take, List.length_drop] at hlength
    by_cases hempty : records = []
    · exact .inl hempty
    · have hpos := List.length_pos_iff.mpr hempty
      exact .inr (by omega)
  · rintro (rfl | ⟨rfl, hlength⟩)
    · simp
    · rw [List.drop_zero, List.take_of_length_le hlength]

/-- The beginning of a list is the window from `s` on exactly if the rows there are the same. -/
lemma take_eq_slice_iff {n s : ℕ} :
    records.take n = Window.slice ⟨n, s⟩ records
      ↔ ∀ i < n, records[i]? = records[s + i]? := by
  rw [Window.slice, List.ext_getElem?_iff]
  refine forall_congr' fun i => ?_
  by_cases hi : i < n
  · rw [List.getElem?_take_of_lt hi, List.getElem?_take_of_lt hi, List.getElem?_drop]
    exact ⟨fun h _ => h, fun h => h hi⟩
  · simp [hi]

/-- An empty page is the window from `s` on exactly if the list ends before. -/
lemma nil_eq_slice_iff {n s : ℕ} (hn : 0 < n) :
    [] = Window.slice ⟨n, s⟩ records ↔ records.length ≤ s := by
  rw [Window.slice, eq_comm, List.take_eq_nil_iff, List.drop_eq_nil_iff]
  exact ⟨fun h => h.resolve_left hn.ne', .inr⟩

end Slices

/-! ### The positions of a page -/

/-- The starts and limits with which a page is the window at its positions, by the fate of the
limit. A limit that takes effect needs a start whose offset is written, or rows that are the same
from there on; without one the whole list comes. -/
def Lands {α : Type} (mode : TailMode) (records : List α) (start limit : UInt32) : Prop :=
  if 2 ^ 31 ≤ limit.toNat ∨ mode = .ignores then
    records = [] ∨ (start = 0 ∧ records.length ≤ limit.toNat)
  else if mode = .refuses then records.length ≤ start.toNat
  else (start ≠ 1 ∧ start.toNat < 2 ^ 31) ∨
    ∀ i < limit.toNat, records[i]? = records[start.toNat + i]?

section Lands

variable {α : Type} {mode : TailMode} {records : List α} {start limit : UInt32}

lemma toNat_pos (hlimit : limit ≠ 0) : 0 < limit.toNat := by
  rwa [Nat.pos_iff_ne_zero, Ne, ← UInt32.toNat_zero, UInt32.toNat_inj]

/-- A window whose offset is written lands, and the others are the beginning of the list. -/
lemma windowPage_eq_slice_iff :
    windowPage records limit start = Window.slice ⟨limit.toNat, start.toNat⟩ records
      ↔ (start ≠ 1 ∧ start.toNat < 2 ^ 31) ∨
        ∀ i < limit.toNat, records[i]? = records[start.toNat + i]? := by
  have hone : start ≠ 1 ↔ start.toNat ≠ 1 := by
    rw [Ne, Ne, ← UInt32.toNat_inj, UInt32.toNat_one]
  rw [windowPage, getD_offset?]
  by_cases hstart : 1 < start.toNat ∧ start.toNat < 2 ^ 31
  · rw [if_pos hstart]
    exact iff_of_true rfl (.inl ⟨hone.mpr (by omega), hstart.2⟩)
  · rw [if_neg hstart]
    have hbeginning : Window.slice ⟨limit.toNat, 0⟩ records = records.take limit.toNat := rfl
    rw [hbeginning, take_eq_slice_iff, hone]
    refine ⟨.inr, fun h => ?_⟩
    rcases h with ⟨hne, hlt⟩ | hsame
    · intro i _
      rw [show start.toNat = 0 by omega, Nat.zero_add]
    · exact hsame

/-- **The page of a list** is the window at its positions if and only if it lands. -/
lemma page_eq_slice_iff (hlimit : limit ≠ 0) :
    mode.page start.toInt32 limit.toInt32 records
        = Window.slice ⟨limit.toNat, start.toNat⟩ records
      ↔ Lands mode records start limit := by
  have hpos := toNat_pos hlimit
  have hstart : start.toNat = 0 ↔ start = 0 := by
    rw [← UInt32.toNat_zero, UInt32.toNat_inj]
  unfold Lands
  by_cases hlt : limit.toNat < 2 ^ 31
  · have hle : ¬ 2 ^ 31 ≤ limit.toNat := Nat.not_le.mpr hlt
    rw [page_of_lt hlimit hlt]
    cases mode with
    | windows =>
        rw [if_neg (by simpa using hle), if_neg (by simp)]
        exact windowPage_eq_slice_iff
    | ignores => rw [if_pos (.inr rfl), eq_slice_iff hpos, hstart]
    | refuses =>
        rw [if_neg (by simpa using hle), if_pos rfl]
        exact nil_eq_slice_iff hpos
  · have hneg : ¬ limit.toInt32 > 0 := fun h => hlt (limit_pos_iff.mp h).2
    rw [if_pos (.inl (Nat.not_lt.mp hlt)), mode.page_no_limit _ hneg, eq_slice_iff hpos, hstart]

end Lands

/-! ### A load -/

variable {E : Sqlite} {L : Ledger}

/-- A load, by the fate of the limit. -/
lemma returnsWindow_iff_lands {c c' : Conn} {filter : PublisherInfoFilter}
    {records : List PublisherInfo} {core : Core} {w₀ : Option Window} {mode : TailMode}
    (hready : c.Ready) (hfind : find E L 0 0 filter [] c = (.ok (true, records), c'))
    (hmode : LimitMode E L filter core w₀ mode) {start limit : UInt32} (hlimit : limit ≠ 0) :
    ReturnsWindow E L start limit filter c ↔ Lands mode records start limit := by
  obtain ⟨hc, core', w₀', hprepare, hrecords⟩ := find_true hready hfind
  obtain ⟨rfl, rfl⟩ : core = core' ∧ w₀ = w₀' := by
    have hsame := hmode.query.symm.trans hprepare
    simpa using hsame
  rw [List.nil_append] at hrecords
  have hreturn : ∀ (start limit : UInt32) (found : Bool) (list : List PublisherInfo) (c' : Conn),
      find E L start.toInt32 limit.toInt32 filter [] c = (.ok (found, list), c') →
      (loadPublisherInfoListOnFileTaskRunner E L start limit filter c).1 = .ok list :=
    fun _ _ _ _ _ h => congrArg Prod.fst (DbM.bind_ok h)
  obtain ⟨found, hpage⟩ := hmode.find_page hready hc start.toInt32 limit.toInt32 []
  rw [List.nil_append, ← hrecords] at hpage
  rw [ReturnsWindow, hreturn 0 0 _ _ _ hfind, hreturn start limit _ _ _ hpage, Except.map,
    Except.ok.injEq, page_eq_slice_iff hlimit]

/-- **A load**: for every filter whose query succeeds on an initialised store, every start and
every limit of at least one, it returns the rows at its positions if and only if it lands. -/
theorem returnsWindow_iff {c c' : Conn} {filter : PublisherInfoFilter}
    {records : List PublisherInfo} (hready : c.Ready)
    (hfind : find E L 0 0 filter [] c = (.ok (true, records), c')) :
    ∃ mode, (∃ core w₀, LimitMode E L filter core w₀ mode) ∧
      ('\'' ∉ filter.id.toList → '\x00' ∉ filter.id.toList → NamesColumns filter.order_by →
        mode = .windows) ∧
      ∀ start limit, limit ≠ 0 →
        (ReturnsWindow E L start limit filter c ↔ Lands mode records start limit) := by
  obtain ⟨-, core, w₀, hprepare, -⟩ := find_true hready hfind
  obtain ⟨mode, hmode⟩ := exists_limitMode hprepare
  exact ⟨mode, ⟨core, w₀, hmode⟩, hmode.eq_windows,
    fun _ _ hlimit => returnsWindow_iff_lands hready hfind hmode hlimit⟩

/-- The first row of two. -/
theorem returnsWindow_iff_first :
    ReturnsWindow reference sampleLedger 0 1 allFilter (.on pagedDb) := by
  obtain ⟨mode, -, hmode, hwindow⟩ := returnsWindow_iff pagedDb_ready find_pagedDb
  obtain rfl := hmode (by simp [allFilter]) (by simp [allFilter])
    fun _ h => absurd h List.not_mem_nil
  exact (hwindow 0 1 (by decide)).mpr (.inl ⟨by decide, by decide⟩)

/-- The second row of two: a start of one skips nothing. -/
theorem second_is_first : ¬ ∀ (E : Sqlite) (L : Ledger) (start limit : UInt32)
    (filter : PublisherInfoFilter) (c c' : Conn) (records : List PublisherInfo), c.Ready → c.Quiet →
    find E L 0 0 filter [] c = (.ok (true, records), c') → limit ≠ 0 →
    ReturnsWindow E L start limit filter c := by
  intro hall
  obtain ⟨-, core, w₀, hprepare, -⟩ := find_true pagedDb_ready find_pagedDb
  obtain ⟨mode, hmode⟩ := exists_limitMode hprepare
  obtain rfl := hmode.eq_windows (by simp [allFilter]) (by simp [allFilter])
    fun _ h => absurd h List.not_mem_nil
  have hreturns := hall reference sampleLedger 1 1 allFilter _ _ _ pagedDb_ready (Conn.on_quiet _)
    find_pagedDb (by decide)
  have hlands : (1 : UInt32) ≠ 1 ∧ (1 : UInt32).toNat < 2 ^ 31 ∨
      ∀ i < 1, pagedRecords[i]? = pagedRecords[1 + i]? :=
    (returnsWindow_iff_lands pagedDb_ready find_pagedDb hmode (by decide)).mp hreturns
  rcases hlands with ⟨hne, -⟩ | hsame
  · exact hne rfl
  · have hfirst := hsame 0 Nat.one_pos
    revert hfirst
    decide

end RewardsDriver.Service
