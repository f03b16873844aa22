import Mathlib.Tactic
import RewardsDriver.Base.Loop
import RewardsDriver.Base.PrefixRange
import RewardsDriver.Base.Sieve
import RewardsDriver.Base.Word

/-!
The publisher store over LevelDB: `PublisherInfoBackend::EnsureInitialized`, `Search` and `Load`
(`driver/publisher_info_backend.cc`).

LevelDB is not part of the repository. `DB` is an open database as its documentation describes
it: the entries in the byte order of their keys, and iterators of which it is known which
entries are still ahead of them.

* `search`, `load`: the two scans, with a bound on the iterations of each loop.
* `Window.push`: the skip and take counters, shared by all prefixes of a search.
* `valueRun`: what the inner loop of `search` reads for one prefix, the entries from the prefix
  on as long as their *values* begin with it.
* `Shows`, `Completes`: what an iteration does, and the invariant of both loops.
* `search_appends`, `load_appends`: **both scans end**, and what they append.
-/

namespace RewardsDriver.Backend

/-- The bytes of a `std::string` or of a `leveldb::Slice`. -/
abbrev Bytes := List UInt8

/-- `Slice::starts_with`. -/
def startsWith (s x : Bytes) : Bool := x.isPrefixOf s

/-- An open LevelDB database with iterators over its entries: `rest` is the list of the entries
from the iterator's own on, empty if the iterator is not valid. -/
structure DB where
  entries : List (Bytes × Bytes)
  sorted : entries.Pairwise fun e f => e.1 < f.1
  Iterator : Type
  newIterator : Iterator
  seek : Iterator → Bytes → Iterator
  seekToFirst : Iterator → Iterator
  seekToLast : Iterator → Iterator
  next : Iterator → Iterator
  valid : Iterator → Bool
  value : Iterator → Bytes
  rest : Iterator → List (Bytes × Bytes)
  rest_suffix : ∀ it, rest it <:+ entries
  /-- At the first key that is not below the target. -/
  rest_seek : ∀ it target, rest (seek it target) = entries.dropWhile fun e => e.1 < target
  rest_seekToFirst : ∀ it, rest (seekToFirst it) = entries
  rest_seekToLast : ∀ it, rest (seekToLast it) = entries.getLast?.toList
  /-- `Next` requires a valid iterator. -/
  rest_next : ∀ it, valid it = true → rest (next it) = (rest it).tail
  valid_eq : ∀ it, valid it = !(rest it).isEmpty
  value_eq : ∀ it e es, rest it = e :: es → value it = e.2

namespace DB

/-- A database whose iterators are the lists of the entries ahead of them. -/
def ofEntries (entries : List (Bytes × Bytes)) (sorted : entries.Pairwise fun e f => e.1 < f.1) :
    DB where
  entries := entries
  sorted := sorted
  Iterator := { l : List (Bytes × Bytes) // l <:+ entries }
  newIterator := ⟨[], List.nil_suffix⟩
  seek := fun _ target => ⟨entries.dropWhile fun e => e.1 < target, List.dropWhile_suffix _⟩
  seekToFirst := fun _ => ⟨entries, List.suffix_rfl⟩
  seekToLast := fun _ => ⟨entries.getLast?.toList, by
    cases h : entries.getLast? with
    | none => exact List.nil_suffix
    | some e => exact ⟨entries.dropLast, List.dropLast_append_getLast? e h⟩⟩
  next := fun it => ⟨it.1.tail, (List.tail_suffix it.1).trans it.2⟩
  valid := fun it => !it.1.isEmpty
  value := fun it => (it.1.head?.map Prod.snd).getD []
  rest := Subtype.val
  rest_suffix := Subtype.property
  rest_seek := fun _ _ => rfl
  rest_seekToFirst := fun _ => rfl
  rest_seekToLast := fun _ => rfl
  rest_next := fun _ _ => rfl
  valid_eq := fun _ => rfl
  value_eq := fun it e es h => by simp [h]

variable {db : DB} {it : db.Iterator}

/-- A valid iterator is at an entry. -/
lemma exists_rest_cons (h : db.valid it = true) : ∃ e es, db.rest it = e :: es := by
  rw [db.valid_eq] at h
  cases hr : db.rest it with
  | nil => simp [hr] at h
  | cons e es => exact ⟨e, es, rfl⟩

/-- `Next` after `SeekToLast`: past the end. -/
lemma rest_next_seekToLast (h : db.valid it = true) :
    db.rest (db.next (db.seekToLast it)) = [] := by
  obtain ⟨e, es, hr⟩ := exists_rest_cons h
  have hne : db.entries ≠ [] := fun h0 => by
    have hsuf := db.rest_suffix it
    rw [hr, h0] at hsuf
    simp at hsuf
  have hlast : db.rest (db.seekToLast it) = [db.entries.getLast hne] := by
    rw [db.rest_seekToLast, List.getLast?_eq_some_getLast hne]
    rfl
  rw [db.rest_next _ (by simp [db.valid_eq, hlast]), hlast]
  rfl

end DB

/-! ### The backend -/

/-- What `leveldb::DB::Open` answers. -/
inductive Opened where
  | ok (db : DB)
  | corruption
  | failed

/-- `leveldb::DB::Open` on a path, with `create_if_missing`, and again after
`boost::filesystem::remove_all`. -/
structure Disk where
  dbOpen : String → Opened
  dbOpenRemoved : String → Opened

structure PublisherInfoBackend where
  path_ : String
  db_ : Option DB

/-- The skip and take counters of a scan, and the results so far. -/
structure Window where
  count : UInt32
  position : UInt32
  results : List Bytes

/-- `if (position++ < start) continue; else count++; results.push_back(value);` -/
def Window.push (start : UInt32) (w : Window) (value : Bytes) : Window :=
  if w.position < start then
    { w with position := w.position + 1 }
  else
    { count := w.count + 1, position := w.position + 1, results := w.results ++ [value] }

section Scans

variable {db : DB}

/-- `count < limit && db_it->Valid()`. -/
def more (limit : UInt32) (s : db.Iterator × Window) : Bool :=
  s.2.count < limit && db.valid s.1

/-- The body of the inner loop of `Search`, with the `Next` that `continue` goes to as well. -/
def searchBody (slice : Bytes) (start : UInt32) (s : db.Iterator × Window) :
    db.Iterator × Window :=
  if !startsWith (db.value s.1) slice then (db.next (db.seekToLast s.1), s.2)
  else (db.next s.1, s.2.push start (db.value s.1))

/-- The body of the loop of `Load`. -/
def loadBody (start : UInt32) (s : db.Iterator × Window) : db.Iterator × Window :=
  (db.next s.1, s.2.push start (db.value s.1))

/-- One turn of the outer loop of `Search`: the counters go on from the slice before. -/
def searchSlice (fuel : ℕ) (start limit : UInt32) (s : db.Iterator × Window) (slice : Bytes) :
    Option (db.Iterator × Window) :=
  loop (more limit) (searchBody slice start) fuel (db.seek s.1 slice, s.2)

end Scans

namespace PublisherInfoBackend

/-- Opens the database on first use. A corrupt database is deleted and opened again. -/
def ensureInitialized (disk : Disk) (b : PublisherInfoBackend) : Bool × PublisherInfoBackend :=
  match b.db_ with
  | some _ => (true, b)
  | none =>
      let status := match disk.dbOpen b.path_ with
        | .corruption => disk.dbOpenRemoved b.path_
        | status => status
      match status with
      | .ok db => (true, { b with db_ := some db })
      | _ => (false, b)

/-- The answer of a scan, the backend after it and its results. -/
abbrev Answer := Bool × PublisherInfoBackend × List Bytes

/-- `Search`, each loop with at most `fuel` tests of its condition. -/
def search (fuel : ℕ) (disk : Disk) (b : PublisherInfoBackend) (prefixes : List Bytes)
    (start limit : UInt32) (results : List Bytes) : Option Answer :=
  match b.ensureInitialized disk with
  | (false, b) => some (false, b, results)
  | (true, b) => b.db_.bind fun db =>
      (prefixes.foldlM (searchSlice fuel start limit) (db.newIterator, ⟨0, 0, results⟩)).map
        fun s => (true, b, s.2.results)

/-- `Load`, its loop with at most `fuel` tests of its condition. -/
def load (fuel : ℕ) (disk : Disk) (b : PublisherInfoBackend) (start limit : UInt32)
    (results : List Bytes) : Option Answer :=
  match b.ensureInitialized disk with
  | (false, b) => some (false, b, results)
  | (true, b) => b.db_.bind fun db =>
      (loop (more limit) (loadBody start) fuel
        (db.seekToFirst db.newIterator, ⟨0, 0, results⟩)).map fun s => (true, b, s.2.results)

/-- After `EnsureInitialized` has answered `true` there is a database. -/
lemma exists_db_of_ensureInitialized {disk : Disk} {b b' : PublisherInfoBackend}
    (h : b.ensureInitialized disk = (true, b')) : ∃ db, b' = ⟨b.path_, some db⟩ := by
  obtain ⟨path, odb⟩ := b
  cases odb with
  | some db =>
      simp only [ensureInitialized, Prod.mk.injEq, true_and] at h
      exact ⟨db, h.symm⟩
  | none =>
      simp only [ensureInitialized] at h
      split at h
      · rename_i db _
        simp only [Prod.mk.injEq, true_and] at h
        exact ⟨db, h.symm⟩
      · simp at h

end PublisherInfoBackend

/-! ### What a scan appends -/

section Scans

variable {db : DB}

/-- What an open window makes of a value; a full one ignores it. -/
def Window.take (start limit : UInt32) (w : Window) (value : Bytes) : Window :=
  if w.count < limit then w.push start value else w

/-- A full window takes nothing more. -/
lemma foldl_take_of_full {start limit : UInt32} {w : Window} (h : ¬ w.count < limit)
    (vs : List Bytes) : vs.foldl (Window.take start limit) w = w := by
  induction vs with
  | nil => rfl
  | cons v vs ih => rw [List.foldl_cons, Window.take, if_neg h, ih]

/-- **What a window takes** of the values shown to it: those that its counter, modulo `2^32`,
does not skip, as many as there is room for. -/
lemma results_foldl_take {start limit : UInt32} (vs : List Bytes) (w : Window) :
    (vs.foldl (Window.take start limit) w).results = w.results ++
      (sieve (2 ^ 32) start.toNat w.position.toNat vs).take (limit.toNat - w.count.toNat) := by
  induction vs generalizing w with
  | nil => simp
  | cons v vs ih =>
      rw [List.foldl_cons, ih]
      by_cases hfull : w.count < limit
      · have hcount : w.count.toNat < limit.toNat := hfull
        have hlim := limit.toNat_lt
        have hpos := w.position.toNat_lt
        have hmod : w.position.toNat % 2 ^ 32 = w.position.toNat := Nat.mod_eq_of_lt hpos
        have hnext : (w.position + 1).toNat % 2 ^ 32 = (w.position.toNat + 1) % 2 ^ 32 := by
          simp
        rw [Window.take, if_pos hfull, Window.push]
        by_cases hskip : w.position < start
        · have hlt : w.position.toNat < start.toNat := hskip
          rw [if_pos hskip, sieve_cons_of_lt _ _ (by omega), sieve_congr _ _ hnext]
        · have hge : ¬ w.position.toNat < start.toNat := hskip
          have hone : (w.count + 1).toNat = w.count.toNat + 1 :=
            toNat_add_of_lt (by rw [UInt32.toNat_one]; omega)
          obtain ⟨k, hk⟩ : ∃ k, limit.toNat - w.count.toNat = k + 1 :=
            ⟨limit.toNat - w.count.toNat - 1, by omega⟩
          have hk' : limit.toNat - (w.count.toNat + 1) = k := by omega
          rw [if_neg hskip, sieve_cons_of_not_lt _ _ (by omega), sieve_congr _ _ hnext, hk,
            List.take_succ_cons]
          simp only [hone, hk', List.append_assoc, List.singleton_append]
      · have hcount : ¬ w.count.toNat < limit.toNat := hfull
        have hzero : limit.toNat - w.count.toNat = 0 := by omega
        rw [Window.take, if_neg hfull, hzero, List.take_zero, List.take_zero]

/-- What an iteration does at an entry: it shows the value to the window and goes on to the next
entry, or it jumps past the end. `shown` lists what is shown of the entries ahead. -/
def Shows (start : UInt32) (body : db.Iterator × Window → db.Iterator × Window)
    (shown : List (Bytes × Bytes) → List Bytes) : Prop :=
  ∀ it w e es, db.rest it = e :: es → ∃ it',
    (body (it, w) = (it', w.push start e.2) ∧ db.rest it' = es ∧
      shown (e :: es) = e.2 :: shown es) ∨
    (body (it, w) = (it', w) ∧ db.rest it' = [] ∧ shown (e :: es) = [])

/-- The loop invariant: what is still to be shown makes the window `final`. -/
def Completes (start limit : UInt32) (shown : List (Bytes × Bytes) → List Bytes) (final : Window)
    (s : db.Iterator × Window) : Prop :=
  (shown (db.rest s.1)).foldl (Window.take start limit) s.2 = final

section

variable {start limit : UInt32} {body : db.Iterator × Window → db.Iterator × Window}
  {shown : List (Bytes × Bytes) → List Bytes}

/-- Where the loop goes on there is room and an entry. -/
lemma exists_of_more {s : db.Iterator × Window} (h : more limit s = true) :
    s.2.count < limit ∧ ∃ e es, db.rest s.1 = e :: es := by
  obtain ⟨hroom, hvalid⟩ : s.2.count < limit ∧ db.valid s.1 = true := by simpa [more] using h
  exact ⟨hroom, DB.exists_rest_cons hvalid⟩

/-- An iteration keeps the invariant. -/
lemma Shows.completes (h : Shows start body shown) (hnil : shown [] = []) {final : Window}
    {s : db.Iterator × Window} (hs : Completes start limit shown final s)
    (hmore : more limit s = true) : Completes start limit shown final (body s) := by
  obtain ⟨it, w⟩ := s
  obtain ⟨hroom, e, es, hr⟩ := exists_of_more hmore
  obtain ⟨it', ⟨hb, hrest, hsh⟩ | ⟨hb, hrest, hsh⟩⟩ := h it w e es hr
  · rw [Completes, hr, hsh, List.foldl_cons, Window.take, if_pos hroom] at hs
    rwa [Completes, hb, hrest]
  · rw [Completes, hr, hsh] at hs
    rwa [Completes, hb, hrest, hnil]

/-- An iteration leaves fewer entries ahead. -/
lemma Shows.rest_lt (h : Shows start body shown) {s : db.Iterator × Window}
    (hmore : more limit s = true) : (db.rest (body s).1).length < (db.rest s.1).length := by
  obtain ⟨it, w⟩ := s
  obtain ⟨_, e, es, hr⟩ := exists_of_more hmore
  obtain ⟨it', ⟨hb, hrest, _⟩ | ⟨hb, hrest, _⟩⟩ := h it w e es hr
  · simp [hb, hrest, hr]
  · simp [hb, hrest, hr]

/-- At the end of the loop nothing is taken any more. -/
lemma Completes.eq_of_end {final : Window} {s : db.Iterator × Window}
    (hs : Completes start limit shown final s) (hnil : shown [] = [])
    (hend : more limit s = false) : s.2 = final := by
  rw [← hs]
  by_cases hroom : s.2.count < limit
  · have hvalid : db.valid s.1 = false := by simpa [more, hroom] using hend
    have hempty : db.rest s.1 = [] := by simpa [db.valid_eq] using hvalid
    rw [hempty, hnil, List.foldl_nil]
  · rw [foldl_take_of_full hroom]

/-- **One loop**: it ends, and the window has been shown what is ahead of the iterator. -/
lemma Shows.scan_ends (h : Shows start body shown) (hnil : shown [] = []) (limit : UInt32)
    (it : db.Iterator) (w : Window) {fuel : ℕ} (hfuel : (db.rest it).length < fuel) :
    ∃ it', loop (more limit) body fuel (it, w) =
      some (it', (shown (db.rest it)).foldl (Window.take start limit) w) := by
  obtain ⟨⟨it', w'⟩, hrun, hinv, hend⟩ := loop_ends
    (Completes start limit shown ((shown (db.rest it)).foldl (Window.take start limit) w))
    (fun s => (db.rest s.1).length) (fun _ hs hmore => h.completes hnil hs hmore)
    (fun _ _ hmore => h.rest_lt hmore) (s := (it, w)) rfl hfuel
  exact ⟨it', by rw [hrun, ← hinv.eq_of_end hnil hend]⟩

end

/-- The values of the entries up to the first whose value does not begin with the slice. -/
def runValues (slice : Bytes) (es : List (Bytes × Bytes)) : List Bytes :=
  (es.takeWhile fun e => startsWith e.2 slice).map Prod.snd

lemma shows_searchBody (slice : Bytes) (start : UInt32) :
    Shows start (searchBody slice start : db.Iterator × Window → db.Iterator × Window)
      (runValues slice) := by
  intro it w e es hr
  have hvalid : db.valid it = true := by simp [db.valid_eq, hr]
  have hvalue : db.value it = e.2 := db.value_eq it e es hr
  cases hs : startsWith e.2 slice with
  | true =>
      refine ⟨db.next it, .inl ⟨by simp [searchBody, hvalue, hs], ?_, by simp [runValues, hs]⟩⟩
      rw [db.rest_next it hvalid, hr, List.tail_cons]
  | false =>
      exact ⟨db.next (db.seekToLast it), .inr ⟨by simp [searchBody, hvalue, hs],
        DB.rest_next_seekToLast hvalid, by simp [runValues, hs]⟩⟩

lemma shows_loadBody (start : UInt32) :
    Shows start (loadBody start : db.Iterator × Window → db.Iterator × Window)
      (List.map Prod.snd) := by
  intro it w e es hr
  have hvalid : db.valid it = true := by simp [db.valid_eq, hr]
  refine ⟨db.next it, .inl ⟨by rw [loadBody, db.value_eq it e es hr], ?_, rfl⟩⟩
  rw [db.rest_next it hvalid, hr, List.tail_cons]

end Scans

/-! ### What a call appends -/

/-- The values that `Search` reads for one prefix: those of the entries from the first key that
is not below the prefix on, up to the first *value* that does not begin with it. -/
def valueRun (db : DB) (slice : Bytes) : List Bytes :=
  runValues slice (db.entries.dropWhile fun e => e.1 < slice)

/-- The values of a window of a scan over `vs`: those whose position, counted modulo `2^32`, is
at least `start`, and `limit` of them at most. -/
def window (start limit : UInt32) (vs : List Bytes) : List Bytes :=
  (sieve (2 ^ 32) start.toNat 0 vs).take limit.toNat

/-- A call of a backend on the results so far, with a bound on the tests of each loop. -/
abbrev Call := ℕ → Disk → PublisherInfoBackend → List Bytes → Option PublisherInfoBackend.Answer

/-- On a backend that has, or now opens, the database `db`, the call ends from some bound on,
answers `true` and appends `vs` to the results. -/
def Appends (call : Call) (db : DB) (vs : List Bytes) : Prop :=
  ∃ bound, ∀ fuel ≥ bound, ∀ disk b path results,
    b.ensureInitialized disk = (true, ⟨path, some db⟩) →
      call fuel disk b results = some (true, ⟨path, some db⟩, results ++ vs)

/-- What a call appends is determined. -/
lemma Appends.unique {call : Call} {db : DB} {vs ws : List Bytes} (hvs : Appends call db vs)
    (hws : Appends call db ws) : vs = ws := by
  obtain ⟨m, hm⟩ := hvs
  obtain ⟨n, hn⟩ := hws
  have disk : Disk := ⟨fun _ => .failed, fun _ => .failed⟩
  have h := (hm (max m n) (le_max_left m n) disk ⟨"", some db⟩ "" [] rfl).symm.trans
    (hn (max m n) (le_max_right m n) disk ⟨"", some db⟩ "" [] rfl)
  simpa using h

/-- **The loop nest**: it ends, and the window has been shown the runs of all prefixes. -/
lemma searchSlices_end {db : DB} (prefixes : List Bytes) (start limit : UInt32) {fuel : ℕ}
    (hfuel : db.entries.length < fuel) (it : db.Iterator) (w : Window) :
    ∃ it', prefixes.foldlM (searchSlice fuel start limit) (it, w) =
      some (it', (prefixes.flatMap (valueRun db)).foldl (Window.take start limit) w) := by
  induction prefixes generalizing it w with
  | nil => exact ⟨it, rfl⟩
  | cons slice prefixes ih =>
      have hlen : (db.rest (db.seek it slice)).length < fuel :=
        (db.rest_suffix (db.seek it slice)).length_le.trans_lt hfuel
      obtain ⟨jt, hslice⟩ :=
        (shows_searchBody slice start).scan_ends rfl limit (db.seek it slice) w hlen
      rw [db.rest_seek] at hslice
      obtain ⟨it', hrest⟩ := ih jt ((valueRun db slice).foldl (Window.take start limit) w)
      refine ⟨it', ?_⟩
      calc (slice :: prefixes).foldlM (searchSlice fuel start limit) (it, w)
          = (searchSlice fuel start limit (it, w) slice).bind fun s =>
              prefixes.foldlM (searchSlice fuel start limit) s := List.foldlM_cons
        _ = prefixes.foldlM (searchSlice fuel start limit)
              (jt, (valueRun db slice).foldl (Window.take start limit) w) := by
            rw [searchSlice, hslice]
            rfl
        _ = some (it', ((slice :: prefixes).flatMap (valueRun db)).foldl
              (Window.take start limit) w) := by
            rw [hrest, List.flatMap_cons, List.foldl_append]

/-- **`Search` ends** and appends the window of the runs it reads. -/
theorem search_appends (db : DB) (prefixes : List Bytes) (start limit : UInt32) :
    Appends (fun fuel disk b => b.search fuel disk prefixes start limit) db
      (window start limit (prefixes.flatMap (valueRun db))) := by
  refine ⟨db.entries.length + 1, fun fuel hfuel disk b path results hb => ?_⟩
  obtain ⟨it, hrun⟩ := searchSlices_end prefixes start limit hfuel db.newIterator ⟨0, 0, results⟩
  simp only [PublisherInfoBackend.search, hb, Option.bind_some]
  rw [hrun, Option.map_some, results_foldl_take]
  rfl

/-- **`Load` ends** and appends the window of all values. -/
theorem load_appends (db : DB) (start limit : UInt32) :
    Appends (fun fuel disk b => b.load fuel disk start limit) db
      (window start limit (db.entries.map Prod.snd)) := by
  refine ⟨db.entries.length + 1, fun fuel hfuel disk b path results hb => ?_⟩
  have hlen : (db.rest (db.seekToFirst db.newIterator)).length < fuel := by
    rw [db.rest_seekToFirst]
    omega
  obtain ⟨it, hrun⟩ := (shows_loadBody start).scan_ends rfl limit
    (db.seekToFirst db.newIterator) ⟨0, 0, results⟩ hlen
  rw [db.rest_seekToFirst] at hrun
  simp only [PublisherInfoBackend.load, hb, Option.bind_some]
  rw [hrun, Option.map_some, results_foldl_take]
  rfl

/-- A call that appends to the results where the database is open, and refuses where it cannot be
opened, ends and reports whether there is a database. -/
lemma Appends.ends (call : Call) {disk : Disk} {b : PublisherInfoBackend}
    (happ : ∀ db, ∃ vs, Appends call db vs)
    (hrefuse : ∀ fuel results b', b.ensureInitialized disk = (false, b') →
      call fuel disk b results = some (false, b', results)) :
    ∃ vs bound, ∀ fuel ≥ bound, ∀ results, call fuel disk b results =
      some ((b.ensureInitialized disk).1, (b.ensureInitialized disk).2, results ++ vs) := by
  cases h : b.ensureInitialized disk with
  | mk initialized b' =>
    cases initialized with
    | true =>
        obtain ⟨db, rfl⟩ := PublisherInfoBackend.exists_db_of_ensureInitialized h
        obtain ⟨vs, bound, hcall⟩ := happ db
        exact ⟨vs, bound, fun fuel hfuel results => hcall fuel hfuel disk b _ results h⟩
    | false =>
        refine ⟨[], 0, fun fuel _ results => ?_⟩
        rw [hrefuse fuel results b' h, List.append_nil]

/-- **Both scans end**, whatever the disk answers. -/
theorem scans_end (disk : Disk) (b : PublisherInfoBackend) (prefixes : List Bytes)
    (start limit : UInt32) :
    (∃ vs bound, ∀ fuel ≥ bound, ∀ results, b.search fuel disk prefixes start limit results =
      some ((b.ensureInitialized disk).1, (b.ensureInitialized disk).2, results ++ vs)) ∧
    ∃ vs bound, ∀ fuel ≥ bound, ∀ results, b.load fuel disk start limit results =
      some ((b.ensureInitialized disk).1, (b.ensureInitialized disk).2, results ++ vs) := by
  refine ⟨Appends.ends (fun fuel disk b => b.search fuel disk prefixes start limit)
    (fun db => ⟨_, search_appends db prefixes start limit⟩) fun fuel results b' h => ?_,
    Appends.ends (fun fuel disk b => b.load fuel disk start limit)
    (fun db => ⟨_, load_appends db start limit⟩) fun fuel results b' h => ?_⟩
  · simp only [PublisherInfoBackend.search, h]
  · simp only [PublisherInfoBackend.load, h]

end RewardsDriver.Backend
