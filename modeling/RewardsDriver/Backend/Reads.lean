import RewardsDriver.Backend.PutGet

/-!
What the publisher store over LevelDB reads back, after any run of calls and restarts.

* `get_answers`: **a read** finds a value that the events allow for its key, and finds nothing only
  where they allow nothing; or LevelDB refuses.
* `acknowledged_kept`: **a write that was acknowledged** is read back until its key is written again
  or the files are deleted.
* `reads_lastWrites`: **where every write was acknowledged** and no file deleted, the store reads as
  the map of the last writes.
* `valuesFollowKeys_of_begins`, `searches_by_key`: **searches are by key** in every run whose values
  begin with their keys.
-/

namespace RewardsDriver.Backend

/-! ### LevelDB in memory -/

/-- An open database with the given contents. -/
def DB.ofContents (m : Contents) : DB := .ofEntries m.entries m.sorted

/-- LevelDB that never fails. -/
def LevelDB.memory : LevelDB where
  dbOpen := fun _ m => .ok (.ofContents m)
  dbOpenRemoved := fun _ => .ok (.ofContents .empty)
  put := fun _ db key value => (.ok, .ofContents (db.contents.insert key value))
  get := fun _ db key value =>
    match db.contents.get? key with
    | some v => (.ok, v)
    | none => (.notFound, value)
  dbOpen_ok := fun _ _ _ h => by cases h; rfl
  dbOpenRemoved_ok := fun _ _ h => by cases h; rfl
  put_ok := fun _ _ _ _ _ h => by cases h; rfl
  put_failed := fun _ _ _ _ _ _ h hstatus => by cases h; exact absurd rfl hstatus
  get_ok := fun _ db key value v h => by
    cases hget : db.contents.get? key with
    | some u => simpa [hget] using h
    | none => simp [hget] at h
  get_notFound := fun _ db key value v h => by
    cases hget : db.contents.get? key with
    | some u => simp [hget] at h
    | none => exact ⟨rfl, by simpa [hget, eq_comm] using h⟩

/-- LevelDB that refuses a write at one call, and else never fails. -/
def LevelDB.refusing (call : ℕ) : LevelDB where
  dbOpen := LevelDB.memory.dbOpen
  dbOpenRemoved := LevelDB.memory.dbOpenRemoved
  put := fun n db key value =>
    if n = call then (.failed, db) else LevelDB.memory.put n db key value
  get := LevelDB.memory.get
  dbOpen_ok := LevelDB.memory.dbOpen_ok
  dbOpenRemoved_ok := LevelDB.memory.dbOpenRemoved_ok
  put_ok := fun n db key value db' h => by
    split at h
    · cases h
    · exact LevelDB.memory.put_ok n db key value db' h
  put_failed := fun n db key value status db' h hstatus => by
    split at h
    · cases h
      exact .inl rfl
    · exact LevelDB.memory.put_failed n db key value status db' h hstatus
  get_ok := LevelDB.memory.get_ok
  get_notFound := LevelDB.memory.get_notFound

/-! ### One read -/

section Get

variable {E : LevelDB} {m : Contents} {path : String} {w : World}

/-- LevelDB refuses a read: the database cannot be opened, or the read fails. -/
def Refuses (E : LevelDB) (n : ℕ) (b : PublisherInfoBackend) (lookup value : Bytes) : Prop :=
  ∀ db, b.db_ = some db → (E.get n db lookup value).1 = .failed

/-- What is found when the next call opens the store is possible by the events. -/
lemma found_possible (h : (running E path m).Reach System.Free w) (key : Bytes) :
    (w.found E).get? key ∈ possible m (w.history ++ w.removal E) key := by
  rw [possible, List.foldl_append]
  exact found_effect w (possible_reach h key)

/-- What a read finds is what the call opens the store on, unless LevelDB refuses it. -/
lemma get_found (h : (running E path m).Reach System.Free w) (lookup value : Bytes) :
    ∃ ok b v, w.backend.get E w.calls (w.disk E) lookup value = some (ok, b, v) ∧
      ((ok = true ∧ (w.found E).get? lookup = some v) ∨
        (ok = false ∧ v = value ∧ (w.found E).get? lookup = none) ∨
        (ok = false ∧ Refuses E w.calls b lookup value)) := by
  cases hinit : w.backend.ensureInitialized (w.disk E) with
  | mk initialized b =>
    cases initialized with
    | true =>
        obtain ⟨db, rfl, hdb⟩ := ensureInitialized_true (inv_reach h) hinit
        cases hget : E.get w.calls db lookup value with
        | mk status v =>
          cases status with
          | ok =>
              have hv := E.get_ok _ _ _ _ _ hget
              refine ⟨true, ⟨w.backend.path_, some db⟩, v, ?_, .inl ⟨rfl, ?_⟩⟩
              · simp only [PublisherInfoBackend.get, hinit, Option.map_some, hget]
              · rw [← hdb, hv]
          | notFound =>
              obtain ⟨hnone, hv⟩ := E.get_notFound _ _ _ _ _ hget
              refine ⟨false, ⟨w.backend.path_, some db⟩, v, ?_, .inr (.inl ⟨rfl, hv, ?_⟩)⟩
              · simp only [PublisherInfoBackend.get, hinit, Option.map_some, hget]
              · rw [← hdb, hnone]
          | failed =>
              refine ⟨false, ⟨w.backend.path_, some db⟩, v, ?_, .inr (.inr ⟨rfl, ?_⟩)⟩
              · simp only [PublisherInfoBackend.get, hinit, Option.map_some, hget]
              · intro db' hdb'
                obtain rfl := Option.some.inj hdb'
                rw [hget]
    | false =>
        refine ⟨false, b, value, ?_, .inr (.inr ⟨rfl, fun db hdb => ?_⟩)⟩
        · simp only [PublisherInfoBackend.get, hinit]
        · rw [ensureInitialized_false hinit] at hdb
          cases hdb

/-- **A read** after any run: it finds a value that the events allow, it finds nothing where they
allow nothing and leaves the value alone, or LevelDB refuses it. -/
theorem get_answers (h : (running E path m).Reach System.Free w) (lookup value : Bytes) :
    ∃ ok b v, w.backend.get E w.calls (w.disk E) lookup value = some (ok, b, v) ∧
      ((ok = true ∧ some v ∈ possible m (w.history ++ w.removal E) lookup) ∨
        (ok = false ∧ v = value ∧ none ∈ possible m (w.history ++ w.removal E) lookup) ∨
        (ok = false ∧ Refuses E w.calls b lookup value)) := by
  have hpossible := found_possible h lookup
  obtain ⟨ok, b, v, hget, hcases⟩ := get_found h lookup value
  refine ⟨ok, b, v, hget, ?_⟩
  obtain ⟨hok, hv⟩ | ⟨hok, hv, hnone⟩ | hrefuses := hcases
  · exact .inl ⟨hok, by rwa [← hv]⟩
  · exact .inr (.inl ⟨hok, hv, by rwa [← hnone]⟩)
  · exact .inr (.inr hrefuses)

/-- An acknowledged write determines the value, as long as later events spare its key. -/
lemma possible_of_acknowledged {key v : Bytes} {h₁ h₂ : List Event}
    (hspares : ∀ e ∈ h₂, e.Spares key) :
    possible m (h₁ ++ .put key v true :: h₂) key = {some v} := by
  rw [possible, List.foldl_append, List.foldl_cons, foldl_effect_of_spares hspares, Event.effect,
    if_pos rfl]

/-- **A write that was acknowledged**, in any run and whatever failed before or after it: until its
key is written again or the files are found corrupt, a read of the key finds its value or is refused
by LevelDB. -/
theorem acknowledged_kept (h : (running E path m).Reach System.Free w) {key v : Bytes}
    {h₁ h₂ : List Event} (hhistory : w.history ++ w.removal E = h₁ ++ .put key v true :: h₂)
    (hspares : ∀ e ∈ h₂, e.Spares key) (value : Bytes) :
    ∃ ok b u, w.backend.get E w.calls (w.disk E) key value = some (ok, b, u) ∧
      ((ok = true ∧ u = v) ∨ (ok = false ∧ Refuses E w.calls b key value)) := by
  have hfound : (w.found E).get? key = some v := by
    have hpossible := found_possible h key
    rwa [hhistory, possible_of_acknowledged hspares] at hpossible
  obtain ⟨ok, b, u, hget, hcases⟩ := get_found h key value
  refine ⟨ok, b, u, hget, ?_⟩
  obtain ⟨hok, hu⟩ | ⟨-, -, hnone⟩ | hrefuses := hcases
  · exact .inl ⟨hok, Option.some.inj (hu.symm.trans hfound)⟩
  · rw [hfound] at hnone
    cases hnone
  · exact .inr hrefuses

end Get

/-- The store in memory, on a path that holds nothing. -/
def memoryRun : System World Op := running .memory "publisher_info_db" .empty

/-- One write and a restart. -/
def writeRestart : List Op := [.put [97] [97, 120], .restart]

lemma reach_writeRestart :
    memoryRun.Reach System.Free ((memoryRun.run memoryRun.init writeRestart).get rfl) :=
  System.reach_of_run (Option.some_get _).symm

/-- Two writes, of which the second one is refused, and a restart. -/
def writeTwice : List Op := [.put [97] [97, 120], .put [98] [98, 121], .restart]

/-- The store of which the second call is refused. -/
def refusingRun : System World Op := running (.refusing 1) "publisher_info_db" .empty

/-- The key of a write that was refused, after a restart. -/
theorem get_answers_refused : ∃ w, refusingRun.run refusingRun.init writeTwice = some w ∧
    w.history = [.put [97] [97, 120] true, .put [98] [98, 121] false] ∧
    ∃ ok b v, w.backend.get (.refusing 1) w.calls (w.disk (.refusing 1)) [98] [] = some (ok, b, v) ∧
      ((ok = true ∧ some v ∈ possible .empty (w.history ++ w.removal (.refusing 1)) [98]) ∨
        (ok = false ∧ v = [] ∧
          none ∈ possible .empty (w.history ++ w.removal (.refusing 1)) [98]) ∨
        (ok = false ∧ Refuses (.refusing 1) w.calls b [98] [])) :=
  ⟨_, rfl, rfl, get_answers (System.reach_of_run
    (show refusingRun.run refusingRun.init writeTwice = some _ from rfl)) [98] []⟩

/-- A write is read back after a restart. -/
theorem acknowledged_kept_restart : ∃ w, memoryRun.run memoryRun.init writeRestart = some w ∧
    ∃ ok b u, w.backend.get .memory w.calls (w.disk .memory) [97] [] = some (ok, b, u) ∧
      ((ok = true ∧ u = [97, 120]) ∨ (ok = false ∧ Refuses .memory w.calls b [97] [])) :=
  ⟨_, rfl, acknowledged_kept reach_writeRestart (List.nil_append _).symm
    (fun e he => absurd (show e ∈ ([] : List Event) from he) List.not_mem_nil) []⟩

/-! ### The map of the last writes -/

/-- The contents after writes, in order. -/
def Contents.writeAll (m : Contents) (puts : List (Bytes × Bytes)) : Contents :=
  puts.foldl (fun m p => m.insert p.1 p.2) m

/-- Acknowledged writes leave every key one value. -/
lemma possible_puts (m : Contents) (puts : List (Bytes × Bytes)) (key : Bytes) :
    possible m (puts.map fun p => .put p.1 p.2 true) key = {(m.writeAll puts).get? key} := by
  induction puts generalizing m with
  | nil => rfl
  | cons p puts ih =>
      have hfirst : Event.effect key {m.get? key} (.put p.1 p.2 true)
          = {(m.insert p.1 p.2).get? key} := by
        rw [Event.effect, SortedMap.get?_insert]
        by_cases hp : p.1 = key
        · rw [if_pos hp, if_pos hp.symm]
        · rw [if_neg hp, if_neg (Ne.symm hp)]
      calc possible m ((p :: puts).map fun p => .put p.1 p.2 true) key
          = possible (m.insert p.1 p.2) (puts.map fun p => .put p.1 p.2 true) key := by
            rw [possible, List.map_cons, List.foldl_cons, hfirst, possible]
        _ = {(m.writeAll (p :: puts)).get? key} := ih (m.insert p.1 p.2)

/-- **Where every write was acknowledged** and no file deleted, in any run of calls and restarts, a
store that can be opened holds the last writes: `Get` finds exactly their keys, unless LevelDB
refuses the read, and `Load` ends and appends their values, in the order of the keys, within its
window. -/
theorem reads_lastWrites {E : LevelDB} {m : Contents} {path : String} {w : World}
    (h : (running E path m).Reach System.Free w) {puts : List (Bytes × Bytes)}
    (hhistory : w.history ++ w.removal E = puts.map fun p => .put p.1 p.2 true)
    {b : PublisherInfoBackend} (hinit : w.backend.ensureInitialized (w.disk E) = (true, b)) :
    (∀ lookup value, ¬ Refuses E w.calls b lookup value →
      w.backend.get E w.calls (w.disk E) lookup value = some
        (((m.writeAll puts).get? lookup).isSome, b, ((m.writeAll puts).get? lookup).getD value)) ∧
    ∀ start limit, ∃ bound, ∀ fuel ≥ bound, ∀ results,
      w.backend.load fuel (w.disk E) start limit results = some (true, b,
        results ++ window start limit ((m.writeAll puts).entries.map Prod.snd)) := by
  have hfound : w.found E = m.writeAll puts := by
    refine SortedMap.ext_get? fun key => ?_
    have hkey := found_possible h key
    rwa [hhistory, possible_puts] at hkey
  obtain ⟨db, rfl, hdb⟩ := ensureInitialized_true (inv_reach h) hinit
  rw [hfound] at hdb
  constructor
  · intro lookup value hserves
    cases hget : E.get w.calls db lookup value with
    | mk status v =>
      cases status with
      | ok =>
          have hv := E.get_ok _ _ _ _ _ hget
          rw [hdb] at hv
          simp only [PublisherInfoBackend.get, hinit, Option.map_some, hget, hv, Option.isSome_some,
            Option.getD_some]
      | notFound =>
          obtain ⟨hnone, rfl⟩ := E.get_notFound _ _ _ _ _ hget
          rw [hdb] at hnone
          simp only [PublisherInfoBackend.get, hinit, Option.map_some, hget, hnone,
            Option.isSome_none, Option.getD_none]
      | failed =>
          refine absurd (fun db' hdb' => ?_) hserves
          obtain rfl := Option.some.inj hdb'
          rw [hget]
  · intro start limit
    obtain ⟨bound, hload⟩ := load_appends db start limit
    refine ⟨bound, fun fuel hfuel results => ?_⟩
    have hentries : db.entries = (m.writeAll puts).entries := congrArg SortedMap.entries hdb
    rw [← hentries]
    exact hload fuel hfuel _ _ _ results hinit

/-- After one write and a restart `Load` appends its value. -/
theorem reads_lastWrites_restart : ∃ w b, memoryRun.run memoryRun.init writeRestart = some w ∧
    ∃ bound, ∀ fuel ≥ bound, ∀ results,
      w.backend.load fuel (w.disk .memory) 0 5 results = some (true, b,
        results ++ window 0 5
          ((Contents.writeAll .empty [([97], [97, 120])]).entries.map Prod.snd)) :=
  ⟨_, _, rfl, (reads_lastWrites reach_writeRestart
    (show _ = [([97], [97, 120])].map fun p => Event.put p.1 p.2 true from rfl) rfl).2 0 5⟩

/-! ### Values that begin with their keys -/

/-- Every value begins with its key. -/
def ValuesBeginWithKeys (es : List (Bytes × Bytes)) : Prop := ∀ e ∈ es, e.1 <+: e.2

/-- The guard that a write stores a value that begins with its key. -/
def BeginsWithKey (_ : World) : Op → Prop
  | .put key value => key <+: value
  | _ => True

/-- What comes at or after a word in a sorted list is not below it. -/
lemma not_lt_of_mem_dropWhile {es : List (Bytes × Bytes)} {s : Bytes} {e : Bytes × Bytes}
    (hes : es.Pairwise fun e f => e.1 < f.1) (he : e ∈ es.dropWhile fun e => e.1 < s) :
    ¬ e.1 < s := by
  have hsorted := hes.sublist (List.dropWhile_sublist fun e => decide (e.1 < s))
  cases hdrop : es.dropWhile fun e => decide (e.1 < s) with
  | nil => simp [hdrop] at he
  | cons f fs =>
      have hf : ¬ f.1 < s := by
        have hhead := List.head_dropWhile_not (fun e => decide (e.1 < s)) (l := es)
          (by simp [hdrop])
        simpa [hdrop] using hhead
      rw [hdrop] at he hsorted
      obtain rfl | he := List.mem_cons.mp he
      · exact hf
      · exact fun hlt => hf (IsTrans.trans _ _ _ ((List.pairwise_cons.mp hsorted).1 e he) hlt)

/-- A word with a proper continuation is below it. -/
lemma lt_of_begins {k s : Bytes} (h : k <+: s) (hne : k ≠ s) : k < s := by
  obtain ⟨t, rfl⟩ := h
  cases t with
  | nil => exact absurd (List.append_nil k).symm hne
  | cons b t =>
      have hlt : k ++ [] < k ++ b :: t := List.append_left_lt (List.nil_lt_cons b t)
      rwa [List.append_nil] at hlt

lemma startsWith_iff {s x : Bytes} : startsWith s x = true ↔ x <+: s := List.isPrefixOf_iff_prefix

/-- Where every value begins with its key the values tell where the keys with a prefix end. -/
lemma valuesFollowKeys_of_begins {db : DB} (h : ValuesBeginWithKeys db.entries) (slice : Bytes) :
    ValuesFollowKeys db slice := by
  refine ⟨fun e he hkey => ?_, fun e he => ?_⟩
  · exact startsWith_iff.mpr ((startsWith_iff.mp hkey).trans (h e he))
  · -- The entry behind the range has a key that is above the prefix and does not begin with it.
    have hnot : startsWith e.1 slice = false := by
      have hhead := List.head?_dropWhile_not (fun e : Bytes × Bytes => startsWith e.1 slice)
        (db.entries.dropWhile fun e => e.1 < slice)
      rw [behindRange, Option.mem_def] at he
      rw [he] at hhead
      simpa using hhead
    have hmem : e ∈ db.entries.dropWhile fun e => e.1 < slice :=
      (List.dropWhile_sublist _).subset (List.mem_of_head? he)
    have habove : ¬ e.1 < slice := not_lt_of_mem_dropWhile db.sorted hmem
    have hprefix : e.1 <+: e.2 := h e ((List.dropWhile_sublist _).subset hmem)
    by_contra hvalue
    have hslice : slice <+: e.2 := startsWith_iff.mp (by simpa using hvalue)
    obtain hkey | hkey := List.prefix_or_prefix_of_prefix hprefix hslice
    · by_cases heq : e.1 = slice
      · rw [heq, startsWith_iff.mpr List.prefix_rfl] at hnot
        cases hnot
      · exact habove (lt_of_begins hkey heq)
    · rw [startsWith_iff.mpr hkey] at hnot
      cases hnot

lemma valuesBeginWithKeys_insert {m : Contents} (h : ValuesBeginWithKeys m.entries)
    {key value : Bytes} (hvalue : key <+: value) :
    ValuesBeginWithKeys (m.insert key value).entries := by
  intro e he
  obtain rfl | ⟨-, he⟩ := (SortedMap.mem_insertEntry m.sorted).mp he
  · exact hvalue
  · exact h e he

lemma valuesBeginWithKeys_found {E : LevelDB} {w : World}
    (h : ValuesBeginWithKeys w.files.entries) : ValuesBeginWithKeys (w.found E).entries := by
  rw [World.found]
  cases w.corrupt E with
  | true => exact fun e he => absurd he List.not_mem_nil
  | false => exact h

/-- **The step lemma**: a call that stores no other value keeps the values at their keys. -/
lemma valuesBeginWithKeys_step {E : LevelDB} {w w' : World} {op : Op} (hinv : w.Inv)
    (hok : BeginsWithKey w op) (hstep : w.step E op = some w')
    (h : ValuesBeginWithKeys w.files.entries) : ValuesBeginWithKeys w'.files.entries := by
  have hfound := valuesBeginWithKeys_found (E := E) h
  obtain ⟨-, ⟨hfiles, -⟩ | ⟨events, houtcome, -⟩⟩ := step_outcome hinv hstep
  · rwa [hfiles]
  · generalize w'.files = files at houtcome ⊢
    cases houtcome with
    | kept => exact hfound
    | written => exact valuesBeginWithKeys_insert hfound hok
    | attempted hfiles =>
        obtain hfiles | hfiles := hfiles
        · exact hfiles ▸ hfound
        · exact hfiles ▸ valuesBeginWithKeys_insert hfound hok

/-- **Searches are by key** after every run, whatever fails in it, that stores only values which
begin with their keys: a search ends and appends, of the entries whose keys begin with its prefixes,
those in its window. -/
theorem searches_by_key {E : LevelDB} {m : Contents} {path : String} {w : World}
    (hm : ValuesBeginWithKeys m.entries) (h : (running E path m).Reach BeginsWithKey w)
    {db : DB} (hinit : w.backend.ensureInitialized (w.disk E) = (true, ⟨path, some db⟩))
    (prefixes : List Bytes) {start limit : UInt32}
    (hwindow : start.toNat + limit.toNat ≤ 2 ^ 32) :
    ∃ bound, ∀ fuel ≥ bound, ∀ results,
      w.backend.search fuel (w.disk E) prefixes start limit results = some (true, ⟨path, some db⟩,
        results ++ ((prefixes.flatMap (keyRange db)).drop start.toNat).take limit.toNat) := by
  have hfiles : w.Inv ∧ ValuesBeginWithKeys w.files.entries := by
    clear hinit
    induction h with
    | init => exact ⟨inv_init path, hm⟩
    | step _ hok hs ih =>
        exact ⟨(step_outcome ih.1 hs).1, valuesBeginWithKeys_step ih.1 hok hs ih.2⟩
  obtain ⟨db', hdb', hcontents⟩ := ensureInitialized_true hfiles.1 hinit
  obtain rfl : db = db' := by simpa using congrArg PublisherInfoBackend.db_ hdb'
  have hvalues : ValuesBeginWithKeys db.entries := by
    have hentries : db.entries = (w.found E).entries := congrArg SortedMap.entries hcontents
    rw [hentries]
    exact valuesBeginWithKeys_found hfiles.2
  obtain ⟨bound, hsearch⟩ : SearchesByKey db prefixes start limit :=
    searchesByKey_of_valuesFollowKeys
      (fun slice _ => valuesFollowKeys_of_begins hvalues slice) hwindow
  exact ⟨bound, fun fuel hfuel results => hsearch fuel hfuel _ _ _ results hinit⟩

/-- After one write of a value that begins with its key, a search for its first byte. -/
theorem searches_by_key_one : ∃ w db, memoryRun.run memoryRun.init [.put [97] [97, 120]] = some w ∧
    ∃ bound, ∀ fuel ≥ bound, ∀ results,
      w.backend.search fuel (w.disk .memory) [[97]] 0 5 results =
        some (true, ⟨"publisher_info_db", some db⟩,
          results ++ (([[97]].flatMap (keyRange db)).drop 0).take 5) :=
  ⟨_, _, rfl, searches_by_key (fun e he => absurd he List.not_mem_nil)
    (.step .init (a := .put [97] [97, 120]) ⟨[120], rfl⟩ rfl : memoryRun.Reach BeginsWithKey _)
    rfl [[97]] (by decide)⟩

end RewardsDriver.Backend
