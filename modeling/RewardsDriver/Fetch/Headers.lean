import Mathlib.Data.List.TakeWhile
import RewardsDriver.Base.Gather
import RewardsDriver.Base.Split

/-!
The headers of a response: `URLFetcher::GetResponseHeaders`.

The header data is split at CRLF, and every line at its runs of colons. A line with a colon gives a
name, the text before the first run, and a value, the text between the first run and the second.
Boost's splitters are not part of the program; `Boost` is what they do.

* `Boost`: the splitters.
* `getResponseHeaders`: the function, as a fold of `addLine` over the lines.
* `entryOf`, `getResponseHeaders_eq`: the pair that a line gives, and the map as the pairs gathered.
* `getResponseHeaders_perm`: **the order of the lines** matters among the lines of one name only.
* `Header`, `headerMap`: well-formed headers, and the map that they stand for.
* `gather_eq_headerMap_iff`, `roundTrips_iff`: which headers are read back.
-/

namespace RewardsDriver.Fetch

/-! ### The function -/

/-- `std::map<std::string, std::string>`. -/
abbrev Headers := String → Option String

/-- `is_any_of(":")`. -/
def isColon (c : Char) : Bool := c = ':'

/-- Boost's splitters, as `GetResponseHeaders` calls them. -/
structure Boost where
  /-- `split_regex`, at `"\r\n"`. -/
  split_regex : List Char → List (List Char)
  /-- `split`, at `is_any_of(":")` with `token_compress_on`. -/
  split : List Char → List (List Char)
  splitsLines : SplitsPairs '\r' '\n' split_regex
  splitsColons : SplitsRuns isColon split

/-- Splitters that do so. -/
def Boost.splitters : Boost where
  split_regex := splitPair '\r' '\n'
  split := splitRuns isColon
  splitsLines := splitsPairs_splitPair (by decide)
  splitsColons := splitsRuns_splitRuns isColon

variable (boost : Boost)

/-- One turn of the loop of `GetResponseHeaders`. -/
def addLine (headers : Headers) (i : List Char) : Headers :=
  match boost.split i with
  | name :: value :: _ =>
      let it_header := String.ofList name
      match headers it_header with
      | none => Function.update headers it_header (some (String.ofList value))
      -- a header that is repeated
      | some second =>
          Function.update headers it_header (some (second ++ ", " ++ String.ofList value))
  | _ => headers

/-- `GetResponseHeaders`, on the header data `s`. -/
def getResponseHeaders (s : String) (headers : Headers) : Headers :=
  (boost.split_regex s.toList).foldl (addLine boost) headers

/-! ### Lines and pairs -/

/-- The text of a line before its first colon. -/
def nameOf (i : List Char) : List Char := i.takeWhile fun c => !isColon c

/-- The value that is read after the first colon. -/
def readValue (cs : List Char) : List Char := (cs.dropWhile isColon).takeWhile fun c => !isColon c

/-- The pair that a line gives. -/
def entryOf (i : List Char) : Option (String × String) :=
  match i.dropWhile fun c => !isColon c with
  | _ :: value => some (String.ofList (nameOf i), String.ofList (readValue value))
  | [] => none

/-- Joining a header that is repeated. -/
def joinHeader (second value : String) : String := second ++ ", " ++ value

lemma isColon_eq_false {cs : List Char} (h : ':' ∉ cs) : ∀ c ∈ cs, isColon c = false := by
  intro c hc
  simp only [isColon, decide_eq_false_iff_not]
  rintro rfl
  exact h hc

/-- A line without a colon gives nothing. -/
lemma entryOf_of_notMem {i : List Char} (h : ':' ∉ i) : entryOf i = none := by
  have hnone : i.dropWhile (fun c => !isColon c) = [] := by
    simpa [List.dropWhile_eq_nil_iff] using isColon_eq_false h
  rw [entryOf, hnone]

lemma nameOf_append {name : List Char} (h : ':' ∉ name) (value : List Char) :
    nameOf (name ++ ':' :: value) = name := by
  rw [nameOf, List.takeWhile_append_of_pos (by simpa using isColon_eq_false h),
    List.takeWhile_cons_of_neg (by simp [isColon]), List.append_nil]

/-- A line with a colon gives the text before it, and what is read after it. -/
lemma entryOf_append {name : List Char} (h : ':' ∉ name) (value : List Char) :
    entryOf (name ++ ':' :: value)
      = some (String.ofList name, String.ofList (readValue value)) := by
  have hrest : (name ++ ':' :: value).dropWhile (fun c => !isColon c) = ':' :: value := by
    rw [List.dropWhile_append_of_pos (by simpa using isColon_eq_false h),
      List.dropWhile_cons_of_neg (by simp [isColon])]
  rw [entryOf, hrest, nameOf_append h]

/-- A line gives nothing if and only if it has no colon. -/
lemma entryOf_eq_none_iff {i : List Char} : entryOf i = none ↔ ':' ∉ i := by
  refine ⟨fun h hcolon => ?_, entryOf_of_notMem⟩
  obtain ⟨name, value, rfl, hname⟩ := List.eq_append_cons_of_mem hcolon
  rw [entryOf_append hname] at h
  cases h

/-- A line that gives a pair has a colon, and the text before it is the name. -/
lemma name_of_entryOf {i : List Char} {e : String × String} (h : entryOf i = some e) :
    ':' ∈ i ∧ e.1 = String.ofList (nameOf i) := by
  by_cases hcolon : ':' ∈ i
  · obtain ⟨name, value, rfl, hname⟩ := List.eq_append_cons_of_mem hcolon
    rw [entryOf_append hname, Option.some.injEq] at h
    rw [← h, nameOf_append hname]
    exact ⟨hcolon, rfl⟩
  · rw [entryOf_of_notMem hcolon] at h
    cases h

/-- **The tokens of a line** with a colon begin with its name and its value. -/
lemma Boost.split_append {name : List Char} (h : ':' ∉ name) (value : List Char) :
    ∃ tokens, boost.split (name ++ ':' :: value) = name :: readValue value :: tokens := by
  have hfirst := boost.splitsColons.head? (value.dropWhile isColon)
  obtain ⟨tokens, hrest⟩ := List.head?_eq_some_iff.mp hfirst
  exact ⟨tokens, by rw [boost.splitsColons.append_cons (isColon_eq_false h) rfl, hrest]; rfl⟩

lemma addLine_eq (headers : Headers) (i : List Char) :
    addLine boost headers i = ((entryOf i).map (put joinHeader headers)).getD headers := by
  by_cases hcolon : ':' ∈ i
  · obtain ⟨name, value, rfl, hname⟩ := List.eq_append_cons_of_mem hcolon
    obtain ⟨tokens, hsplit⟩ := boost.split_append hname value
    rw [addLine, hsplit, entryOf_append hname]
    cases h : headers (String.ofList name) <;> simp [put, h, joinTo, joinHeader]
  · rw [addLine, boost.splitsColons.of_forall (isColon_eq_false hcolon), entryOf_of_notMem hcolon]
    rfl

lemma foldl_addLine (lines : List (List Char)) (headers : Headers) :
    lines.foldl (addLine boost) headers
      = gather joinHeader headers (lines.filterMap entryOf) := by
  induction lines generalizing headers with
  | nil => rfl
  | cons i lines ih =>
      rw [List.foldl_cons, ih, addLine_eq, List.filterMap_cons]
      cases entryOf i <;> rfl

/-- The map is the pairs of the lines gathered. -/
lemma getResponseHeaders_eq (s : String) (headers : Headers) :
    getResponseHeaders boost s headers
      = gather joinHeader headers ((boost.split_regex s.toList).filterMap entryOf) :=
  foldl_addLine boost _ headers

/-! ### The order of the lines -/

/-- The line has no CRLF. It may end in CR or begin with LF. -/
def CrlfFree (line : String) : Prop := PairFree '\r' '\n' line.toList

instance (line : String) : Decidable (CrlfFree line) :=
  inferInstanceAs (Decidable (PairFree _ _ _))

/-- The line carries the name. -/
def Carries (name line : String) : Prop :=
  ':' ∈ line.toList ∧ String.ofList (nameOf line.toList) = name

instance (name line : String) : Decidable (Carries name line) :=
  inferInstanceAs (Decidable (_ ∧ _))

/-- Splitting recovers the lines. -/
lemma getResponseHeaders_lines {lines : List String} (hfree : ∀ line ∈ lines, CrlfFree line)
    (headers : Headers) :
    getResponseHeaders boost ("\r\n".intercalate lines) headers
      = gather joinHeader headers ((lines.map String.toList).filterMap entryOf) := by
  rw [getResponseHeaders_eq, String.toList_intercalate]
  cases lines with
  | nil =>
      have hempty : boost.split_regex [] = [[]] :=
        boost.splitsLines.of_pairFree (pairFree_of_notMem List.not_mem_nil)
      exact congrArg (fun ls => gather joinHeader headers (ls.filterMap entryOf)) hempty
  | cons line lines =>
      have hpieces : ∀ s ∈ (line :: lines).map String.toList, PairFree '\r' '\n' s :=
        List.forall_mem_map.mpr hfree
      exact congrArg (fun ls => gather joinHeader headers (ls.filterMap entryOf))
        (boost.splitsLines.intercalate (by simp) hpieces)

/-- The values of a name come from the lines that carry it. -/
lemma valuesAt_lines (lines : List String) (name : String) :
    valuesAt ((lines.map String.toList).filterMap entryOf) name
      = valuesAt (((lines.filter (Carries name)).map String.toList).filterMap entryOf) name := by
  induction lines with
  | nil => rfl
  | cons line lines ih =>
      by_cases hline : Carries name line
      · rw [List.filter_cons_of_pos (by simpa using hline)]
        simp only [List.map_cons, List.filterMap_cons]
        cases entryOf line.toList with
        | none => exact ih
        | some e => simp only [valuesAt, List.filterMap_cons] at ih ⊢; rw [ih]
      · rw [List.filter_cons_of_neg (by simpa using hline), ← ih]
        simp only [List.map_cons, List.filterMap_cons]
        cases he : entryOf line.toList with
        | none => rfl
        | some e =>
            obtain ⟨hcolon, hname⟩ := name_of_entryOf he
            have hne : e.1 ≠ name := fun h => hline ⟨hcolon, hname.symm.trans h⟩
            simp [valuesAt, hne]

/-- **The value of a name** depends on what was there and on the lines that carry the name. -/
theorem getResponseHeaders_congr {lines lines' : List String} {headers headers' : Headers}
    {name : String} (hfree : ∀ line ∈ lines, CrlfFree line)
    (hfree' : ∀ line ∈ lines', CrlfFree line) (hname : headers name = headers' name)
    (hlines : lines.filter (Carries name) = lines'.filter (Carries name)) :
    getResponseHeaders boost ("\r\n".intercalate lines) headers name
      = getResponseHeaders boost ("\r\n".intercalate lines') headers' name := by
  rw [getResponseHeaders_lines boost hfree, getResponseHeaders_lines boost hfree', gather_apply,
    gather_apply, valuesAt_lines, hlines, ← valuesAt_lines, hname]

/-- **The order of the lines**: a permutation that keeps the order of the lines of each name keeps
the map; and the value of each name depends only on what was there and on the lines that carry the
name. -/
theorem getResponseHeaders_perm {lines lines' : List String} (hfree : ∀ line ∈ lines, CrlfFree line)
    (hperm : lines.Perm lines')
    (horder : ∀ name, lines.filter (Carries name) = lines'.filter (Carries name))
    (headers : Headers) :
    getResponseHeaders boost ("\r\n".intercalate lines) headers
        = getResponseHeaders boost ("\r\n".intercalate lines') headers ∧
      ∀ (name : String) (headers' : Headers) (others : List String),
        (∀ line ∈ others, CrlfFree line) → headers' name = headers name →
        others.filter (Carries name) = lines.filter (Carries name) →
        getResponseHeaders boost ("\r\n".intercalate others) headers' name
          = getResponseHeaders boost ("\r\n".intercalate lines) headers name := by
  have hfree' : ∀ line ∈ lines', CrlfFree line := fun line hline =>
    hfree line (hperm.mem_iff.mpr hline)
  exact ⟨funext fun name => getResponseHeaders_congr boost hfree hfree' rfl (horder name),
    fun name headers' others hothers hname hlines =>
      getResponseHeaders_congr boost hothers hfree hname hlines⟩

/-- Lines without a colon, with a run of them, ending in CR and beginning with LF. -/
def strayLines : List String := ["a:1\r", "OK", "a::2", "\nb:3"]

/-- The same lines in another order. -/
def strayLines' : List String := ["\nb:3", "a:1\r", "a::2", "OK"]

lemma strayLines_filter (name : String) :
    strayLines.filter (Carries name) = strayLines'.filter (Carries name) := by
  have hok : ¬ Carries name "OK" := by simp [Carries]
  have h1 : Carries name "a:1\r" → ¬ Carries name "\nb:3" := by
    rintro ⟨-, rfl⟩
    decide
  have h2 : Carries name "a::2" → ¬ Carries name "\nb:3" := by
    rintro ⟨-, rfl⟩
    decide
  rw [strayLines, strayLines']
  by_cases hb : Carries name "\nb:3"
  · have ha : ¬ Carries name "a:1\r" := fun h => h1 h hb
    have ha' : ¬ Carries name "a::2" := fun h => h2 h hb
    simp [hok, hb, ha, ha']
  · simp [List.filter_cons, hok, hb]

theorem getResponseHeaders_perm_stray :
    getResponseHeaders .splitters ("\r\n".intercalate strayLines) (fun _ => none)
      = getResponseHeaders .splitters ("\r\n".intercalate strayLines') (fun _ => none) :=
  (getResponseHeaders_perm .splitters (by decide) (by decide) strayLines_filter _).1

/-! ### Well-formed headers -/

/-- The text is within one line. -/
def InLine (s : String) : Prop := '\r' ∉ s.toList ∧ '\n' ∉ s.toList

instance (s : String) : Decidable (InLine s) := inferInstanceAs (Decidable (_ ∧ _))

/-- A header: a name without colons and a value, both within one line. -/
structure Header where
  name : String
  value : String
  name_ne : name ≠ ""
  name_colon : ':' ∉ name.toList
  name_inLine : InLine name
  value_inLine : InLine value

/-- A status line. -/
structure StatusLine where
  text : String
  inLine : InLine text

/-- The line of a header. -/
def Header.line (h : Header) : String := h.name ++ ":" ++ h.value

/-- The lines of a response, with the empty one at their end if it has come. -/
def responseLines (status : Option StatusLine) (hs : List Header) (final : Bool) : List String :=
  (status.map StatusLine.text).toList ++ hs.map Header.line ++ if final then [""] else []

/-- Lines that are all ended by CRLF. -/
def headerData (lines : List String) : String := String.join (lines.map (· ++ "\r\n"))

/-- The map that headers stand for: all values of a name, in order. -/
def headerMap (hs : List Header) : Headers := fun name =>
  let values := (hs.filter (·.name = name)).map Header.value
  if values = [] then none else some (", ".intercalate values)

/-! ### Reading well-formed headers -/

/-- The pair that is read from the line of a header. -/
def Header.parsed (h : Header) : String × String :=
  (h.name, String.ofList (readValue h.value.toList))

lemma Header.entryOf_line (h : Header) : entryOf h.line.toList = some h.parsed := by
  have hline : h.line.toList = h.name.toList ++ ':' :: h.value.toList := by
    simp [Header.line, String.toList_append]
  rw [hline, entryOf_append h.name_colon, String.ofList_toList]
  rfl

lemma crlfFree_of_inLine {s : String} (h : InLine s) : CrlfFree s := pairFree_of_notMem h.1

lemma Header.crlfFree_line (h : Header) : CrlfFree h.line := by
  refine crlfFree_of_inLine ⟨?_, ?_⟩
  · simp [Header.line, String.toList_append, h.name_inLine.1, h.value_inLine.1]
  · simp [Header.line, String.toList_append, h.name_inLine.2, h.value_inLine.2]

/-- Splitting recovers the lines that CRLF ends. -/
lemma getResponseHeaders_headerData {lines : List String} (hfree : ∀ line ∈ lines, CrlfFree line)
    (headers : Headers) :
    getResponseHeaders boost (headerData lines) headers
      = gather joinHeader headers ((lines.map String.toList).filterMap entryOf) := by
  have hdata : (headerData lines).toList
      = ((lines.map String.toList).flatMap fun s => s ++ ['\r', '\n']) ++ [] := by
    rw [headerData, String.toList_join, List.append_nil, List.flatMap_map, List.flatMap_map]
    simp [String.toList_append]
  have hpieces : ∀ s ∈ lines.map String.toList, PairFree '\r' '\n' s :=
    List.forall_mem_map.mpr hfree
  have hempty : boost.split_regex [] = [[]] :=
    boost.splitsLines.of_pairFree (pairFree_of_notMem List.not_mem_nil)
  have hlast : (boost.split_regex []).filterMap entryOf = [] := by
    rw [hempty]
    rfl
  rw [getResponseHeaders_eq, hdata, boost.splitsLines.flatMap hpieces, List.filterMap_append,
    hlast, List.append_nil]

/-- A value that is read has no colon. -/
lemma colon_notMem_of_entryOf {i : List Char} {e : String × String} (h : entryOf i = some e) :
    ':' ∉ e.2.toList := by
  obtain ⟨name, value, rfl, hname⟩ := List.eq_append_cons_of_mem (name_of_entryOf h).1
  rw [entryOf_append hname, Option.some.injEq] at h
  rw [← h, String.toList_ofList]
  exact fun hmem => by simpa [isColon] using List.mem_takeWhile_imp hmem

/-- A value without a colon is read as it is. -/
lemma readValue_eq_self {cs : List Char} (h : ':' ∉ cs) : readValue cs = cs := by
  have hfree := isColon_eq_false h
  have hdrop : cs.dropWhile isColon = cs := by
    cases cs with
    | nil => rfl
    | cons c cs => exact List.dropWhile_cons_of_neg (by simp [hfree c])
  rw [readValue, hdrop, List.takeWhile_eq_self_iff]
  simpa using hfree

lemma colon_mem_foldl (v : String) (vs : List String) :
    ':' ∈ (vs.foldl joinHeader v).toList ↔ ∃ u ∈ v :: vs, ':' ∈ u.toList := by
  induction vs generalizing v with
  | nil => simp
  | cons u vs ih =>
      rw [List.foldl_cons, ih]
      simp [joinHeader, String.toList_append, or_assoc]

lemma foldl_joinHeader (v : String) (vs : List String) :
    vs.foldl joinHeader v = ", ".intercalate (v :: vs) := by
  induction vs generalizing v with
  | nil => rw [List.foldl_nil, String.intercalate_singleton]
  | cons u vs ih =>
      calc (u :: vs).foldl joinHeader v
          = ", ".intercalate ((v ++ ", " ++ u) :: vs) := ih (joinHeader v u)
        _ = v ++ ", " ++ ", ".intercalate (u :: vs) := String.intercalate_cons_append
        _ = ", ".intercalate (v :: u :: vs) := String.intercalate_cons_cons.symm

lemma colon_mem_joinAll {vs : List String} {w : String}
    (h : joinAll joinHeader none vs = some w) :
    ':' ∈ w.toList ↔ ∃ u ∈ vs, ':' ∈ u.toList := by
  cases vs with
  | nil => simp at h
  | cons v vs =>
      rw [joinAll_none_cons, Option.some.injEq] at h
      rw [← h, colon_mem_foldl]

/-- The map that headers stand for, with the values joined one after the other. -/
lemma headerMap_apply (hs : List Header) (name : String) :
    headerMap hs name
      = joinAll joinHeader none ((hs.filter (·.name = name)).map Header.value) := by
  rw [headerMap]
  cases (hs.filter (·.name = name)).map Header.value with
  | nil => rfl
  | cons v vs => rw [joinAll_none_cons, foldl_joinHeader]; rfl

/-- Headers whose values have no colon are read as what they stand for. -/
lemma gather_parsed {hs : List Header} (hvalues : ∀ h ∈ hs, ':' ∉ h.value.toList) :
    gather joinHeader (fun _ => none) (hs.map Header.parsed) = headerMap hs := by
  funext name
  rw [gather_apply, headerMap_apply]
  congr 1
  induction hs with
  | nil => rfl
  | cons h hs ih =>
      have hrest := ih fun h' hh' => hvalues h' (List.mem_cons_of_mem h hh')
      have hvalue : readValue h.value.toList = h.value.toList :=
        readValue_eq_self (hvalues h List.mem_cons_self)
      by_cases hname : h.name = name
      · simpa [valuesAt, Header.parsed, hname, hvalue] using hrest
      · simpa [valuesAt, Header.parsed, hname] using hrest

/-- **Pairs before the headers** and colons in their values both show in the map. -/
theorem gather_eq_headerMap_iff {es : List (String × String)} (hes : ∀ e ∈ es, ':' ∉ e.2.toList)
    (hs : List Header) :
    gather joinHeader (fun _ => none) (es ++ hs.map Header.parsed) = headerMap hs
      ↔ es = [] ∧ ∀ h ∈ hs, ':' ∉ h.value.toList := by
  have hgather : (∀ h ∈ hs, ':' ∉ h.value.toList) →
      (gather joinHeader (fun _ => none) (es ++ hs.map Header.parsed) = headerMap hs ↔ es = []) :=
    fun hvalues => by
      rw [← gather_parsed hvalues]
      refine gather_append_eq_iff String.length (fun w v => ?_) (fun w w' v hw => ?_) _ _
      · rw [joinHeader, String.length_append, String.length_append]
        exact Nat.lt_add_of_pos_left (Nat.lt_of_lt_of_le (by decide) (Nat.le_add_left 2 w.length))
      · simpa [joinHeader] using hw
  refine ⟨fun h => ?_, fun h => (hgather h.2).mpr h.1⟩
  have hvalues : ∀ h ∈ hs, ':' ∉ h.value.toList := by
    intro h' hh' hcolon
    have hmem : h'.value ∈ (hs.filter (·.name = h'.name)).map Header.value :=
      List.mem_map_of_mem (List.mem_filter.mpr ⟨hh', by simp⟩)
    obtain ⟨w, hw⟩ : ∃ w, joinAll joinHeader none
        ((hs.filter (·.name = h'.name)).map Header.value) = some w :=
      exists_joinAll (List.ne_nil_of_mem hmem) none
    have hread := congrFun h h'.name
    rw [gather_apply, headerMap_apply, hw] at hread
    obtain ⟨u, hu, hucolon⟩ := (colon_mem_joinAll hread).mp
      ((colon_mem_joinAll hw).mpr ⟨_, hmem, hcolon⟩)
    obtain hu | hu := List.mem_append.mp (mem_valuesAt.mp hu)
    · exact hes _ hu hucolon
    · obtain ⟨h'', -, hparsed⟩ := List.mem_map.mp hu
      exact colon_notMem_of_entryOf (h''.entryOf_line.trans (congrArg some hparsed)) hucolon
  exact ⟨(hgather hvalues).mp h, hvalues⟩

/-! ### The round trip -/

lemma crlfFree_responseLines (status : Option StatusLine) (hs : List Header) (final : Bool) :
    ∀ line ∈ responseLines status hs final, CrlfFree line := by
  intro line hline
  simp only [responseLines, List.mem_append, Option.mem_toList, Option.map_eq_some_iff,
    List.mem_map] at hline
  obtain (⟨s, -, rfl⟩ | ⟨h, -, rfl⟩) | hline := hline
  · exact crlfFree_of_inLine s.inLine
  · exact h.crlfFree_line
  · have hempty : line = "" := by cases final <;> simp_all
    rw [hempty]
    decide

/-- The pair of a status line, if it has a colon, and those of the headers. -/
lemma entries_responseLines (status : Option StatusLine) (hs : List Header) (final : Bool) :
    ((responseLines status hs final).map String.toList).filterMap entryOf
      = (status.bind fun s => entryOf s.text.toList).toList ++ hs.map Header.parsed := by
  have hlines : ((hs.map Header.line).map String.toList).filterMap entryOf
      = hs.map Header.parsed := by
    rw [List.map_map, List.filterMap_map]
    exact List.filterMap_eq_map_iff_forall_eq_some.mpr fun h _ => h.entryOf_line
  have hfinal : ((if final then [""] else []).map String.toList).filterMap entryOf = [] := by
    cases final <;> rfl
  rw [responseLines, List.map_append, List.map_append, List.filterMap_append,
    List.filterMap_append, hlines, hfinal, List.append_nil]
  cases status with
  | none => rfl
  | some s => cases h : entryOf s.text.toList <;> simp [h]

/-- The header data of a response is read as what its headers stand for. -/
def RoundTrips (status : Option StatusLine) (hs : List Header) (final : Bool) : Prop :=
  getResponseHeaders boost (headerData (responseLines status hs final)) (fun _ => none)
    = headerMap hs

/-- The headers are read back if the status line gives nothing and no value is cut off. -/
lemma roundTrips_entries (status : Option StatusLine) (hs : List Header) (final : Bool) :
    RoundTrips boost status hs final ↔ (status.bind fun s => entryOf s.text.toList).toList = [] ∧
      ∀ h ∈ hs, ':' ∉ h.value.toList := by
  rw [RoundTrips, getResponseHeaders_headerData boost (crlfFree_responseLines status hs final),
    entries_responseLines, gather_eq_headerMap_iff fun e he => ?_]
  obtain ⟨s, -, hs⟩ := Option.bind_eq_some_iff.mp (Option.mem_toList.mp he)
  exact colon_notMem_of_entryOf hs

/-- **The round trip**: headers after a status line without a colon, if any, are read back if and
only if no value has a colon. -/
theorem roundTrips_iff {status : Option StatusLine} (hstatus : ∀ s ∈ status, ':' ∉ s.text.toList)
    (hs : List Header) (final : Bool) :
    RoundTrips boost status hs final ↔ ∀ h ∈ hs, ':' ∉ h.value.toList := by
  rw [roundTrips_entries]
  refine and_iff_right ?_
  cases status with
  | none => rfl
  | some s =>
      rw [Option.bind_some, entryOf_of_notMem (hstatus s rfl)]
      rfl

/-- `Content-Type: text/html`. -/
def contentTypeHeader : Header where
  name := "Content-Type"
  value := " text/html"
  name_ne := by decide
  name_colon := by decide
  name_inLine := by decide
  value_inLine := by decide

/-- `Location: https://brave.com`. -/
def locationHeader : Header where
  name := "Location"
  value := " https://brave.com"
  name_ne := by decide
  name_colon := by decide
  name_inLine := by decide
  value_inLine := by decide

def okStatus : StatusLine := ⟨"HTTP/1.1 200 OK", by decide⟩

/-- A header that is repeated is read back. -/
theorem roundTrips_iff_repeated :
    RoundTrips .splitters (some okStatus) [contentTypeHeader, contentTypeHeader] true :=
  (roundTrips_iff .splitters (by decide) _ true).mpr (by decide)

/-- A URL is cut off at its colon. -/
theorem location_cut : ¬ ∀ (boost : Boost) (status : Option StatusLine) (hs : List Header)
    (final : Bool), (∀ s ∈ status, ':' ∉ s.text.toList) → RoundTrips boost status hs final := by
  intro hall
  have htrip := hall .splitters none [locationHeader] false (fun s hs => by cases hs)
  have hvalue := ((roundTrips_entries .splitters none [locationHeader] false).mp htrip).2
    locationHeader List.mem_cons_self
  exact hvalue (by decide)

end RewardsDriver.Fetch
