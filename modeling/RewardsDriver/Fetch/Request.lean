import Mathlib.Data.List.TakeWhile
import RewardsDriver.Store.Find

/-!
The request of a URL fetcher: `LoadURL`, `AddExtraRequestHeader`, `SetUploadData` and the options
that `URLFetcher::Start` sets.

libcurl is not part of the program. A handle keeps the options that are set on it, and setting
`CURLOPT_HTTPHEADER` replaces the list that was set before. `Libcurl` is what it makes of a handle:
it does not send every string of a list, nor each as it stands, and it sends lines of its own
accord.

* `EasyHandle`, `URLFetcher`: the options of a handle and the members of a fetcher.
* `addExtraRequestHeader`, `setUploadData`, `loadFetcher`, `setOptions`: the functions.
* `httpheader_addAll`: **the loop over the headers** leaves the last one.
* `sublist_append_iff_of_notMem`: a list that ends in a line which comes once.
* `CarriesAll`, `carriesAll_iff`: which requests carry what `LoadURL` was given.
-/

namespace RewardsDriver.Fetch

open RewardsDriver.Store (cString cString_eq_self)

/-- `ledger::URL_METHOD`. -/
inductive URL_METHOD where
  | GET
  | PUT
  | POST
  deriving DecidableEq

/-! ### libcurl -/

/-- The options of an easy handle. -/
structure EasyHandle where
  url : Option String
  followlocation : Bool
  ssl_verifypeer : Bool
  upload : Bool
  post : Bool
  postfields : Option String
  httpheader : List String
  deriving DecidableEq

/-- `curl_easy_init`: every option has its default. -/
def curl_easy_init : EasyHandle := ⟨none, false, true, false, false, none, []⟩

/-- `curl_slist_append`. -/
def curl_slist_append (list : List String) (s : String) : List String := list ++ [cString s]

/-- libcurl, as far as the headers of a request go: the lines that it sends for a handle of its own
accord, ahead of those for the list of the handle and after them, and what it sends for a string of
the list. `Accept:` or a string without a colon is not sent, and `X-Empty;` becomes another line. -/
structure Libcurl where
  before : EasyHandle → List String
  line : EasyHandle → String → Option String
  after : EasyHandle → List String
  /-- A header of the list is used instead of libcurl's own. -/
  gives_way : ∀ handle, ∀ header ∈ handle.httpheader,
    header ∉ before handle ∧ header ∉ after handle
  /-- Lines are C strings. -/
  nul_notMem : ∀ handle header, header ∈ before handle ∨ header ∈ after handle ∨
    (∃ s, line handle s = some header) → '\x00' ∉ header.toList

/-- The header lines of the request that `curl_easy_perform` writes for a handle. -/
def Libcurl.request (curl : Libcurl) (handle : EasyHandle) : List String :=
  curl.before handle ++ handle.httpheader.filterMap (curl.line handle) ++ curl.after handle

/-- A blank of a header. -/
def isBlank (c : Char) : Bool := c = ' ' ∨ c = '\t'

/-- The text without the blanks at its ends. -/
def trimBlanks (cs : List Char) : List Char :=
  ((cs.dropWhile isBlank).reverse.dropWhile isBlank).reverse

/-- The name of a header, in lower case. -/
def headerName (line : String) : List Char := (line.toList.takeWhile (· ≠ ':')).map Char.toLower

/-- The value of a line with the name `Content-Type`. -/
def contentTypeOf (line : String) : Option String :=
  if headerName line = "content-type".toList then
    match line.toList.dropWhile (· ≠ ':') with
    | _ :: value => some (String.ofList (trimBlanks value))
    | [] => none
  else none

/-! ### The fetcher -/

/-- `URLFetcher`. A `long` has 32 bits where the program is built. -/
structure URLFetcher where
  url_ : String
  metod_ : URL_METHOD
  curl_ : EasyHandle
  response_code_ : Int32
  response_data_ : String
  response_header_data_ : String

/-- `URLFetcher::Create`. The constructor does not set `response_code_`, which starts with what its
storage holds. -/
def URLFetcher.create (storage : Int32) (url : String) (metod : URL_METHOD) : URLFetcher :=
  ⟨url, metod, curl_easy_init, storage, "", ""⟩

/-- `AddExtraRequestHeader`. -/
def addExtraRequestHeader (fetcher : URLFetcher) (header : String) : URLFetcher :=
  let list := curl_slist_append [] header
  { fetcher with curl_ := { fetcher.curl_ with httpheader := list } }

/-- `SetUploadData`. It does not use the content type. -/
def setUploadData (fetcher : URLFetcher) (_contentType content : String) : URLFetcher :=
  { fetcher with curl_ := { fetcher.curl_ with postfields := some (cString content) } }

/-- The fetcher that `LoadURL` makes. -/
def loadFetcher (storage : Int32) (url : String) (headers : List String)
    (content contentType : String) (method : URL_METHOD) : URLFetcher :=
  let fetcher := headers.foldl addExtraRequestHeader (URLFetcher.create storage url method)
  if content ≠ "" then setUploadData fetcher contentType content else fetcher

/-- The options that `URLFetcher::Start` sets for the request. -/
def setOptions (fetcher : URLFetcher) : URLFetcher :=
  let handle := { fetcher.curl_ with
    url := some (cString fetcher.url_), followlocation := true, ssl_verifypeer := false }
  { fetcher with curl_ :=
      match fetcher.metod_ with
      | .GET => handle
      | .PUT => { handle with upload := true }
      | .POST => { handle with post := true } }

variable (curl : Libcurl) (storage : Int32) (url : String) (headers : List String)
  (content contentType : String) (method : URL_METHOD)

/-- The request that `Start` performs for a fetcher of `LoadURL`. -/
def performed : List String :=
  curl.request (setOptions (loadFetcher storage url headers content contentType method)).curl_

/-- The request carries every string of the list, in order, and the content type if there is
content. -/
def CarriesAll : Prop :=
  let request := performed curl storage url headers content contentType method
  headers.Sublist request ∧
    (content ≠ "" → ∃ line ∈ request, contentTypeOf line = some contentType)

/-- A handle with the options of a request, whose list has at most one string. -/
def handleWith (last : Option String) : EasyHandle where
  url := some (cString url)
  followlocation := true
  ssl_verifypeer := false
  upload := method = .PUT
  post := method = .POST
  postfields := if content ≠ "" then some (cString content) else none
  httpheader := (last.map cString).toList

/-- What a request carries of the headers if only the last one is on the handle: libcurl sends that
one as it stands, and the others of its own accord and ahead of it. -/
def LastCarries : Prop :=
  headers.dropLast.Sublist (curl.before (handleWith url content method headers.getLast?)) ∧
    ∀ last ∈ headers.getLast?, '\x00' ∉ last.toList ∧
      curl.line (handleWith url content method headers.getLast?) last = some last

/-- The content type is named by the last header or by libcurl. -/
def NamesType : Prop :=
  let handle := handleWith url content method headers.getLast?
  ∃ line, (line ∈ curl.before handle ∨ line ∈ headers.getLast? ∨ line ∈ curl.after handle) ∧
    contentTypeOf line = some contentType

variable {curl url headers content contentType method}

/-! ### What reaches the handle -/

/-- **The loop over the headers** leaves the last one on the handle, or what was there before. -/
lemma httpheader_addAll (headers : List String) (fetcher : URLFetcher) :
    headers.foldl addExtraRequestHeader fetcher
      = { fetcher with curl_ := { fetcher.curl_ with
          httpheader := (headers.getLast?.map fun header => [cString header]).getD
            fetcher.curl_.httpheader } } := by
  induction headers generalizing fetcher with
  | nil => rfl
  | cons header headers ih =>
      rw [List.foldl_cons, ih, List.getLast?_cons]
      cases headers.getLast? <;> rfl

/-- **The handle of a request**: only the last header is on it, and the content type is not. -/
lemma performed_eq :
    performed curl storage url headers content contentType method
      = curl.request (handleWith url content method headers.getLast?) := by
  have hlist : ∀ last : Option String, (last.map fun header => [cString header]).getD []
      = (last.map cString).toList := by
    rintro (_ | _) <;> rfl
  rw [performed, loadFetcher, httpheader_addAll, handleWith, ← hlist]
  by_cases hcontent : content ≠ ""
  · rw [if_pos hcontent, if_pos hcontent]
    cases method <;> rfl
  · rw [if_neg hcontent, if_neg hcontent]
    cases method <;> rfl

/-! ### What the request carries -/

/-- Text up to the first NUL has none. -/
lemma nul_notMem_cString (s : String) : '\x00' ∉ (cString s).toList := by
  intro h
  rw [cString, String.toList_ofList] at h
  simpa using List.mem_takeWhile_imp h

/-- A line ahead of which it does not come is met first where it comes. -/
lemma sublist_of_cons_sublist {α : Type} {a : α} {l before after : List α} (ha : a ∉ before)
    (h : (a :: l).Sublist (before ++ a :: after)) : l.Sublist after := by
  induction before with
  | nil => exact List.cons_sublist_cons.mp h
  | cons b before ih =>
      rw [List.mem_cons, not_or] at ha
      exact ih ha.2 (h.of_cons_of_ne ha.1)

/-- **A list that ends in a line which comes once**: the rest of the list is ahead of that line. -/
lemma sublist_append_iff_of_notMem {α : Type} {a : α} {l before after : List α} (ha : a ∉ after) :
    (l ++ [a]).Sublist (before ++ [a] ++ after) ↔ l.Sublist before := by
  refine ⟨fun h => ?_, fun h => (h.append_right _).trans (List.sublist_append_left _ _)⟩
  have hreverse : (a :: l.reverse).Sublist (after.reverse ++ a :: before.reverse) := by
    simpa using h.reverse
  have hrest := sublist_of_cons_sublist (by simpa using ha) hreverse
  simpa using hrest.reverse

/-- No line of a request has a NUL. -/
lemma nul_notMem_request {handle : EasyHandle} {line : String} (h : line ∈ curl.request handle) :
    '\x00' ∉ line.toList := by
  rw [Libcurl.request, List.mem_append, List.mem_append, List.mem_filterMap] at h
  obtain (h | ⟨s, -, h⟩) | h := h
  · exact curl.nul_notMem handle line (.inl h)
  · exact curl.nul_notMem handle line (.inr (.inr ⟨s, h⟩))
  · exact curl.nul_notMem handle line (.inr (.inl h))

/-- The request of a handle with one string, which libcurl sends as it stands. -/
lemma request_handleWith {last : String} (hnul : '\x00' ∉ last.toList)
    (hline : curl.line (handleWith url content method (some last)) last = some last) :
    curl.request (handleWith url content method (some last))
      = curl.before (handleWith url content method (some last)) ++ [last]
          ++ curl.after (handleWith url content method (some last)) := by
  have hlist : (handleWith url content method (some last)).httpheader = [last] := by
    simp [handleWith, cString_eq_self hnul]
  rw [Libcurl.request, hlist]
  simp [hline]

/-- A request carries the string of its handle if and only if libcurl sends it as it stands. -/
lemma mem_request_iff {last : String} :
    last ∈ curl.request (handleWith url content method (some last)) ↔
      '\x00' ∉ last.toList ∧
        curl.line (handleWith url content method (some last)) last = some last := by
  constructor
  · intro h
    have hnul := nul_notMem_request h
    have hlist : (handleWith url content method (some last)).httpheader = [last] := by
      simp [handleWith, cString_eq_self hnul]
    have hown := curl.gives_way (handleWith url content method (some last)) last (by simp [hlist])
    refine ⟨hnul, ?_⟩
    simpa [Libcurl.request, hlist, hown.1, hown.2] using h
  · rintro ⟨hnul, hline⟩
    rw [request_handleWith hnul hline]
    simp

/-- **The headers that a request carries.** -/
lemma sublist_performed_iff :
    headers.Sublist (performed curl storage url headers content contentType method) ↔
      LastCarries curl url headers content method := by
  rw [performed_eq, LastCarries]
  obtain rfl | ⟨earlier, last, rfl⟩ := headers.eq_nil_or_concat
  · simp
  · simp only [List.concat_eq_append, List.dropLast_concat, List.getLast?_concat, Option.mem_def,
      Option.some.injEq, forall_eq']
    constructor
    · intro h
      obtain ⟨hnul, hline⟩ := mem_request_iff.mp (h.subset (by simp))
      have hlist : (handleWith url content method (some last)).httpheader = [last] := by
        simp [handleWith, cString_eq_self hnul]
      have hown := curl.gives_way (handleWith url content method (some last)) last (by simp [hlist])
      rw [request_handleWith hnul hline, sublist_append_iff_of_notMem hown.2] at h
      exact ⟨h, hnul, hline⟩
    · rintro ⟨h, hnul, hline⟩
      rw [request_handleWith hnul hline]
      exact (h.append_right _).trans (List.sublist_append_left _ _)

/-- The lines of a request whose headers are carried. -/
lemma mem_performed_iff (hlast : LastCarries curl url headers content method) {line : String} :
    line ∈ performed curl storage url headers content contentType method ↔
      line ∈ curl.before (handleWith url content method headers.getLast?) ∨
        line ∈ headers.getLast? ∨
        line ∈ curl.after (handleWith url content method headers.getLast?) := by
  rw [performed_eq]
  cases hheaders : headers.getLast? with
  | none => simp [Libcurl.request, handleWith]
  | some last =>
      obtain ⟨hnul, hline⟩ := hlast.2 last hheaders
      rw [hheaders] at hline
      rw [request_handleWith hnul hline]
      simp [eq_comm]

/-- **The headers of a request**: the request carries what `LoadURL` was given if and only if
libcurl sends the last header as it stands, the others are lines that it sends of its own accord
ahead of it, and there is no content or the content type is the one that this header names, or
libcurl's own. -/
theorem carriesAll_iff :
    CarriesAll curl storage url headers content contentType method ↔
      LastCarries curl url headers content method ∧
        (content = "" ∨ NamesType curl url headers content contentType method) := by
  rw [CarriesAll, sublist_performed_iff]
  refine and_congr_right fun hlast => ?_
  rw [or_iff_not_imp_left]
  refine imp_congr Iff.rfl (exists_congr fun line => and_congr_left fun _ => ?_)
  exact mem_performed_iff storage hlast

/-! ### Two headers -/

/-- The host of a URL. -/
def hostOf (url : String) : String :=
  String.ofList (((url.toList.dropWhile (· ≠ '/')).drop 2).takeWhile (· ≠ '/'))

/-- The lines whose names are not in a list of headers. -/
def unnamed (list lines : List String) : List String :=
  (lines.map cString).filter fun line => !list.any fun header => headerName header = headerName line

lemma notMem_unnamed {list lines : List String} {header : String} (h : header ∈ list) :
    header ∉ unnamed list lines := by
  intro hmem
  have hnone := (List.mem_filter.mp hmem).2
  simp only [Bool.not_eq_true', List.any_eq_false, decide_eq_true_eq] at hnone
  exact hnone header h rfl

lemma nul_notMem_unnamed {list lines : List String} {line : String}
    (h : line ∈ unnamed list lines) : '\x00' ∉ line.toList := by
  obtain ⟨s, -, rfl⟩ := List.mem_map.mp (List.mem_filter.mp h).1
  exact nul_notMem_cString s

/-- What is sent for a string: nothing if it has no value, and a line without one if it ends in a
semicolon in place of the colon. -/
def sentFor (header : String) : Option String :=
  match trimBlanks (header.toList.dropWhile (· ≠ ':')) with
  | _ :: _ :: _ => some (cString header)
  | [_] => none
  | [] =>
      if header.toList.dropWhile (· ≠ ';') = [';'] then
        some (cString (String.ofList (header.toList.dropLast ++ [':'])))
      else none

lemma nul_notMem_sentFor {header line : String} (h : sentFor header = some line) :
    '\x00' ∉ line.toList := by
  rw [sentFor] at h
  split at h
  · rw [← Option.some.inj h]
    exact nul_notMem_cString _
  · exact absurd h.symm (Option.some_ne_none _)
  · split at h
    · rw [← Option.some.inj h]
      exact nul_notMem_cString _
    · exact absurd h.symm (Option.some_ne_none _)

/-- libcurl for a plain request: it names the host and what is accepted, and the type of a form that
is posted. -/
def plainLibcurl : Libcurl where
  before handle := unnamed handle.httpheader
    ["Host: " ++ hostOf (handle.url.getD ""), "Accept: */*"]
  line _ header := sentFor header
  after handle := unnamed handle.httpheader
    (if !handle.upload && (handle.post || handle.postfields.isSome) then
      ["Content-Type: application/x-www-form-urlencoded"] else [])
  gives_way _ _ h := ⟨notMem_unnamed h, notMem_unnamed h⟩
  nul_notMem := by
    rintro handle header (h | h | ⟨s, h⟩)
    · exact nul_notMem_unnamed h
    · exact nul_notMem_unnamed h
    · exact nul_notMem_sentFor h

/-- Two headers: the first is not sent. -/
theorem first_header_dropped : ¬ ∀ (curl : Libcurl) (storage : Int32) (url : String)
    (headers : List String) (content contentType : String) (method : URL_METHOD),
    CarriesAll curl storage url headers content contentType method := by
  intro hall
  have hboth := (hall plainLibcurl 0 "https://ledger/wallet" ["digest: d", "signature: s"] ""
    "" .GET).1
  rw [performed_eq] at hboth
  have hmem : "digest: d" ∈ plainLibcurl.request
      (handleWith "https://ledger/wallet" "" .GET (some "signature: s")) :=
    hboth.subset (by simp)
  revert hmem
  decide

end RewardsDriver.Fetch
