import RewardsDriver.Fetch.Headers
import RewardsDriver.Fetch.Registry
import RewardsDriver.Fetch.Request

/-!
A transfer and what is made of it: `URLFetcher::Start` and `OnURLFetchComplete`.

The callbacks of `Start` append what comes to one stream for the header data and to one for the
body, whichever response of the transfer it belongs to. The response code is read from libcurl only
if the transfer has succeeded.

* `Transfer`, `start`, `onURLFetchComplete`: the functions, with what the environment does.
* `start_eq`: **what a transfer leaves in the fetcher**; `onURLFetchComplete_eq` connects it with
  the requests of the service.
* `Honest`, `honest_iff`: when a failed transfer is not reported as a success.
* `Delivers`, `FinalOnly`, `finalOnly_iff`: when the headers are those of the final response.
-/

namespace RewardsDriver.Fetch

/-! ### The functions -/

/-- `CURLcode`. -/
abbrev CURLcode := ℕ

def CURLE_OK : CURLcode := 0

/-- A call of one of the two callbacks. -/
inductive Chunk where
  | header (s : String)
  | body (s : String)
  deriving DecidableEq

/-- What `curl_easy_perform` does: the calls of the callbacks, its result, and the response code
that it then has, which is that of the final response. -/
structure Transfer where
  chunks : List Chunk
  res : CURLcode
  response_code : Int32

def Chunk.header? : Chunk → Option String
  | .header s => some s
  | .body _ => none

def Chunk.body? : Chunk → Option String
  | .header _ => none
  | .body s => some s

/-- The callbacks of `Start`. -/
def receive (fetcher : URLFetcher) : Chunk → URLFetcher
  | .header s => { fetcher with response_header_data_ := fetcher.response_header_data_ ++ s }
  | .body s => { fetcher with response_data_ := fetcher.response_data_ ++ s }

/-- `URLFetcher::Start`, up to its call of `OnURLFetchComplete`. -/
def start (fetcher : URLFetcher) (t : Transfer) : URLFetcher :=
  let received := t.chunks.foldl receive (setOptions fetcher)
  if t.res ≠ CURLE_OK then received else { received with response_code_ := t.response_code }

/-- `GetResponseCode`. -/
def getResponseCode (fetcher : URLFetcher) : Int := fetcher.response_code_.toInt

/-- `GetStatus`. -/
def getStatus (fetcher : URLFetcher) : Bool := HTTP_OK = fetcher.response_code_.toInt

/-- The arguments of the callback of a request. -/
structure FetchResult where
  response_code : Int
  body : String
  headers : Headers

variable (boost : Boost)

/-- `OnURLFetchComplete` for a registered fetcher: what it posts the callback with. -/
def onURLFetchComplete (source : URLFetcher) : FetchResult where
  response_code := getResponseCode source
  body := if getResponseCode source = HTTP_OK ∧ getStatus source then source.response_data_ else ""
  headers := getResponseHeaders boost source.response_header_data_ fun _ => none

/-! ### What a transfer leaves in the fetcher -/

/-- The body that has been received. -/
def Transfer.body (t : Transfer) : String := String.join (t.chunks.filterMap Chunk.body?)

/-- The header data that has been received. -/
def Transfer.headerData (t : Transfer) : String := String.join (t.chunks.filterMap Chunk.header?)

lemma foldl_receive (chunks : List Chunk) (fetcher : URLFetcher) :
    chunks.foldl receive fetcher = { fetcher with
      response_data_ := fetcher.response_data_ ++ String.join (chunks.filterMap Chunk.body?)
      response_header_data_ :=
        fetcher.response_header_data_ ++ String.join (chunks.filterMap Chunk.header?) } := by
  induction chunks generalizing fetcher with
  | nil => simp
  | cons chunk chunks ih =>
      rw [List.foldl_cons, ih]
      cases chunk <;>
        simp [receive, Chunk.header?, Chunk.body?, List.filterMap_cons, String.append_assoc]

variable (storage : Int32) (url : String) (headers : List String) (content contentType : String)
  (method : URL_METHOD)

/-- The fetcher that `LoadURL` makes has received nothing, and no code has been stored in it. -/
lemma loadFetcher_members :
    ∃ handle, loadFetcher storage url headers content contentType method
      = ⟨url, method, handle, storage, "", ""⟩ := by
  rw [loadFetcher, httpheader_addAll]
  split <;> exact ⟨_, rfl⟩

/-- **What a transfer leaves in the fetcher** of a request. -/
lemma start_eq (t : Transfer) :
    ∃ handle, start (loadFetcher storage url headers content contentType method) t
      = ⟨url, method, handle, if t.res = CURLE_OK then t.response_code else storage,
          t.body, t.headerData⟩ := by
  obtain ⟨handle, hload⟩ := loadFetcher_members storage url headers content contentType method
  rw [start, hload, foldl_receive]
  by_cases hres : t.res = CURLE_OK
  · exact ⟨_, by simp [hres, setOptions, Transfer.body, Transfer.headerData]; rfl⟩
  · exact ⟨_, by simp [hres, setOptions, Transfer.body, Transfer.headerData]; rfl⟩

/-- The response that the requests of the service have of a fetcher. -/
def URLFetcher.response (fetcher : URLFetcher) : Response :=
  ⟨getResponseCode fetcher, fetcher.response_data_, fetcher.response_header_data_⟩

/-- A completion passes on what the requests of the service say that it does. -/
lemma onURLFetchComplete_eq (source : URLFetcher) :
    onURLFetchComplete boost source = ⟨source.response.passedOn.code, source.response.passedOn.body,
      getResponseHeaders boost source.response.passedOn.header_data fun _ => none⟩ := by
  by_cases hcode : getResponseCode source = HTTP_OK
  · have hpassed : source.response.passedOn = source.response := if_pos hcode
    have hstatus : getStatus source = true := decide_eq_true hcode.symm
    rw [hpassed, onURLFetchComplete, if_pos ⟨hcode, hstatus⟩]
    rfl
  · have hpassed : source.response.passedOn = { source.response with body := "" } := if_neg hcode
    rw [hpassed, onURLFetchComplete, if_neg fun h => hcode h.1]
    rfl

/-! ### Failed transfers -/

/-- The callback receives the status 200 with the received body only if the transfer has succeeded
and the final response's status was 200. -/
def Honest (fetcher : URLFetcher) (t : Transfer) : Prop :=
  let posted := onURLFetchComplete boost (start fetcher t)
  posted.response_code = HTTP_OK ∧ posted.body = t.body →
    t.res = CURLE_OK ∧ t.response_code.toInt = HTTP_OK

/-- **A failed transfer** is not reported as a success if and only if the storage of the response
code did not happen to hold 200. -/
theorem honest_iff (t : Transfer) :
    Honest boost (loadFetcher storage url headers content contentType method) t
      ↔ t.res = CURLE_OK ∨ storage.toInt ≠ HTTP_OK := by
  obtain ⟨handle, hstart⟩ := start_eq storage url headers content contentType method t
  simp only [Honest, hstart, onURLFetchComplete, getResponseCode]
  by_cases hres : t.res = CURLE_OK
  · rw [if_pos hres]
    exact iff_of_true (fun h => ⟨hres, h.1⟩) (.inl hres)
  · rw [if_neg hres]
    constructor
    · intro h
      refine .inr fun hstorage => hres (h ⟨hstorage, ?_⟩).1
      exact if_pos ⟨hstorage, decide_eq_true hstorage.symm⟩
    · rintro (h | h)
      · exact absurd h hres
      · exact fun hposted => absurd hposted.1 h

/-- A connection that is reset after a part of the body, where the storage holds 200. -/
theorem reset_reported : ¬ ∀ (boost : Boost) (storage : Int32) (url : String)
    (headers : List String) (content contentType : String) (method : URL_METHOD) (t : Transfer),
    Honest boost (loadFetcher storage url headers content contentType method) t := by
  intro hall
  have h := hall .splitters 200 "https://ledger/wallet" [] "" "" .GET ⟨[.body "part"], 56, 0⟩
  have hres := (h ⟨rfl, by decide⟩).1
  cases hres

/-! ### The headers of a chain of responses -/

/-- A response of a transfer. -/
structure HttpResponse where
  status : StatusLine
  headers : List Header

/-- The header lines of a response, each of which is one call of the callback. -/
def HttpResponse.lines (r : HttpResponse) : List String :=
  responseLines (some r.status) r.headers true

/-- The header callback receives the header lines of every response of the chain in order. -/
def Delivers (t : Transfer) (chain : List HttpResponse) : Prop :=
  t.chunks.filterMap Chunk.header? = (chain.flatMap HttpResponse.lines).map (· ++ "\r\n")

/-- The headers passed to the callback are those of the final response. -/
def FinalOnly (fetcher : URLFetcher) (t : Transfer) (final : HttpResponse) : Prop :=
  (onURLFetchComplete boost (start fetcher t)).headers = headerMap final.headers

/-- The pairs that are read before those of the last headers. -/
def earlierEntries (earlier : List HttpResponse) (final : HttpResponse) :
    List (String × String) :=
  ((earlier.flatMap HttpResponse.lines ++ [final.status.text]).map String.toList).filterMap entryOf

lemma crlfFree_lines (chain : List HttpResponse) :
    ∀ line ∈ chain.flatMap HttpResponse.lines, CrlfFree line := by
  intro line hline
  obtain ⟨r, -, hline⟩ := List.mem_flatMap.mp hline
  exact crlfFree_responseLines _ _ _ line hline

/-- The pairs of a chain. -/
lemma entries_chain (earlier : List HttpResponse) (final : HttpResponse) :
    (((earlier ++ [final]).flatMap HttpResponse.lines).map String.toList).filterMap entryOf
      = earlierEntries earlier final ++ final.headers.map Header.parsed := by
  have hfinal : (final.lines.map String.toList).filterMap entryOf
      = ([final.status.text].map String.toList).filterMap entryOf
        ++ final.headers.map Header.parsed := by
    rw [HttpResponse.lines, entries_responseLines]
    cases h : entryOf final.status.text.toList <;> simp [h]
  calc (((earlier ++ [final]).flatMap HttpResponse.lines).map String.toList).filterMap entryOf
      = ((earlier.flatMap HttpResponse.lines).map String.toList).filterMap entryOf
        ++ (final.lines.map String.toList).filterMap entryOf := by
        rw [List.flatMap_append, List.map_append, List.filterMap_append, List.flatMap_singleton]
    _ = earlierEntries earlier final ++ final.headers.map Header.parsed := by
        rw [hfinal, earlierEntries, List.map_append, List.filterMap_append, List.append_assoc]

lemma colon_notMem_earlierEntries (earlier : List HttpResponse) (final : HttpResponse) :
    ∀ e ∈ earlierEntries earlier final, ':' ∉ e.2.toList := by
  intro e he
  obtain ⟨i, -, hi⟩ := List.mem_filterMap.mp he
  exact colon_notMem_of_entryOf hi

/-- The lines of a response give nothing if it has no header and its status line no colon. -/
lemma HttpResponse.silent_iff (r : HttpResponse) :
    (∀ line ∈ r.lines, ':' ∉ line.toList) ↔ r.headers = [] ∧ ':' ∉ r.status.text.toList := by
  constructor
  · intro h
    refine ⟨List.eq_nil_iff_forall_not_mem.mpr fun header hheader => ?_, h _ ?_⟩
    · refine h header.line ?_ ?_
      · exact List.mem_append_left _ (List.mem_append_right _ (List.mem_map_of_mem hheader))
      · simp [Header.line, String.toList_append]
    · simp [HttpResponse.lines, responseLines]
  · rintro ⟨hheaders, hstatus⟩ line hline
    simp only [HttpResponse.lines, responseLines, hheaders, Option.map_some, Option.toList_some,
      List.map_nil, List.append_nil, if_true, List.mem_append, List.mem_singleton] at hline
    obtain rfl | rfl := hline
    · exact hstatus
    · decide

/-- Nothing is read before the last headers if no earlier response has a header and no status line
has a colon. -/
lemma earlierEntries_eq_nil_iff (earlier : List HttpResponse) (final : HttpResponse) :
    earlierEntries earlier final = [] ↔
      (∀ r ∈ earlier, r.headers = [] ∧ ':' ∉ r.status.text.toList) ∧
        ':' ∉ final.status.text.toList := by
  rw [earlierEntries, List.filterMap_eq_nil_iff]
  simp only [← HttpResponse.silent_iff, List.forall_mem_map, entryOf_eq_none_iff,
    List.forall_mem_append, List.forall_mem_singleton, List.mem_flatMap]
  exact and_congr_left' ⟨fun h r hr line hline => h line ⟨r, hr, hline⟩,
    fun h line ⟨r, hr, hline⟩ => h r hr line hline⟩

/-- The headers are those of the final response if nothing is read before its headers and no value
of them is cut off. -/
lemma finalOnly_entries {t : Transfer} {earlier : List HttpResponse} {final : HttpResponse}
    (ht : Delivers t (earlier ++ [final])) :
    FinalOnly boost (loadFetcher storage url headers content contentType method) t final
      ↔ earlierEntries earlier final = [] ∧ ∀ h ∈ final.headers, ':' ∉ h.value.toList := by
  obtain ⟨handle, hstart⟩ := start_eq storage url headers content contentType method t
  have hdata : t.headerData = headerData ((earlier ++ [final]).flatMap HttpResponse.lines) :=
    congrArg String.join ht
  rw [FinalOnly, hstart, onURLFetchComplete, hdata,
    getResponseHeaders_headerData boost (crlfFree_lines _), entries_chain,
    gather_eq_headerMap_iff (colon_notMem_earlierEntries earlier final)]

/-- **The headers of a chain of responses** are those of the final response if and only if no
earlier response has a header, no status line has a colon and no value of the final response has
one. -/
theorem finalOnly_iff {t : Transfer} {earlier : List HttpResponse} {final : HttpResponse}
    (ht : Delivers t (earlier ++ [final])) :
    FinalOnly boost (loadFetcher storage url headers content contentType method) t final
      ↔ (∀ r ∈ earlier, r.headers = [] ∧ ':' ∉ r.status.text.toList) ∧
        ':' ∉ final.status.text.toList ∧ ∀ h ∈ final.headers, ':' ∉ h.value.toList := by
  rw [finalOnly_entries boost storage url headers content contentType method ht,
    earlierEntries_eq_nil_iff, and_assoc]

/-- A transfer that goes through a chain of responses without bodies. -/
def chainTransfer (chain : List HttpResponse) : Transfer where
  chunks := (chain.flatMap HttpResponse.lines).map fun line => .header (line ++ "\r\n")
  res := CURLE_OK
  response_code := 200

lemma delivers_chainTransfer (chain : List HttpResponse) :
    Delivers (chainTransfer chain) chain := by
  rw [Delivers, chainTransfer, List.filterMap_map]
  exact List.filterMap_eq_map_iff_forall_eq_some.mpr fun line _ => rfl

/-- A response with a header that is repeated. -/
def pageResponse : HttpResponse := ⟨okStatus, [contentTypeHeader, contentTypeHeader]⟩

/-- A redirect. -/
def redirectResponse : HttpResponse := ⟨⟨"HTTP/1.1 302 Found", by decide⟩, [locationHeader]⟩

/-- A transfer without a redirect. -/
theorem finalOnly_iff_page : FinalOnly .splitters (loadFetcher 0 "http://brave.com" [] "" "" .GET)
    (chainTransfer ([] ++ [pageResponse])) pageResponse :=
  (finalOnly_iff .splitters 0 _ [] "" "" .GET (delivers_chainTransfer _)).mpr
    ⟨fun _ hr => absurd hr List.not_mem_nil, by decide, by decide⟩

/-- The location of a redirect is passed on with the headers of the page. -/
theorem redirect_passed_on : ¬ ∀ (boost : Boost) (storage : Int32) (url : String)
    (headers : List String) (content contentType : String) (method : URL_METHOD) (t : Transfer)
    (earlier : List HttpResponse) (final : HttpResponse), Delivers t (earlier ++ [final]) →
    FinalOnly boost (loadFetcher storage url headers content contentType method) t final := by
  intro hall
  have hdelivers := delivers_chainTransfer ([redirectResponse] ++ [pageResponse])
  have honly := hall .splitters 0 "http://brave.com" [] "" "" .GET _ [redirectResponse]
    pageResponse hdelivers
  have hnone := ((finalOnly_entries .splitters 0 _ [] "" "" .GET hdelivers).mp honly).1
  have hredirect := ((earlierEntries_eq_nil_iff _ _).mp hnone).1 redirectResponse (by simp)
  cases hredirect.1

end RewardsDriver.Fetch
