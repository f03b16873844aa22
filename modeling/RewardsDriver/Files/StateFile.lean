import Mathlib.Data.List.Basic
import Mathlib.Logic.Function.Basic
import Mathlib.Order.Basic

/-!
The state files: `SaveLedgerState`, `SavePublisherState`, `SavePublishersList` and the loads that
match them (`driver/brave_rewards_service_impl.cc`).

The three savers are one function of the file and of the result reported on failure, and so are
the three loaders. The streams are opened in the text mode of the C runtime of the platform: a
line feed is written as carriage return and line feed, the pair is read back as a line feed, and
a Ctrl-Z ends the reading.

* `toFile`, `fromFile`: the text mode, with `fromFile_take_toFile`: reading back what a writer
  put into the file gives the whole text exactly if all of it is there and it has no Ctrl-Z.
* `writeState`, `success_eq_true`: the streams throw nothing, so every save is reported as a
  success, whatever became of the file.
* `reported_loads_iff`: a save reported as `LEDGER_OK` loads back if and only if `Recoverable`.
-/

namespace RewardsDriver.Files

/-- The contents of a file; a file that does not exist has none. -/
abbrev Bytes := List Char

/-- The three files of the service. -/
inductive StateFile where
  | ledger_state
  | publisher_state
  | publishers_list
  deriving DecidableEq

/-- The results that the savers and loaders report. -/
inductive Result where
  | LEDGER_OK
  | LEDGER_ERROR
  | NO_LEDGER_STATE
  | NO_PUBLISHER_LIST
  deriving DecidableEq

/-! ### The text mode -/

/-- The end-of-file character of the text mode. -/
def CTRL_Z : Char := '\x1a'

/-- What a text becomes in the file. -/
def toFile : List Char → Bytes
  | [] => []
  | c :: cs => if c = '\n' then '\r' :: '\n' :: toFile cs else c :: toFile cs

/-- What is read from a file. -/
def fromFile : Bytes → List Char
  | [] => []
  | '\r' :: '\n' :: cs => '\n' :: fromFile cs
  | c :: cs => if c = CTRL_Z then [] else c :: fromFile cs

lemma fromFile_cons {c : Char} {cs : Bytes} (hc : c ≠ CTRL_Z) (hcs : cs.head? ≠ some '\n') :
    fromFile (c :: cs) = c :: fromFile cs := by
  rw [fromFile.eq_3, if_neg hc]
  rintro cs' rfl rfl
  simp at hcs

lemma fromFile_ctrl_z (cs : Bytes) : fromFile (CTRL_Z :: cs) = [] := by
  rw [fromFile.eq_3 _ _ (by simp [CTRL_Z]), if_pos rfl]

/-- Nothing written in text mode starts with a bare line feed. -/
lemma head?_take_toFile (s : List Char) (k : ℕ) : ((toFile s).take k).head? ≠ some '\n' := by
  cases s with
  | nil => simp [toFile]
  | cons c cs =>
      rw [toFile]
      split
      · cases k <;> simp
      · rename_i hc
        cases k <;> simp [hc]

/-- **The round trip of the text mode**: the first `k` bytes written for a text read back as the
text if and only if they are all of them and the text has no Ctrl-Z. -/
theorem fromFile_take_toFile (s : List Char) (k : ℕ) :
    fromFile ((toFile s).take k) = s ↔ (toFile s).length ≤ k ∧ CTRL_Z ∉ s := by
  induction s generalizing k with
  | nil => simp [toFile, fromFile]
  | cons c cs ih =>
      by_cases hn : c = '\n'
      · subst hn
        have hz : CTRL_Z ≠ '\n' := by decide
        match k with
        | 0 => simp [toFile, fromFile]
        | 1 => simp [toFile, fromFile, CTRL_Z]
        | k + 2 => simp [toFile, fromFile, ih, hz]
      · cases k with
        | zero => simp [toFile, hn, fromFile]
        | succ k =>
            by_cases hz : c = CTRL_Z
            · subst hz
              simp [toFile, hn, fromFile_ctrl_z]
            · simp [toFile, hn, fromFile_cons hz (head?_take_toFile cs k), ih, Ne.symm hz]

/-- A text without Ctrl-Z that is wholly in the file is read back. -/
lemma fromFile_toFile {s : List Char} (hz : CTRL_Z ∉ s) : fromFile (toFile s) = s := by
  have h := (fromFile_take_toFile s (toFile s).length).mpr ⟨Nat.le_refl _, hz⟩
  rwa [List.take_length] at h

/-! ### Saving -/

/-- What the environment does to one `ofstream`: whether the file can be opened (and is then
truncated), whether the writes and the flush on close succeed, and how many bytes have reached
the file if one of them does not. -/
structure SaveOutcome where
  opened : Bool
  written : Bool
  flushed : Bool
  reached : ℕ

/-- Every operation of the stream succeeds. -/
def SaveOutcome.complete : SaveOutcome := ⟨true, true, true, 0⟩

/-- The bytes of a text that reach the file. -/
def SaveOutcome.stored (o : SaveOutcome) (text : String) : Bytes :=
  if o.written && o.flushed then toFile text.toList else (toFile text.toList).take o.reached

/-- The file after `std::ofstream f(path); f << text; f.close();`. -/
def fileAfter (o : SaveOutcome) (text : String) (old : Bytes) : Bytes :=
  if o.opened then o.stored text else old

/-- `basic_ios::setstate`: throws if a failure bit is set that `exceptions()` selects. -/
def setstate (exceptions failed : Bool) : Except Unit Unit :=
  if failed && exceptions then throw () else pure ()

/-- A stream is constructed with `exceptions() == goodbit`, which selects no bit. -/
def defaultExceptions : Bool := false

/-- What the `try` block of a saver throws: the failure bits after the open, the write and the
close. -/
def writeState (o : SaveOutcome) : Except Unit Unit := do
  setstate defaultExceptions (!o.opened)
  setstate defaultExceptions (!(o.opened && o.written))
  setstate defaultExceptions (!(o.opened && o.written && o.flushed))

/-- The flag `success` of a saver. -/
def success (o : SaveOutcome) : Bool :=
  match writeState o with
  | .ok _ => true
  | .error _ => false

/-- No outcome of the file operations throws. -/
lemma success_eq_true (o : SaveOutcome) : success o = true := by
  simp [success, writeState, setstate, defaultExceptions]
  rfl

/-- The files of the service. -/
abbrev Disk := StateFile → Bytes

/-- A saver: writes the file and reports through `onSaved`. -/
def saveState (f : StateFile) (onSaved : Bool → Result) (text : String) (o : SaveOutcome)
    (files : Disk) : Disk × Result :=
  (Function.update files f (fileAfter o text (files f)), onSaved (success o))

def onLedgerStateSaved (success : Bool) : Result :=
  if success then .LEDGER_OK else .NO_LEDGER_STATE

def onPublisherStateSaved (success : Bool) : Result :=
  if success then .LEDGER_OK else .LEDGER_ERROR

def onPublishersListSaved (success : Bool) : Result :=
  if success then .LEDGER_OK else .LEDGER_ERROR

def saveLedgerState : String → SaveOutcome → Disk → Disk × Result :=
  saveState .ledger_state onLedgerStateSaved

def savePublisherState : String → SaveOutcome → Disk → Disk × Result :=
  saveState .publisher_state onPublisherStateSaved

def savePublishersList : String → SaveOutcome → Disk → Disk × Result :=
  saveState .publishers_list onPublishersListSaved

/-- The saver of a file. -/
def save : StateFile → String → SaveOutcome → Disk → Disk × Result
  | .ledger_state => saveLedgerState
  | .publisher_state => savePublisherState
  | .publishers_list => savePublishersList

/-! ### Loading -/

/-- `LoadStateOnFileTaskRunner`: the text of the file, empty if it cannot be opened. -/
def loadStateOnFileTaskRunner (readable : Bool) (file : Bytes) : String :=
  if readable then String.ofList (fromFile file) else ""

/-- A loader: what it hands to the handler. -/
def loadState (f : StateFile) (onEmpty : Result) (readable : Bool) (files : Disk) :
    Result × String :=
  let data := loadStateOnFileTaskRunner readable (files f)
  (if data.isEmpty then onEmpty else .LEDGER_OK, data)

def loadLedgerState : Bool → Disk → Result × String :=
  loadState .ledger_state .LEDGER_ERROR

def loadPublisherState : Bool → Disk → Result × String :=
  loadState .publisher_state .LEDGER_ERROR

def loadPublisherList : Bool → Disk → Result × String :=
  loadState .publishers_list .NO_PUBLISHER_LIST

/-- The loader of a file. -/
def load : StateFile → Bool → Disk → Result × String
  | .ledger_state => loadLedgerState
  | .publisher_state => loadPublisherState
  | .publishers_list => loadPublisherList

/-! ### Saved and reported, then loaded -/

/-- The saver and the loader of a file work on that file, and the saver reports a success. -/
lemma save_eq (f : StateFile) (text : String) (o : SaveOutcome) (files : Disk) :
    save f text o files
      = (Function.update files f (fileAfter o text (files f)), .LEDGER_OK) := by
  cases f <;>
    simp [save, saveLedgerState, savePublisherState, savePublishersList, saveState,
      onLedgerStateSaved, onPublisherStateSaved, onPublishersListSaved, success_eq_true]

/-- A loader hands over a nonempty text as `LEDGER_OK` exactly if it is the text of the file. -/
lemma load_eq_ok_iff {f : StateFile} {readable : Bool} {files : Disk} {text : String}
    (ht : text ≠ "") :
    load f readable files = (.LEDGER_OK, text)
      ↔ readable = true ∧ fromFile (files f) = text.toList := by
  have hload : load f readable files = (.LEDGER_OK, text)
      ↔ loadStateOnFileTaskRunner readable (files f) = text := by
    have hne : text.isEmpty = false := by simpa using ht
    cases f <;>
      simp only [load, loadLedgerState, loadPublisherState, loadPublisherList, loadState,
        Prod.mk.injEq] <;>
      exact ⟨fun h => h.2, fun h => ⟨by simp [h, hne], h⟩⟩
  rw [hload, loadStateOnFileTaskRunner]
  cases readable with
  | false => simp [Ne.symm ht]
  | true =>
      simp only [if_true, true_and]
      exact ⟨fun h => by rw [← h, String.toList_ofList],
        fun h => by rw [h, String.ofList_toList]⟩

/-- The whole text is in the file: every operation succeeded, or all its bytes had reached the
file before one of them failed. -/
def Whole (o : SaveOutcome) (text : String) : Prop :=
  (o.written = true ∧ o.flushed = true) ∨ (toFile text.toList).length ≤ o.reached

/-- The condition under which a reported save loads back: the file can be opened for reading,
and either it was opened for writing, the whole text reached it and the text has no Ctrl-Z, or
the open was refused and the file already held the text. -/
def Recoverable (f : StateFile) (text : String) (o : SaveOutcome) (readable : Bool)
    (files : Disk) : Prop :=
  readable = true ∧
    ((o.opened = true ∧ Whole o text ∧ CTRL_Z ∉ text.toList) ∨
      (o.opened = false ∧ fromFile (files f) = text.toList))

/-- The stored bytes read back as the text exactly if they are the whole text without Ctrl-Z. -/
lemma fromFile_stored (o : SaveOutcome) (text : String) :
    fromFile (o.stored text) = text.toList ↔ Whole o text ∧ CTRL_Z ∉ text.toList := by
  rw [SaveOutcome.stored, Whole]
  split
  · rename_i h
    have hall := fromFile_take_toFile text.toList (toFile text.toList).length
    rw [List.take_length] at hall
    simpa [Bool.and_eq_true .. ▸ h] using hall
  · rename_i h
    rw [Bool.and_eq_true] at h
    simpa [h] using fromFile_take_toFile text.toList o.reached

/-- **Reported saves**: for every nonempty text and every outcome of the file operations, a save
reported as `LEDGER_OK` is handed back by the matching load if and only if it is
`Recoverable`. -/
theorem reported_loads_iff (f : StateFile) (text : String) (ht : text ≠ "") (o : SaveOutcome)
    (readable : Bool) (files : Disk) :
    ((save f text o files).2 = .LEDGER_OK →
        load f readable (save f text o files).1 = (.LEDGER_OK, text))
      ↔ Recoverable f text o readable files := by
  simp only [save_eq, load_eq_ok_iff ht, Function.update_self, fileAfter, Recoverable,
    forall_const]
  cases o.opened with
  | true => simp [fromFile_stored]
  | false => simp

/-- A save without failures is loaded back. -/
theorem reported_loads_iff_complete :
    load .publishers_list true (save .publishers_list "[]" .complete fun _ => []).1
      = (.LEDGER_OK, "[]") :=
  (reported_loads_iff .publishers_list "[]" (by decide) .complete true fun _ => []).mpr
    ⟨rfl, .inl ⟨rfl, .inl ⟨rfl, rfl⟩, by decide⟩⟩ (by decide)

/-- On a full disk `SaveLedgerState` reports `LEDGER_OK` and the file is left empty. -/
theorem reported_not_loaded :
    ¬ ∀ (f : StateFile) (text : String) (o : SaveOutcome) (files : Disk), text ≠ "" →
      (save f text o files).2 = .LEDGER_OK →
        load f true (save f text o files).1 = (.LEDGER_OK, text) := by
  intro hall
  have h := hall .ledger_state "{}" ⟨true, false, false, 0⟩ (fun _ => ['o', 'l', 'd'])
    (by decide) (by decide)
  revert h
  decide

end RewardsDriver.Files
