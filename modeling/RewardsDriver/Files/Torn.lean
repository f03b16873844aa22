import Mathlib.Tactic
import RewardsDriver.Base.Runs
import RewardsDriver.Files.StateFile

/-!
Are the state files ever torn? The savers open a file with truncation, write and close, with no
lock, each through a stream with an offset of its own.

* `saveStep`, `saveSystem`: the steps of any number of saves in any order, with refused opens,
  failed writes, crashes and loads.
* `torn`: a load between the open and the first write of a save returns an empty text.
* `Intact`: the guard under which no load is torn, a save writes only to a file that no other
  save has opened since, and a file is loaded only when the save that opened it last has written
  its whole text.
* `IntactInv`, `intactInv_step`: the invariant, a file and what the save that opened it last has
  still to write make up the text of that save.
* `whole_of_intact`: **no load is torn** in any such run.
-/

namespace RewardsDriver.Files

/-- The progress of one save. What never reaches the file is kept to the end. -/
inductive SavePhase where
  | idle
  | writing (offset : ℕ) (rest : Bytes)
  | broken (rest : Bytes)
  | closed (rest : Bytes)
  deriving DecidableEq

/-- The bytes of the text that have not reached the file. -/
def SavePhase.rest : SavePhase → Bytes
  | .idle => []
  | .writing _ rest => rest
  | .broken rest => rest
  | .closed rest => rest

/-- A crash ends the saves in progress. -/
def SavePhase.afterCrash : SavePhase → SavePhase
  | .idle => .idle
  | .writing _ rest => .closed rest
  | .broken rest => .closed rest
  | .closed rest => .closed rest

@[simp] lemma SavePhase.rest_afterCrash (p : SavePhase) : p.afterCrash.rest = p.rest := by
  cases p <;> rfl

@[simp] lemma SavePhase.afterCrash_eq_idle {p : SavePhase} : p.afterCrash = .idle ↔ p = .idle := by
  cases p <;> simp [afterCrash]

lemma SavePhase.afterCrash_ne_writing {p : SavePhase} {k : ℕ} {rest : Bytes} :
    p.afterCrash ≠ .writing k rest := by
  cases p <;> simp [afterCrash]

/-- Writing bytes at an offset: what is there is overwritten, and a gap after the end of the file
is filled with zeros. -/
def writeAt (file : Bytes) (offset : ℕ) (bytes : Bytes) : Bytes :=
  (file ++ List.replicate (offset - file.length) '\x00').take offset ++ bytes
    ++ file.drop (offset + bytes.length)

lemma writeAt_length (file bytes : Bytes) : writeAt file file.length bytes = file ++ bytes := by
  simp [writeAt]

/-- The saves of the service, numbered by the calls: the file and the text of each. -/
abbrev Saves := ℕ → StateFile × String

/-- The files, the progress of every save, the save that opened each file last, and what the
loads have returned. -/
structure TornState where
  files : Disk
  phase : ℕ → SavePhase
  openedBy : StateFile → Option ℕ
  loads : List (StateFile × String)

/-- A step of one save, a crash of the process, or a load. -/
inductive SaveLabel where
  | open (i : ℕ) (opened : Bool)
  | write (i k : ℕ)
  | fail (i : ℕ)
  | close (i : ℕ)
  | crash
  | load (f : StateFile)

section

variable (initial : StateFile → String) (saves : Saves)

open Function in
/-- One step. A write takes the next `k` bytes of the text to the file. -/
def saveStep (s : TornState) : SaveLabel → Option TornState
  | .open i opened =>
      if s.phase i = .idle then
        let bytes := toFile (saves i).2.toList
        if opened then
          some { s with files := update s.files (saves i).1 []
                        phase := update s.phase i (.writing 0 bytes)
                        openedBy := update s.openedBy (saves i).1 (some i) }
        else
          some { s with phase := update s.phase i (.broken bytes) }
      else none
  | .write i k =>
      match s.phase i with
      | .writing offset rest =>
          if 0 < k ∧ k ≤ rest.length then
            let file := writeAt (s.files (saves i).1) offset (rest.take k)
            some { s with files := update s.files (saves i).1 file
                          phase := update s.phase i (.writing (offset + k) (rest.drop k)) }
          else none
      | _ => none
  | .fail i =>
      match s.phase i with
      | .writing _ rest => some { s with phase := update s.phase i (.broken rest) }
      | _ => none
  | .close i =>
      match s.phase i with
      | .writing _ [] => some { s with phase := update s.phase i (.closed []) }
      | .broken rest => some { s with phase := update s.phase i (.closed rest) }
      | _ => none
  | .crash => some { s with phase := fun i => (s.phase i).afterCrash }
  | .load f =>
      some { s with loads := s.loads ++ [(f, loadStateOnFileTaskRunner true (s.files f))] }

/-- Before the first save: every file holds a whole text. -/
def saveInit : TornState where
  files := fun f => toFile (initial f).toList
  phase := fun _ => .idle
  openedBy := fun _ => none
  loads := []

/-- The saves and loads of the three files. -/
def saveSystem : System TornState SaveLabel := ⟨saveInit initial, saveStep saves⟩

/-! ### What one step can do -/

open Function in
/-- The enabled steps from `s`: the guard of each label and the state it leads to. -/
inductive SaveMoves (s : TornState) : SaveLabel → TornState → Prop
  | open {i} (hi : s.phase i = .idle) :
      SaveMoves s (.open i true) { s with
        files := update s.files (saves i).1 []
        phase := update s.phase i (.writing 0 (toFile (saves i).2.toList))
        openedBy := update s.openedBy (saves i).1 (some i) }
  | refuse {i} (hi : s.phase i = .idle) :
      SaveMoves s (.open i false) { s with
        phase := update s.phase i (.broken (toFile (saves i).2.toList)) }
  | write {i k offset rest} (hi : s.phase i = .writing offset rest)
      (hk : 0 < k ∧ k ≤ rest.length) :
      SaveMoves s (.write i k) { s with
        files := update s.files (saves i).1
          (writeAt (s.files (saves i).1) offset (rest.take k))
        phase := update s.phase i (.writing (offset + k) (rest.drop k)) }
  | fail {i offset rest} (hi : s.phase i = .writing offset rest) :
      SaveMoves s (.fail i) { s with phase := update s.phase i (.broken rest) }
  | close {i offset} (hi : s.phase i = .writing offset []) :
      SaveMoves s (.close i) { s with phase := update s.phase i (.closed []) }
  | abandon {i rest} (hi : s.phase i = .broken rest) :
      SaveMoves s (.close i) { s with phase := update s.phase i (.closed rest) }
  | crash : SaveMoves s .crash { s with phase := fun i => (s.phase i).afterCrash }
  | load {f} :
      SaveMoves s (.load f) { s with
        loads := s.loads ++ [(f, loadStateOnFileTaskRunner true (s.files f))] }

variable {saves}

/-- The inversion of `saveStep`: an enabled step is one of `SaveMoves`. -/
theorem saveStep_moves {s s' : TornState} {l : SaveLabel} (h : saveStep saves s l = some s') :
    SaveMoves saves s l s' := by
  cases l with
  | «open» i opened =>
      simp only [saveStep] at h
      split at h
      · cases opened with
        | true => cases h; exact .open ‹_›
        | false => cases h; exact .refuse ‹_›
      · cases h
  | write i k =>
      simp only [saveStep] at h
      split at h
      · split at h
        · cases h; exact .write ‹_› ‹_›
        · cases h
      · cases h
  | fail i =>
      simp only [saveStep] at h
      split at h
      · cases h; exact .fail ‹_›
      · cases h
  | close i =>
      simp only [saveStep] at h
      split at h
      · cases h; exact .close ‹_›
      · cases h; exact .abandon ‹_›
      · cases h
  | crash => cases h; exact .crash
  | load f => cases h; exact .load

/-! ### Loads that are not torn -/

variable (saves)

/-- A load returned the whole initial text of its file or the whole text of a save of it. -/
def WholeLoad (s : TornState) (r : StateFile × String) : Prop :=
  r.2 = initial r.1 ∨ ∃ i, s.phase i ≠ .idle ∧ saves i = r

/-- No load was torn. -/
def NeverTorn (s : TornState) : Prop := ∀ r ∈ s.loads, WholeLoad initial saves s r

/-- The text that a file is to hold. -/
def current (s : TornState) (f : StateFile) : String :=
  match s.openedBy f with
  | none => initial f
  | some i => (saves i).2

/-- What is still missing from a file. -/
def missing (s : TornState) (f : StateFile) : Bytes :=
  match s.openedBy f with
  | none => []
  | some i => (s.phase i).rest

/-- The guard: a save writes to a file that no other save has opened since, and a load finds the
whole text, without Ctrl-Z, in the file. -/
def Intact (s : TornState) : SaveLabel → Prop
  | .write i _ => s.openedBy (saves i).1 = some i
  | .load f => missing s f = [] ∧ CTRL_Z ∉ (current initial saves s f).toList
  | _ => True

/-- The invariant of the runs that meet the guard. -/
structure IntactInv (s : TornState) : Prop where
  opener : ∀ f i, s.openedBy f = some i → (saves i).1 = f ∧ s.phase i ≠ .idle
  content : ∀ f, s.files f ++ missing s f = toFile (current initial saves s f).toList
  offset : ∀ i k rest, s.phase i = .writing k rest → s.openedBy (saves i).1 = some i →
    k = (s.files (saves i).1).length
  whole : NeverTorn initial saves s

variable {initial saves}

lemma intactInv_init : IntactInv initial saves (saveInit initial) where
  opener := by simp [saveInit]
  content := by simp [saveInit, missing, current]
  offset := by simp [saveInit]
  whole := by simp [NeverTorn, saveInit]

/-- Loads stay whole as long as no save becomes idle again. -/
lemma NeverTorn.of_phase {s s' : TornState} (h : NeverTorn initial saves s)
    (hloads : s'.loads = s.loads) (hphase : ∀ i, s.phase i ≠ .idle → s'.phase i ≠ .idle) :
    NeverTorn initial saves s' := by
  intro r hr
  rw [hloads] at hr
  exact (h r hr).imp_right fun ⟨i, hi, hsave⟩ => ⟨i, hphase i hi, hsave⟩

/-- A step that only moves saves on, without a byte written, keeps the invariant. -/
lemma IntactInv.of_rest {s : TornState} (h : IntactInv initial saves s) {phase : ℕ → SavePhase}
    (hrest : ∀ i, s.phase i ≠ .idle → (phase i).rest = (s.phase i).rest ∧ phase i ≠ .idle)
    (hwriting : ∀ i k rest, phase i = .writing k rest → s.phase i = .writing k rest) :
    IntactInv initial saves { s with phase } where
  opener := fun f i hi => ⟨(h.opener f i hi).1, (hrest i (h.opener f i hi).2).2⟩
  content := fun f => by
    have hmissing : missing { s with phase } f = missing s f := by
      rw [missing, missing]
      cases ho : s.openedBy f with
      | none => rfl
      | some i => exact (hrest i (h.opener f i ho).2).1
    rw [hmissing]
    exact h.content f
  offset := fun i k rest hi ho => h.offset i k rest (hwriting i k rest hi) ho
  whole := h.whole.of_phase rfl fun i hi => (hrest i hi).2

/-- `IntactInv.of_rest` for a step of one save. -/
lemma IntactInv.of_update {s : TornState} (h : IntactInv initial saves s) {i : ℕ} {p : SavePhase}
    (hp : p ≠ .idle) (hrest : s.phase i ≠ .idle → p.rest = (s.phase i).rest)
    (hwriting : ∀ k rest, p ≠ .writing k rest) :
    IntactInv initial saves { s with phase := Function.update s.phase i p } := by
  refine h.of_rest (fun j hj => ?_) (fun j k rest hj => ?_)
  · by_cases hji : j = i
    · subst hji
      rw [Function.update_self]
      exact ⟨hrest hj, hp⟩
    · rw [Function.update_of_ne hji]
      exact ⟨rfl, hj⟩
  · by_cases hji : j = i
    · subst hji
      rw [Function.update_self] at hj
      exact absurd hj (hwriting k rest)
    · rwa [Function.update_of_ne hji] at hj

/-- Opening a file keeps the invariant: the file is empty and the whole text is missing. -/
lemma IntactInv.open {s : TornState} (h : IntactInv initial saves s) {i : ℕ}
    (hi : s.phase i = .idle) :
    IntactInv initial saves { s with
      files := Function.update s.files (saves i).1 []
      phase := Function.update s.phase i (.writing 0 (toFile (saves i).2.toList))
      openedBy := Function.update s.openedBy (saves i).1 (some i) } where
  opener := fun f j hj => by
    dsimp only at hj ⊢
    by_cases hf : f = (saves i).1
    · subst hf
      rw [Function.update_self, Option.some.injEq] at hj
      subst hj
      simp
    · rw [Function.update_of_ne hf] at hj
      have hne : j ≠ i := fun hji => (h.opener f j hj).2 (hji ▸ hi)
      rw [Function.update_of_ne hne]
      exact h.opener f j hj
  content := fun f => by
    by_cases hf : f = (saves i).1
    · subst hf
      simp [missing, current, SavePhase.rest]
    · have hcontent := h.content f
      rw [missing, current] at hcontent ⊢
      dsimp only
      rw [Function.update_of_ne hf, Function.update_of_ne hf]
      cases ho : s.openedBy f with
      | none => simpa [ho] using hcontent
      | some j =>
          have hne : j ≠ i := fun hji => (h.opener f j ho).2 (hji ▸ hi)
          simpa [ho, Function.update_of_ne hne] using hcontent
  offset := fun j k rest hj ho => by
    dsimp only at hj ho ⊢
    by_cases hji : j = i
    · subst hji
      simp only [Function.update_self, SavePhase.writing.injEq] at hj
      simp [hj.1.symm]
    · rw [Function.update_of_ne hji] at hj
      by_cases hf : (saves j).1 = (saves i).1
      · rw [hf, Function.update_self, Option.some.injEq] at ho
        exact absurd ho.symm hji
      · rw [Function.update_of_ne hf] at ho ⊢
        exact h.offset j k rest hj ho
  whole := h.whole.of_phase rfl fun j hj => by
    by_cases hji : j = i
    · subst hji
      exact absurd hi hj
    · simpa [Function.update_of_ne hji] using hj

/-- A write by the save that opened the file last keeps the invariant: the bytes go to the end
of the file, and they are the next ones of what is missing. -/
lemma IntactInv.write {s : TornState} (h : IntactInv initial saves s) {i k offset : ℕ}
    {rest : Bytes} (hi : s.phase i = .writing offset rest) (hk : k ≤ rest.length)
    (ho : s.openedBy (saves i).1 = some i) :
    IntactInv initial saves { s with
      files := Function.update s.files (saves i).1
        (writeAt (s.files (saves i).1) offset (rest.take k))
      phase := Function.update s.phase i (.writing (offset + k) (rest.drop k)) } where
  opener := fun f j hj => by
    by_cases hji : j = i
    · subst hji
      exact ⟨(h.opener f j hj).1, by simp⟩
    · dsimp only
      rw [Function.update_of_ne hji]
      exact h.opener f j hj
  content := fun f => by
    have hcontent := h.content f
    rw [missing, current] at hcontent ⊢
    dsimp only
    by_cases hf : f = (saves i).1
    · subst hf
      rw [ho] at hcontent ⊢
      rw [h.offset i offset rest hi ho, writeAt_length]
      simpa [hi, SavePhase.rest] using hcontent
    · rw [Function.update_of_ne hf]
      cases hof : s.openedBy f with
      | none => simpa [hof] using hcontent
      | some j =>
          have hne : j ≠ i := fun hji => hf (hji ▸ (h.opener f j hof).1.symm)
          simpa [hof, Function.update_of_ne hne] using hcontent
  offset := fun j k' rest' hj hoj => by
    dsimp only at hj hoj ⊢
    by_cases hji : j = i
    · subst hji
      simp only [Function.update_self, SavePhase.writing.injEq] at hj ⊢
      rw [← hj.1, h.offset j offset rest hi ho, writeAt_length]
      simp [hk]
    · have hf : (saves j).1 ≠ (saves i).1 := fun hf => by
        rw [hf, ho, Option.some.injEq] at hoj
        exact hji hoj.symm
      rw [Function.update_of_ne hji] at hj
      rw [Function.update_of_ne hf]
      exact h.offset j k' rest' hj hoj
  whole := h.whole.of_phase rfl fun j hj => by
    by_cases hji : j = i
    · subst hji
      simp
    · simpa [Function.update_of_ne hji] using hj

/-- A load of a file from which nothing is missing returns its whole text. -/
lemma IntactInv.load {s : TornState} (h : IntactInv initial saves s) {f : StateFile}
    (hmissing : missing s f = []) (hz : CTRL_Z ∉ (current initial saves s f).toList) :
    WholeLoad initial saves s (f, loadStateOnFileTaskRunner true (s.files f)) := by
  have hfile : s.files f = toFile (current initial saves s f).toList := by
    simpa [hmissing] using h.content f
  have htext : loadStateOnFileTaskRunner true (s.files f) = current initial saves s f := by
    rw [loadStateOnFileTaskRunner, if_pos rfl, hfile, fromFile_toFile hz, String.ofList_toList]
  rw [htext, current]
  cases ho : s.openedBy f with
  | none => exact .inl rfl
  | some i =>
      obtain ⟨hf, hi⟩ := h.opener f i ho
      exact .inr ⟨i, hi, by simp [← hf]⟩

/-- **The step lemma**: every step that meets the guard keeps the invariant. -/
theorem intactInv_step {s s' : TornState} {l : SaveLabel} (h : IntactInv initial saves s)
    (hok : Intact initial saves s l) (hs : SaveMoves saves s l s') :
    IntactInv initial saves s' := by
  cases hs with
  | «open» hi => exact h.open hi
  | refuse hi => exact h.of_update (by simp) (absurd hi) (by simp)
  | write hi hk => exact h.write hi hk.2 hok
  | fail hi => exact h.of_update (by simp) (by simp [hi, SavePhase.rest]) (by simp)
  | close hi => exact h.of_update (by simp) (by simp [hi, SavePhase.rest]) (by simp)
  | abandon hi => exact h.of_update (by simp) (by simp [hi, SavePhase.rest]) (by simp)
  | crash =>
      exact h.of_rest (fun i hi => by simpa using hi)
        (fun i k rest hi => absurd hi SavePhase.afterCrash_ne_writing)
  | load =>
      refine ⟨h.opener, h.content, h.offset, fun r hr => ?_⟩
      rw [List.mem_append, List.mem_singleton] at hr
      obtain hr | rfl := hr
      · exact h.whole r hr
      · exact h.load hok.1 hok.2

/-- The invariant holds in every state of every run that meets the guard. -/
theorem intactInv_reach {s : TornState}
    (h : (saveSystem initial saves).Reach (Intact initial saves) s) :
    IntactInv initial saves s :=
  h.invariant intactInv_init fun _ _ _ hinv hok hs => intactInv_step hinv hok (saveStep_moves hs)

/-- **State files are not torn**: in every run in which a save writes only to a file that no
other save has opened since, and a file is loaded only when its whole text is in it, every load
returns the whole initial text or the whole text of one save. -/
theorem whole_of_intact {s : TornState}
    (h : (saveSystem initial saves).Reach (Intact initial saves) s) :
    NeverTorn initial saves s :=
  (intactInv_reach h).whole

end

/-- A first state of each file, and one save of `ledger_state`. -/
def oldFiles : StateFile → String := fun _ => "old"

/-- Every save writes `new` to `ledger_state`. -/
def newSaves : Saves := fun _ => (.ledger_state, "new")

/-- A save that is loaded after its last byte is written, before the close. -/
def loadedWhole : List SaveLabel := [.open 0 true, .write 0 3, .load .ledger_state, .close 0]

/-- The load of `loadedWhole` returns the text of the save. -/
theorem whole_of_intact_single :
    ∃ s, (saveSystem oldFiles newSaves).run (saveInit oldFiles) loadedWhole = some s ∧
      s.loads = [(.ledger_state, "new")] ∧ NeverTorn oldFiles newSaves s := by
  let M := saveSystem oldFiles newSaves
  obtain ⟨s, hs⟩ : ∃ s, M.step M.init (.open 0 true) = some s := ⟨_, rfl⟩
  obtain ⟨t, ht⟩ : ∃ t, M.step s (.write 0 3) = some t := by
    cases hs
    exact ⟨_, rfl⟩
  obtain ⟨u, hu⟩ : ∃ u, M.step t (.load .ledger_state) = some u := by
    cases hs
    cases ht
    exact ⟨_, rfl⟩
  obtain ⟨v, hv⟩ : ∃ v, M.step u (.close 0) = some v := by
    cases hs
    cases ht
    cases hu
    exact ⟨_, rfl⟩
  have hwrite : Intact oldFiles newSaves s (.write 0 3) := by
    cases hs
    rfl
  have hload : Intact oldFiles newSaves t (.load .ledger_state) := by
    cases hs
    cases ht
    exact ⟨rfl, by decide⟩
  have hopen : M.Reach (Intact oldFiles newSaves) s := .step .init (by trivial) hs
  have hclose : M.Reach (Intact oldFiles newSaves) v :=
    .step (.step (.step hopen hwrite ht) hload hu) (by trivial) hv
  refine ⟨v, ?_, ?_, whole_of_intact hclose⟩
  · cases hs
    cases ht
    cases hu
    exact hv
  · cases hs
    cases ht
    cases hu
    cases hv
    decide

/-- A load after the open of a save and before its first write returns an empty text. -/
theorem torn : ¬ ∀ (initial : StateFile → String) (saves : Saves) (s : TornState),
    (saveSystem initial saves).Reach System.Free s → NeverTorn initial saves s := by
  intro hall
  obtain ⟨s, hs⟩ : ∃ s, (saveSystem oldFiles newSaves).run (saveInit oldFiles)
      [.open 0 true, .load .ledger_state] = some s := ⟨_, rfl⟩
  have hloads : (.ledger_state, "") ∈ s.loads := by
    cases hs
    decide
  obtain hold | ⟨i, _, hnew⟩ := hall oldFiles newSaves s (System.reach_of_run hs) _ hloads
  · exact absurd hold (by decide)
  · simp [newSaves] at hnew

end RewardsDriver.Files
