import BundleLink.Proofs.Json.Reading
import BundleLink.Proofs.Manifest.InPlace
import BundleLink.Proofs.Manifest.Written

/-!
How an update of the manifest can end, for every content of its file. The file cannot be read or is
no text, its text spells no document, the document has no exports or exports of another shape, or
the update succeeds; which of these it is depends on nothing else (`updateManifest_outcomes`). An
update that fails leaves every file and the value in memory as they were and reports nothing. A
document whose value is out of a reader's reach, such as a number out of range, is refused like a
text that is no document (`updateManifest_outOfRange`).
-/

set_option autoImplicit false

namespace BundleLink

open BundleLink.Json BundleLink.Text FileSystem

/-! ### Endings -/

/-- How an update can end. -/
inductive Ending where
  | unread
  | noDocument
  | lacksExports
  | otherExports
  | done

namespace Ending

variable {α β : Type} {c : Config} {r : Except Failure α}

/-- The results that an update ends with. -/
def Shows (c : Config) (r : Except Failure α) : Ending → Prop
  | unread => ∃ problem, r = .error (.file c.manifestPath problem)
  | noDocument => ∃ flaw, r = .error (.json c.manifestPath flaw)
  | lacksExports => r = .error (.missingExports c.manifestPath)
  | otherExports => r = .error (.unsupportedExports c.manifestPath)
  | done => ∃ a, r = .ok a

/-- The ending that a result can show. -/
def ofResult? : Except Failure α → Option Ending
  | .error (.file _ _) => some unread
  | .error (.json _ _) => some noDocument
  | .error (.missingExports _) => some lacksExports
  | .error (.unsupportedExports _) => some otherExports
  | .error _ => none
  | .ok _ => some done

theorem Shows.ofResult?_eq {k : Ending} (h : k.Shows c r) : ofResult? r = some k := by
  cases k with
  | unread =>
    obtain ⟨problem, rfl⟩ := h
    rfl
  | noDocument =>
    obtain ⟨flaw, rfl⟩ := h
    rfl
  | lacksExports => rw [show r = _ from h, ofResult?]
  | otherExports => rw [show r = _ from h, ofResult?]
  | done =>
    obtain ⟨a, rfl⟩ := h
    rfl

/-- A result shows one ending only. -/
theorem Shows.unique {k k' : Ending} (h : k.Shows c r) (h' : k'.Shows c r) : k = k' :=
  Option.some.inj (h.ofResult?_eq.symm.trans h'.ofResult?_eq)

/-- Where some condition holds and each tells the ending, the ending tells the condition. -/
theorem shows_iff {P : Ending → Prop} (hsome : ∃ k, P k) (h : ∀ k, P k → k.Shows c r)
    (k : Ending) : k.Shows c r ↔ P k := by
  refine ⟨fun hk ↦ ?_, h k⟩
  obtain ⟨k', hk'⟩ := hsome
  rwa [hk.unique (h k' hk')]

theorem Shows.map {k : Ending} (h : k.Shows c r) (f : α → β) : k.Shows c (r.map f) := by
  cases k with
  | unread =>
    obtain ⟨problem, rfl⟩ := h
    exact ⟨problem, rfl⟩
  | noDocument =>
    obtain ⟨flaw, rfl⟩ := h
    exact ⟨flaw, rfl⟩
  | lacksExports =>
    obtain rfl : r = _ := h
    rfl
  | otherExports =>
    obtain rfl : r = _ := h
    rfl
  | done =>
    obtain ⟨a, rfl⟩ := h
    exact ⟨f a, rfl⟩

end Ending

namespace Manifest

/-! ### The shape of exports -/

/-- The exports of a manifest, whatever they are. -/
def exports? : Value → Option Value
  | .object entries => Entries.get? entries "exports"
  | _ => none

/-- The manifest is no object, or it has no exports or null in their place. -/
def LacksExports (m : Value) : Prop :=
  exports? m = none ∨ exports? m = some .null

/-- The exports are a boolean, a number, a string or an array. -/
def HasOtherExports (m : Value) : Prop :=
  ∃ v, exports? m = some v ∧ ((∃ b, v = .bool b) ∨ (∃ n, v = .int n) ∨ (∃ s x, v = .real s x) ∨
    (∃ s, v = .string s) ∨ ∃ vs, v = .array vs)

def HasExports (m : Value) : Prop :=
  ∃ es, exports? m = some (.object es)

theorem exports_cases (m : Value) : LacksExports m ∨ HasOtherExports m ∨ HasExports m := by
  unfold LacksExports HasOtherExports HasExports
  cases exports? m with
  | none => exact .inl (.inl rfl)
  | some v => cases v <;> simp

variable (c : Config) {m : Value}

theorem update_of_lacks (h : LacksExports m) :
    update c m = .error (.missingExports c.manifestPath) := by
  cases m with
  | object entries =>
    have hexports : Entries.get? entries "exports" = none ∨
        Entries.get? entries "exports" = some .null := h
    rcases hexports with hexports | hexports <;> simp [update, hexports]
  | _ => rfl

theorem update_of_other (h : HasOtherExports m) :
    update c m = .error (.unsupportedExports c.manifestPath) := by
  obtain ⟨v, hv, hshape⟩ := h
  cases m with
  | object entries =>
    have hexports : Entries.get? entries "exports" = some v := hv
    rcases hshape with ⟨_, rfl⟩ | ⟨_, rfl⟩ | ⟨_, _, rfl⟩ | ⟨_, rfl⟩ | ⟨_, rfl⟩ <;>
    simp [update, hexports]
  | _ => cases hv

theorem update_of_has (h : HasExports m) : ∃ u, update c m = .ok u := by
  obtain ⟨es, hes⟩ := h
  cases m with
  | object entries =>
    have hexports : Entries.get? entries "exports" = some (.object es) := hes
    exact ⟨_, update_eq_ok_iff.mpr ⟨entries, es, rfl, hexports, rfl⟩⟩
  | _ => cases hes

/-- The ending that the exports of a value tell. -/
def Tells (m : Value) : Ending → Prop
  | .lacksExports => LacksExports m
  | .otherExports => HasOtherExports m
  | .done => HasExports m
  | _ => False

theorem exists_tells (m : Value) : ∃ k, Tells m k := by
  obtain h | h | h := exports_cases m
  · exact ⟨.lacksExports, h⟩
  · exact ⟨.otherExports, h⟩
  · exact ⟨.done, h⟩

theorem shows_of_tells {k : Ending} (h : Tells m k) : k.Shows c (update c m) := by
  cases k with
  | unread => cases h
  | noDocument => cases h
  | lacksExports => exact update_of_lacks c h
  | otherExports => exact update_of_other c h
  | done => exact update_of_has c h

/-- How an update of a value ends is told by its exports alone. -/
theorem update_shows_iff (m : Value) (k : Ending) : k.Shows c (update c m) ↔ Tells m k :=
  Ending.shows_iff (exists_tells m) (fun _ ↦ shows_of_tells c) k

/-- How an edit in place ends, and that one that fails leaves the manifest and the log alone. -/
theorem edit_outcomes (m : Value) (log : Log) :
    ((∃ s, edit c ⟨m, log⟩ = .error (.missingExports c.manifestPath) s) ↔ LacksExports m) ∧
      ((∃ s, edit c ⟨m, log⟩ = .error (.unsupportedExports c.manifestPath) s) ↔
        HasOtherExports m) ∧
      ((∃ changes s, edit c ⟨m, log⟩ = .ok changes s) ↔ HasExports m) ∧
      ∀ e s, edit c ⟨m, log⟩ = .error e s → s = ⟨m, log⟩ := by
  refine ⟨.trans ?_ (update_shows_iff c m .lacksExports),
    .trans ?_ (update_shows_iff c m .otherExports), .trans ?_ (update_shows_iff c m .done),
    fun e s h ↦ (edit_eq_error h).1⟩
  all_goals
    rw [edit_eq]
    cases update c m <;> simp [edited, Ending.Shows]

end Manifest

/-! ### The file -/

/-- A file that can be read can be written. -/
theorem FileSystem.exists_write_of_readBytes {fs : FileSystem} {p : Path} {content : Bytes}
    (hread : fs.readBytes p = .ok content) (content' : Bytes) :
    ∃ files, fs.write p content' = .ok files := by
  rw [readBytes] at hread
  split at hread
  · cases hread
  · rename_i loc _ hresolve
    split_ifs at hread with hslash
    have htarget : fs.writeTarget p = .ok loc := by
      simp [writeTarget, hresolve, hslash]
    exact ⟨_, by rw [write, htarget]; rfl⟩
  · cases hread
  · cases hread

theorem Json.Denotes.read {text : List Char} {m : Value} (h : Denotes text m) :
    Value.read (String.ofList text) = .ok m :=
  read_eq_ok_iff.mpr (by rwa [String.toList_ofList])

section

variable (c : Config) (fs : FileSystem)

/-- The file of the manifest holds bytes that are no text. -/
def HoldsNoText : Prop :=
  ∃ bytes, fs.readBytes c.manifestPath = .ok bytes ∧ ∀ text, encode text ≠ bytes

/-- The file of the manifest holds a text that spells no document with a value. -/
def HoldsNoDocument : Prop :=
  ∃ text, fs.readBytes c.manifestPath = .ok (encode text) ∧ ∀ m, ¬Denotes text m

/-- The file of the manifest holds the text of a document with the value `m`. -/
def Holds (m : Value) : Prop :=
  ∃ text, fs.readBytes c.manifestPath = .ok (encode text) ∧ Denotes text m

theorem holds_cases : (∃ problem, fs.readBytes c.manifestPath = .error problem) ∨
    HoldsNoText c fs ∨ HoldsNoDocument c fs ∨ ∃ m, Holds c fs m := by
  cases hread : fs.readBytes c.manifestPath with
  | error problem => exact .inl ⟨problem, rfl⟩
  | ok bytes =>
    by_cases htext : ∃ text, encode text = bytes
    · obtain ⟨text, rfl⟩ := htext
      by_cases hm : ∃ m, Denotes text m
      · obtain ⟨m, hm⟩ := hm
        exact .inr (.inr (.inr ⟨m, text, hread, hm⟩))
      · exact .inr (.inr (.inl ⟨text, hread, not_exists.mp hm⟩))
    · exact .inr (.inl ⟨bytes, hread, not_exists.mp htext⟩)

variable {c fs}

theorem readManifest_of_readText_error {problem : FileProblem}
    (hread : fs.readText c.manifestPath = .error problem) :
    readManifest c fs = .error (.file c.manifestPath problem) := by
  simp [readManifest, readFile, hread, Except.mapError, bind, Except.bind]

theorem readManifest_of_read_error {text : List Char} {flaw : Flaw}
    (hread : fs.readText c.manifestPath = .ok text)
    (hflaw : Value.read (String.ofList text) = .error flaw) :
    readManifest c fs = .error (.json c.manifestPath flaw) := by
  simp [readManifest, readFile, hread, hflaw, Except.mapError, bind, Except.bind]

theorem readManifest_of_error {problem : FileProblem}
    (hread : fs.readBytes c.manifestPath = .error problem) :
    readManifest c fs = .error (.file c.manifestPath problem) :=
  readManifest_of_readText_error (by rw [readText, hread])

theorem readManifest_of_noText (h : HoldsNoText c fs) :
    readManifest c fs = .error (.file c.manifestPath .notText) := by
  obtain ⟨bytes, hread, htext⟩ := h
  have hdecode : decode? bytes = none := by
    cases hbytes : decode? bytes with
    | none => rfl
    | some text => exact absurd (decode?_eq_some.mp hbytes).symm (htext text)
  exact readManifest_of_readText_error (by simp [readText, hread, hdecode])

theorem readText_of_encode {text : List Char}
    (hread : fs.readBytes c.manifestPath = .ok (encode text)) :
    fs.readText c.manifestPath = .ok text := by
  rw [readText, hread]
  simp

theorem readManifest_of_noDocument (h : HoldsNoDocument c fs) :
    ∃ flaw, readManifest c fs = .error (.json c.manifestPath flaw) := by
  obtain ⟨text, hread, hnone⟩ := h
  cases hm : Value.read (String.ofList text) with
  | ok m =>
    have hdenotes := read_eq_ok_iff.mp hm
    rw [String.toList_ofList] at hdenotes
    exact absurd hdenotes (hnone m)
  | error flaw => exact ⟨flaw, readManifest_of_read_error (readText_of_encode hread) hm⟩

theorem readManifest_of_holds {m : Value} (h : Holds c fs m) : readManifest c fs = .ok m := by
  obtain ⟨text, hread, hm⟩ := h
  exact readManifest_of_readText (readText_of_encode hread) hm.read

theorem holds_of_readManifest {m : Value} (h : readManifest c fs = .ok m) : Holds c fs m := by
  obtain ⟨_, hread⟩ | htext | hnone | ⟨m', hm⟩ := holds_cases c fs
  · simp [readManifest_of_error hread] at h
  · simp [readManifest_of_noText htext] at h
  · obtain ⟨_, hflaw⟩ := readManifest_of_noDocument hnone
    simp [hflaw] at h
  · obtain rfl := Except.ok.inj ((readManifest_of_holds hm).symm.trans h)
    exact hm

/-- What stops an update before anything is written. -/
theorem updateManifest_of_error {e : Failure}
    (he : readManifest c fs >>= Manifest.update c = .error e) :
    (updateManifest c fs).result = .error e ∧ (updateManifest c fs).files = fs ∧
      (updateManifest c fs).log = [] := by
  rw [updateManifest, prepareManifest, he]
  exact ⟨rfl, rfl, rfl⟩

/-- An update of a document ends as that of its value, since what is read can be written. -/
theorem updateManifest_of_holds {m : Value} (h : Holds c fs m) :
    (updateManifest c fs).result = (Manifest.update c m).map (·.changes) := by
  cases hu : Manifest.update c m with
  | error e =>
    have he : readManifest c fs >>= Manifest.update c = .error e :=
      bind_eq_error.mpr (.inr ⟨m, readManifest_of_holds h, hu⟩)
    exact (updateManifest_of_error he).1
  | ok u =>
    rw [(updateManifest_of_update (readManifest_of_holds h) hu).1]
    obtain ⟨text, hread, -⟩ := h
    obtain ⟨files, hwrite⟩ := exists_write_of_readBytes hread (bytesOf u.manifest.print)
    rw [hwrite]
    rfl

end

/-! ### How an update ends -/

section

variable (c : Config) (fs : FileSystem)

/-- The ending that the file of the manifest tells. -/
def ManifestTells : Ending → Prop
  | .unread => (∃ problem, fs.readBytes c.manifestPath = .error problem) ∨ HoldsNoText c fs
  | .noDocument => HoldsNoDocument c fs
  | k => ∃ m, Holds c fs m ∧ Manifest.Tells m k

theorem exists_manifestTells : ∃ k, ManifestTells c fs k := by
  obtain hread | htext | hnone | ⟨m, hm⟩ := holds_cases c fs
  · exact ⟨.unread, .inl hread⟩
  · exact ⟨.unread, .inr htext⟩
  · exact ⟨.noDocument, hnone⟩
  · obtain ⟨k, hk⟩ := Manifest.exists_tells m
    cases k with
    | unread => cases hk
    | noDocument => cases hk
    | lacksExports => exact ⟨.lacksExports, m, hm, hk⟩
    | otherExports => exact ⟨.otherExports, m, hm, hk⟩
    | done => exact ⟨.done, m, hm, hk⟩

variable {c fs}

theorem shows_of_holds {m : Value} {k : Ending} (hm : Holds c fs m) (hk : Manifest.Tells m k) :
    k.Shows c (updateManifest c fs).result := by
  rw [updateManifest_of_holds hm]
  exact (Manifest.shows_of_tells c hk).map _

theorem shows_of_manifestTells {k : Ending} (h : ManifestTells c fs k) :
    k.Shows c (updateManifest c fs).result := by
  cases k with
  | unread =>
    rcases h with ⟨problem, hread⟩ | htext
    · exact ⟨problem, (updateManifest_of_error (by rw [readManifest_of_error hread]; rfl)).1⟩
    · exact ⟨.notText, (updateManifest_of_error (by rw [readManifest_of_noText htext]; rfl)).1⟩
  | noDocument =>
    obtain ⟨flaw, hflaw⟩ := readManifest_of_noDocument h
    exact ⟨flaw, (updateManifest_of_error (by rw [hflaw]; rfl)).1⟩
  | lacksExports =>
    obtain ⟨m, hm, hk⟩ := h
    exact shows_of_holds hm hk
  | otherExports =>
    obtain ⟨m, hm, hk⟩ := h
    exact shows_of_holds hm hk
  | done =>
    obtain ⟨m, hm, hk⟩ := h
    exact shows_of_holds hm hk

variable (c fs)

theorem updateManifest_shows_iff (k : Ending) :
    k.Shows c (updateManifest c fs).result ↔ ManifestTells c fs k :=
  Ending.shows_iff (exists_manifestTells c fs) (fun _ ↦ shows_of_manifestTells) k

/-- An update that fails has written and reported nothing. -/
theorem files_of_updateManifest_eq_error {e : Failure}
    (he : (updateManifest c fs).result = .error e) :
    (updateManifest c fs).files = fs ∧ (updateManifest c fs).log = [] := by
  cases hrun : readManifest c fs >>= Manifest.update c with
  | error e' => exact (updateManifest_of_error hrun).2
  | ok u =>
    obtain ⟨m, hm, hu⟩ := bind_eq_ok.mp hrun
    rw [updateManifest_of_holds (holds_of_readManifest hm), hu] at he
    cases he

/-- How an update ends is told by the file of the manifest, and one that fails leaves everything
as it was, in the files as in memory. -/
theorem updateManifest_outcomes :
    ((∃ problem, (updateManifest c fs).result = .error (.file c.manifestPath problem)) ↔
      (∃ problem, fs.readBytes c.manifestPath = .error problem) ∨ HoldsNoText c fs) ∧
    ((∃ flaw, (updateManifest c fs).result = .error (.json c.manifestPath flaw)) ↔
      HoldsNoDocument c fs) ∧
    ((updateManifest c fs).result = .error (.missingExports c.manifestPath) ↔
      ∃ m, Holds c fs m ∧ Manifest.LacksExports m) ∧
    ((updateManifest c fs).result = .error (.unsupportedExports c.manifestPath) ↔
      ∃ m, Holds c fs m ∧ Manifest.HasOtherExports m) ∧
    ((∃ changes, (updateManifest c fs).result = .ok changes) ↔
      ∃ m, Holds c fs m ∧ Manifest.HasExports m) ∧
    (∀ e, (updateManifest c fs).result = .error e →
      (updateManifest c fs).files = fs ∧ (updateManifest c fs).log = []) ∧
    ∀ m log, ((∃ s, Manifest.edit c ⟨m, log⟩ = .error (.missingExports c.manifestPath) s) ↔
        Manifest.LacksExports m) ∧
      ((∃ s, Manifest.edit c ⟨m, log⟩ = .error (.unsupportedExports c.manifestPath) s) ↔
        Manifest.HasOtherExports m) ∧
      ((∃ changes s, Manifest.edit c ⟨m, log⟩ = .ok changes s) ↔ Manifest.HasExports m) ∧
      ∀ e s, Manifest.edit c ⟨m, log⟩ = .error e s → s = ⟨m, log⟩ :=
  ⟨updateManifest_shows_iff c fs .unread, updateManifest_shows_iff c fs .noDocument,
    updateManifest_shows_iff c fs .lacksExports, updateManifest_shows_iff c fs .otherExports,
    updateManifest_shows_iff c fs .done, fun _ ↦ files_of_updateManifest_eq_error c fs,
    Manifest.edit_outcomes c⟩

end

/-! ### A number out of range -/

/-- The numeral `1e400`. -/
def outOfRange : Numeral where
  negative := false
  whole := ['1']
  fraction := none
  exponent := some ⟨'e', [], ['4', '0', '0'], rfl, by simp, by simp [Digits]⟩
  whole_whole := ⟨by simp [Digits], by simp⟩
  fraction_digits := by simp

def outOfRangePackage : FileSystem where
  entries := [([bytesOf "package.json"], .file (bytesOf "1e400"))]
  current := []

/-- A document that is no object is refused as if it were none, not for the exports it lacks. -/
theorem updateManifest_outOfRange : ∃ text, IsDocument text (.number outOfRange) ∧
    outOfRangePackage.readBytes ({} : Config).manifestPath = .ok (encode text) ∧
    (updateManifest {} outOfRangePackage).result =
      .error (.json ({} : Config).manifestPath ⟨.numberOutOfRange, ⟨1, 5⟩⟩) := by
  have hblank : Blank [] := by simp [Blank]
  have hdoc : IsDocument outOfRange.chars (.number outOfRange) :=
    ⟨⟨[], outOfRange.chars, [], .number outOfRange, hblank, hblank⟩,
      by simp [Item.chars], rfl, .number _⟩
  have hbytes : outOfRangePackage.readBytes ({} : Config).manifestPath =
      .ok (encode outOfRange.chars) := by decide
  have hread : Value.read (String.ofList outOfRange.chars) =
      .error ⟨.numberOutOfRange, ⟨1, 5⟩⟩ := by
    rfl
  refine ⟨_, hdoc, hbytes, (updateManifest_of_error ?_).1⟩
  rw [readManifest_of_read_error (readText_of_encode hbytes) hread]
  rfl

end BundleLink
