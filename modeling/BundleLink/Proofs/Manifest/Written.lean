import BundleLink.Proofs.FileSystem.Links
import BundleLink.Proofs.Manifest.Reread
import BundleLink.Proofs.Text.Utf8
import BundleLink.Task

/-!
The manifest that stands on disk once it has been updated. Its file holds the text of the updated
value and is read as exactly that value: every object keeps its keys and their order, and strings
and numbers are what they were (`readManifest_updateManifest`). It is read through whatever links
lead to the file, and a key that was repeated stands once, as in the value that was read before
(`Json.Entries.keys_ofList`, `Json.Entries.get?_ofList`).
-/

set_option autoImplicit false

namespace BundleLink

open BundleLink.Json BundleLink.Text FileSystem

/-- A text that is written is read as it is. -/
theorem FileSystem.readText_of_write {fs files : FileSystem} (h : fs.IsSound) {p : Path}
    {text : String} (hwrite : fs.write p (bytesOf text) = .ok files) :
    files.readText p = .ok text.toList := by
  obtain ⟨loc, htarget, hfiles⟩ := map_eq_ok.mp hwrite
  have hfile : files.lookup? loc = some (.file (bytesOf text)) := by
    rw [← hfiles, lookup?_put fs (ne_nil_of_writeTarget h htarget), if_pos rfl]
  have hfilled : Filled fs files := hfiles ▸ Filled.put h (.refl fs) htarget _
  rw [readText, readBytes_filled_of_writeTarget h hfilled htarget hfile]
  simp

theorem readManifest_of_readText {c : Config} {fs : FileSystem} {text : List Char} {m : Value}
    (hread : fs.readText c.manifestPath = .ok text)
    (hm : Value.read (String.ofList text) = .ok m) : readManifest c fs = .ok m := by
  simp [readManifest, readFile, hread, hm, Except.mapError, bind, Except.bind]

/-- The manifest is written if it can be read and updated. -/
theorem updateManifest_of_update {c : Config} {fs : FileSystem} {m : Value} {u : ManifestUpdate}
    (hread : readManifest c fs = .ok m) (hu : Manifest.update c m = .ok u) :
    (updateManifest c fs).result = (((fs.write c.manifestPath (bytesOf u.manifest.print)).mapError
      (.file c.manifestPath)).map fun _ ↦ u.changes) ∧
    ∀ files, fs.write c.manifestPath (bytesOf u.manifest.print) = .ok files →
      (updateManifest c fs).files = files := by
  rw [updateManifest, prepareManifest, hread]
  simp only [bind, Except.bind, hu, manifestDraft, Prepared.finish, Draft.commit]
  cases fs.write c.manifestPath (bytesOf u.manifest.print) with
  | error problem => exact ⟨rfl, fun files hfiles ↦ nomatch hfiles⟩
  | ok files => exact ⟨rfl, fun files hfiles ↦ Except.ok.inj hfiles⟩

/-- An update that succeeds has written the text of the updated manifest. -/
theorem update_of_updateManifest {c : Config} {fs : FileSystem} {m : Value}
    (hread : readManifest c fs = .ok m) {changes : ManifestChanges}
    (hok : (updateManifest c fs).result = .ok changes) :
    ∃ u, Manifest.update c m = .ok u ∧ changes = u.changes ∧
      fs.write c.manifestPath (bytesOf u.manifest.print) = .ok (updateManifest c fs).files := by
  cases hu : Manifest.update c m with
  | error f =>
    simp [updateManifest, prepareManifest, hread, hu, manifestDraft, Prepared.finish, bind,
      Except.bind] at hok
  | ok u =>
    obtain ⟨hresult, hfiles⟩ := updateManifest_of_update hread hu
    rw [hresult] at hok
    cases hwrite : fs.write c.manifestPath (bytesOf u.manifest.print) with
    | error problem => simp [hwrite, Except.mapError, Except.map] at hok
    | ok files =>
      rw [hwrite] at hok
      exact ⟨u, rfl, (Except.ok.inj hok).symm, by rw [hfiles files hwrite, hwrite]⟩

/-- The manifest on disk is the updated value, read from a text that was printed from it. -/
theorem readManifest_updateManifest {c : Config} {fs : FileSystem} (h : fs.IsSound)
    {text : List Char} (hread : fs.readText c.manifestPath = .ok text) {m : Value}
    (hm : Value.read (String.ofList text) = .ok m) (hwhole : m.Integral)
    {changes : ManifestChanges} (hok : (updateManifest c fs).result = .ok changes) :
    ∃ u, Manifest.update c m = .ok u ∧ changes = u.changes ∧
      (updateManifest c fs).files.readText c.manifestPath = .ok u.manifest.print.toList ∧
      Value.read u.manifest.print = .ok u.manifest ∧
      readManifest c (updateManifest c fs).files = .ok u.manifest := by
  obtain ⟨u, hu, hchanges, hwrite⟩ :=
    update_of_updateManifest (readManifest_of_readText hread hm) hok
  have htext := readText_of_write h hwrite
  have hagain := (Manifest.reread_update hm hwhole hu).1
  refine ⟨u, hu, hchanges, htext, hagain, readManifest_of_readText htext ?_⟩
  rwa [String.ofList_toList]

/-! ### A manifest with a repeated key and escaped characters -/

def escapedConfig : Config where
  bundleDir := "d"
  extension := "x"
  condition := "k"
  manifest := "m"

def escapedText : String :=
  "\x7b\"b\":1,\"exports\":\x7b\".\":\x7b\"default\":\"./d/a.x\"\x7d\x7d," ++
    "\"b\":[-2,\"\\ud83d\\ude00\\u0007\"]\x7d"

def escapedPackage : FileSystem where
  entries := [([bytesOf "m"], .file (bytesOf escapedText))]
  current := []

def escapedExports : Entries :=
  [(".", .object [("default", .string "./d/a.x")])]

def escapedEntries : Entries :=
  [("b", .array [.int (-2), .string (String.ofList [Char.ofNat 0x1f600, Char.ofNat 7])]),
    ("exports", .object escapedExports)]

set_option maxRecDepth 2000 in
theorem readManifest_escapedPackage :
    ∃ u, Manifest.update escapedConfig (.object escapedEntries) = .ok u ∧
      u.changes = ⟨[⟨".", "./d/a.x.linked.x"⟩], []⟩ ∧
      (updateManifest escapedConfig escapedPackage).files.readText escapedConfig.manifestPath =
        .ok u.manifest.print.toList ∧
      readManifest escapedConfig (updateManifest escapedConfig escapedPackage).files =
        .ok u.manifest := by
  have hsound : escapedPackage.IsSound := isSound_of_entries (by decide)
  have hread : escapedPackage.readText escapedConfig.manifestPath = .ok escapedText.toList := by
    decide +kernel
  have hm : Value.read (String.ofList escapedText.toList) = .ok (.object escapedEntries) := by
    decide +kernel
  have hwhole : (Value.object escapedEntries).Integral := by
    refine .object _ fun e he ↦ ?_
    rcases List.mem_pair.mp he with rfl | rfl
    · refine .array _ fun v hv ↦ ?_
      rcases List.mem_pair.mp hv with rfl | rfl
      · exact .int (-2)
      · exact .string _
    · refine .object _ fun e he ↦ ?_
      obtain rfl := List.mem_singleton.mp he
      refine .object _ fun e he ↦ ?_
      obtain rfl := List.mem_singleton.mp he
      exact .string _
  have hok : (updateManifest escapedConfig escapedPackage).result =
      .ok ⟨[⟨".", "./d/a.x.linked.x"⟩], []⟩ := by
    have hmanifest := readManifest_of_readText hread hm
    have htarget : escapedPackage.writeTarget escapedConfig.manifestPath = .ok [bytesOf "m"] := by
      decide
    rw [(updateManifest_of_update hmanifest rfl).1, write, htarget]
    have hchanges : (Manifest.updateEntries escapedConfig escapedEntries escapedExports).changes =
        ⟨[⟨".", "./d/a.x.linked.x"⟩], []⟩ := by decide
    exact congrArg Except.ok hchanges
  obtain ⟨u, hu, hchanges, htext, -, hagain⟩ :=
    readManifest_updateManifest hsound hread hm hwhole hok
  exact ⟨u, hu, hchanges.symm, htext, hagain⟩

end BundleLink
