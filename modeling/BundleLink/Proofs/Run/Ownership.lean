import BundleLink.Proofs.Discovery.Linked
import BundleLink.Proofs.Run.Footprint
import Mathlib

/-!
Whose file is whose. The tasks of a run write different files, and none of them a bundle
(`OwnFiles`), as long as the bundles and their artifacts are entries of directories and no links,
no bundle is found by two paths, and the manifest is a file apart. Links elsewhere do no harm. Then
all bundles are after a run what they were before (`ownFiles_of_unlinked`). Each of the conditions
is needed (`exists_clash`).
-/

set_option autoImplicit false

namespace BundleLink.Package

open BundleLink.Text BundleLink.Link FileSystem

/-- Every task writes a file of its own, and none of them a bundle. -/
structure OwnFiles (c : Config) (fs : FileSystem) (bundles : List Path) : Prop where
  apart : (tasks bundles).Pairwise fun t t' ↦ ∀ loc,
    fs.writeTarget (t.target c) = .ok loc → fs.writeTarget (t'.target c) ≠ .ok loc
  bundle : ∀ t ∈ tasks bundles, ∀ b ∈ bundles, ∀ loc,
    fs.writeTarget (t.target c) = .ok loc → fs.writeTarget b ≠ .ok loc

/-- No link stands in the place of a bundle or an artifact, and no two bundles are one entry. -/
structure Unlinked (c : Config) (fs : FileSystem) (bundles : List Path) : Prop where
  plain : ∀ b ∈ bundles, ∀ p ∈ [b, c.linkedPath b], ∀ loc entry, fs.entry? p = some loc →
    fs.lookup? loc = some entry → entry.isLink = false
  nodup : (bundles.map fs.entry?).Nodup

/-- Where a bundle and its artifact stand: in one directory, under their names. -/
structure Placed (c : Config) (fs : FileSystem) (b : Path) (around : Address) (name : Bytes) :
    Prop where
  linkable : Linkable c b name
  entry : fs.entry? b = some (around ++ [name])
  bundle : ∀ loc, fs.writeTarget b = .ok loc → loc = around ++ [name]
  artifact : ∀ loc, fs.writeTarget (c.linkedPath b) = .ok loc →
    loc = around ++ [name ++ bytesOf c.suffix]

section

variable {c : Config} (hc : c.Accepted) (hext : '/' ∉ c.extension.toList) {fs : FileSystem}
  (h : fs.IsSound) {bundles : List Path} (hbundles : (discover c fs).1 = .ok bundles)
  (hunlinked : Unlinked c fs bundles)

include hc hext h hbundles hunlinked

theorem placed_of_mem {b : Path} (hb : b ∈ bundles) : ∃ around name, Placed c fs b around name := by
  obtain ⟨name, hlinkable⟩ := linkable_of_mem_discover hc hext hbundles h hb
  obtain ⟨_, _, hname⟩ := hlinkable.named
  have hname' := isName_append_suffix hext hname.2.1
  have hartifact :=
    hlinkable.named.append (slash_notMem_bytesOf (slash_notMem_suffix hext)) hname'
  obtain ⟨front, -, hsteps⟩ := hlinkable.named.steps_eq
  obtain ⟨-, loc, content, hfile⟩ := (isFile_iff fs b).mp (isFile_of_mem_discover hbundles hb)
  obtain ⟨around, haround⟩ := around_of_resolve hfile hsteps
  have haround' := haround.append hlinkable.named hname'
  have hentry := haround.entry? hsteps
  have hsteps' := hlinkable.named.steps_append c.suffix
  rw [steps_of_isName hname'] at hsteps'
  have hentry' : fs.entry? (c.linkedPath b) = some (around ++ [name ++ bytesOf c.suffix]) :=
    haround'.entry? hsteps'
  have hplain (p : Path) (hp : p ∈ [b, c.linkedPath b]) (loc : Address)
      (hloc : fs.entry? p = some loc) (target : Path) : fs.lookup? loc ≠ some (.link target) := by
    intro hlink
    have hnot := hunlinked.plain b hb p hp loc _ hloc hlink
    simp [Entry.isLink] at hnot
  refine ⟨around, name, hlinkable, hentry, fun loc hloc ↦ ?_, fun loc hloc ↦ ?_⟩
  · exact haround.loc_eq hlinkable.named (hplain b (by simp) _ hentry) hloc
  · exact haround'.loc_eq hartifact (hplain _ (by simp) _ hentry') hloc

variable (hmanifest : ∀ b ∈ bundles, Task.manifest.Spares c fs (.bundle b))

include hmanifest

theorem ownFiles : OwnFiles c fs bundles := by
  constructor
  · rw [tasks, List.pairwise_cons, List.pairwise_map]
    constructor
    · intro t ht loc hloc
      obtain ⟨b, hb, rfl⟩ := List.mem_map.mp ht
      exact (hmanifest b hb loc hloc).2
    · refine (List.pairwise_map.mp hunlinked.nodup).imp_of_mem fun {b b'} hb hb' hne loc hloc hloc' ↦ ?_
      obtain ⟨around, name, hplaced⟩ := placed_of_mem hc hext h hbundles hunlinked hb
      obtain ⟨around', name', hplaced'⟩ := placed_of_mem hc hext h hbundles hunlinked hb'
      have hsame := (hplaced.artifact loc hloc).symm.trans (hplaced'.artifact loc hloc')
      obtain ⟨haround, hnames⟩ := List.append_inj' hsame rfl
      have hname := List.append_cancel_right (List.singleton_inj.mp hnames)
      exact hne (by rw [hplaced.entry, hplaced'.entry, haround, hname])
  · intro t ht b hb loc hloc hloc'
    rcases List.mem_cons.mp ht with rfl | ht
    · exact (hmanifest b hb loc hloc).1 hloc'
    · obtain ⟨b', hb', rfl⟩ := List.mem_map.mp ht
      obtain ⟨around, name, hplaced⟩ := placed_of_mem hc hext h hbundles hunlinked hb
      obtain ⟨around', name', hplaced'⟩ := placed_of_mem hc hext h hbundles hunlinked hb'
      have hsame := (hplaced'.artifact loc hloc).symm.trans (hplaced.bundle loc hloc')
      have hname := List.singleton_inj.mp (List.append_inj' hsame rfl).2
      exact hplaced.linkable.not_suffixed (hname ▸ hplaced'.linkable.suffixed)

end

/-- Tasks that own their files leave every bundle as it is. -/
theorem readBytes_of_ownFiles {c : Config} {o : Options} {fs : FileSystem} (h : fs.IsSound)
    {bundles : List Path} (hplan : (plan c fs).1 = .ok bundles) (hown : OwnFiles c fs bundles)
    {files : FileSystem} (hsnapshot : Snapshot c o fs (tasks bundles) files) {b : Path}
    (hb : b ∈ bundles) :
    ∃ content, fs.readBytes b = .ok content ∧ files.readBytes b = .ok content := by
  obtain ⟨hslash, loc, content, hfile⟩ :=
    (isFile_iff fs b).mp (isFile_of_mem_discover (plan_eq_ok_iff.mp hplan).2 hb)
  have hread : fs.readBytes b = .ok content := by simp [readBytes, hfile, hslash]
  refine ⟨content, hread, readBytes_filled_of_ok h hsnapshot.filled hread fun loc hloc ↦ ?_⟩
  by_contra hne
  obtain ⟨t, ht, -, -, -, -, htarget, -⟩ := hsnapshot.drafted loc hne
  exact hown.bundle t ht b hb loc htarget hloc

/-- Without links in the places of bundles and artifacts the tasks of a run write files of their
own, whatever links lead to them: each a different one, and none of them a bundle. Nothing else
changes in a run, and the bundles are the same after it. -/
theorem ownFiles_of_unlinked {c : Config} {o : Options} {fs : FileSystem} (h : fs.IsSound)
    (hc : c.problem? = none) (hext : '/' ∉ c.extension.toList) {bundles : List Path}
    (hbundles : (discover c fs).1 = .ok bundles) (hunlinked : Unlinked c fs bundles)
    (hmanifest : ∀ b ∈ bundles, Task.manifest.Spares c fs (.bundle b)) :
    OwnFiles c fs bundles ∧
      ∀ files ended result, Runs c o fs files ended result →
        (∀ loc, files.lookup? loc ≠ fs.lookup? loc →
          ∃ t ∈ tasks bundles, fs.writeTarget (t.target c) = .ok loc) ∧
        ∀ b ∈ bundles,
          ∃ content, fs.readBytes b = .ok content ∧ files.readBytes b = .ok content := by
  have haccepted := c.accepted_iff.mp hc
  have hplan := plan_eq_ok_iff.mpr ⟨haccepted, hbundles⟩
  have hown := ownFiles haccepted hext h hbundles hunlinked hmanifest
  refine ⟨hown, fun files ended result hrun ↦ ?_⟩
  have hsnapshot := snapshot_of_runs h hplan hrun
  refine ⟨fun loc hne ↦ ?_, fun b hb ↦ readBytes_of_ownFiles h hplan hown hsnapshot hb⟩
  obtain ⟨t, ht, -, -, -, -, htarget, -⟩ := hsnapshot.drafted loc hne
  exact ⟨t, ht, htarget⟩

/-! ### Packages behind links, and with links in the wrong places -/

/-- The sample package reached through a link. -/
def linkedSample : FileSystem where
  entries :=
    [([bytesOf "p"], .link (.ofString "./q")), ([bytesOf "q"], .directory),
      ([bytesOf "q", bytesOf "m"], .file (bytesOf "\x7b\"exports\":\x7b\x7d\x7d")),
      ([bytesOf "q", bytesOf "d"], .directory), ([bytesOf "q", bytesOf "d", bytesOf "a.x"], .file [])]
  current := []

def linkedConfig : Config :=
  { sampleConfig with baseDir := .ofString "p" }

def linkedBundle : Path :=
  .ofString "p/d/a.x"

theorem problem?_linkedConfig : linkedConfig.problem? = none := by rfl

theorem isSound_linkedSample : linkedSample.IsSound :=
  isSound_of_entries (by decide)

theorem discover_linkedSample : (discover linkedConfig linkedSample).1 = .ok [linkedBundle] :=
  toOption_eq_some_iff.mp (by decide +kernel)

theorem unlinked_linkedSample : Unlinked linkedConfig linkedSample [linkedBundle] := by
  refine ⟨fun b hb p hp loc entry hloc hentry ↦ ?_, by simp⟩
  obtain rfl := List.mem_singleton.mp hb
  have hbundle : linkedSample.entry? linkedBundle =
      some [bytesOf "q", bytesOf "d", bytesOf "a.x"] := by decide
  have hartifact : linkedSample.entry? (linkedConfig.linkedPath linkedBundle) =
      some [bytesOf "q", bytesOf "d", bytesOf "a.x.linked.x"] := by decide +kernel
  rcases List.mem_pair.mp hp with rfl | rfl
  · rw [hbundle, Option.some.injEq] at hloc
    subst hloc
    exact Option.some.inj hentry ▸ rfl
  · rw [hartifact, Option.some.injEq] at hloc
    subst hloc
    cases hentry

theorem spares_linkedSample :
    ∀ b ∈ [linkedBundle], Task.manifest.Spares linkedConfig linkedSample (.bundle b) := by
  decide +kernel

theorem ownFiles_linkedSample : OwnFiles linkedConfig linkedSample [linkedBundle] :=
  (ownFiles_of_unlinked (o := linkedConfig.options) isSound_linkedSample problem?_linkedConfig
    (by decide) discover_linkedSample unlinked_linkedSample spares_linkedSample).1

-- The kernel cannot run merge sort, so directories of several entries are evaluated with `cbv`.

/-- An accepted configuration under which tasks do not own their files. -/
def Clash (c : Config) (fs : FileSystem) (bundles : List Path) : Prop :=
  fs.IsSound ∧ c.problem? = none ∧ (discover c fs).1 = .ok bundles ∧ ¬OwnFiles c fs bundles

/-- The sample package with more in it. -/
def sampleWith (entries : List (Address × Entry)) : FileSystem :=
  { sample with entries := sample.entries ++ entries }

/-- The place of the artifact is a link back to the bundle. -/
theorem clash_artifactLink : Clash sampleConfig
    (sampleWith [([bytesOf "d", bytesOf "a.x.linked.x"], .link (.ofString "a.x"))])
    [sampleBundle] := by
  refine ⟨isSound_of_entries (by decide), problem?_sample, by cbv, fun hown ↦ ?_⟩
  exact hown.bundle (.bundle sampleBundle) (by simp [tasks]) sampleBundle (by simp)
    [bytesOf "d", bytesOf "a.x"] (by decide) (by decide)

/-- A directory is searched a second time through a link. -/
theorem clash_directoryLink : Clash sampleConfig
    (sampleWith [([bytesOf "d", bytesOf "l"], .link (.ofString "../d/s")),
      ([bytesOf "d", bytesOf "s"], .directory), ([bytesOf "d", bytesOf "s", bytesOf "b.x"], .file [])])
    [sampleBundle, .ofString "d/l/b.x", .ofString "d/s/b.x"] := by
  refine ⟨isSound_of_entries (by decide), problem?_sample, by cbv, fun hown ↦ ?_⟩
  have hrest := (List.pairwise_cons.mp (List.pairwise_cons.mp hown.apart).2).2
  exact (List.pairwise_cons.mp hrest).1 (.bundle (.ofString "d/s/b.x")) (by simp)
    [bytesOf "d", bytesOf "s", bytesOf "b.x.linked.x"] (by decide) (by decide)

/-- The manifest is the artifact of a bundle. -/
theorem clash_manifest : Clash { sampleConfig with manifest := "d/a.x.linked.x" }
    (sampleWith [([bytesOf "d", bytesOf "a.x.linked.x"],
      .file (bytesOf "\x7b\"exports\":\x7b\x7d\x7d"))])
    [sampleBundle] := by
  refine ⟨isSound_of_entries (by decide), by rfl, by cbv, fun hown ↦ ?_⟩
  exact (List.pairwise_cons.mp hown.apart).1 (.bundle sampleBundle) (by simp)
    [bytesOf "d", bytesOf "a.x.linked.x"] (by decide) (by decide)

/-- The extension leads from the artifact back to the bundle. -/
theorem clash_extension : Clash { sampleConfig with extension := "x/../x" }
    { entries :=
        [([bytesOf "d"], .directory), ([bytesOf "d", bytesOf "a.x"], .directory),
          ([bytesOf "d", bytesOf "x.linked.x"], .directory), ([bytesOf "d", bytesOf "x"], .file [])]
      current := [] }
    [.ofString "d/a.x/../x", .ofString "d/x.linked.x/../x"] := by
  refine ⟨isSound_of_entries (by decide), by rfl, by cbv, fun hown ↦ ?_⟩
  exact hown.bundle (.bundle (.ofString "d/a.x/../x")) (by simp [tasks]) (.ofString "d/a.x/../x")
    (by simp) [bytesOf "d", bytesOf "x"] (by decide) (by decide)

/-- Links, a manifest among the artifacts and an extension with a separator each let tasks write
one file. -/
theorem exists_clash :
    (∃ fs, Clash sampleConfig fs [sampleBundle]) ∧
    (∃ fs b b', Clash sampleConfig fs [sampleBundle, b, b']) ∧
    (∃ fs manifest, Clash { sampleConfig with manifest := manifest } fs [sampleBundle]) ∧
    ∃ fs extension b b', Clash { sampleConfig with extension := extension } fs [b, b'] :=
  ⟨⟨_, clash_artifactLink⟩, ⟨_, _, _, clash_directoryLink⟩, ⟨_, _, clash_manifest⟩,
    _, _, _, _, clash_extension⟩

end BundleLink.Package
