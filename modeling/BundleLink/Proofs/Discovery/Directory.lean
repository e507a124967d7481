import BundleLink.Proofs.Discovery.Region

/-!
The directory that is searched. It is named twice: once by the text of the pattern for bundles, which
leaves out the separators that the base directory ends in, and once by joining the bundle directory
to the base directory, as a manifest is joined to it. The two names agree (`solid_bundleRoot`), so
every bundle is found in the directory that is reported as searched
(`bundleRoot_isPrefix_of_mem_discover`), unless the base directory is empty or ends in a backslash or
the bundle directory is absolute (`exists_stray`).
-/

set_option autoImplicit false

namespace BundleLink

open BundleLink.Text FileSystem

/-- A configuration whose bundle directory is named from its base directory: that is not empty, no
backslash at its end is taken for a separator, and the bundle directory is relative. -/
structure Config.Rooted (c : Config) : Prop where
  base_ne_nil : c.baseDir.bytes ≠ []
  base_end : ∀ text, decode? c.baseDir.bytes = some text →
    (text.reverse.dropWhile (· = '/')).head? ≠ some '\\'
  bundleDir_relative : (Path.ofString c.bundleDirName).isAbsolute = false

/-- The text of the pattern names the directory that is reported. -/
theorem solid_bundleRoot {c : Config} (hc : c.Rooted) {base : List Char}
    (hbase : c.baseText? = some base) :
    (⟨encode (directoryChars c base)⟩ : Path).solid = c.bundleRoot.solid := by
  rw [solid_directoryChars hbase hc.base_ne_nil hc.base_end, Config.bundleRoot,
    Path.solid_join_of_relative c.baseDir hc.bundleDir_relative,
    Path.solid_of_relative hc.bundleDir_relative]

/-- Every bundle is found in the directory that is reported as searched, component by component. -/
theorem bundleRoot_isPrefix_of_mem_discover {c : Config} (hconfig : c.problem? = none)
    (hc : c.Rooted) {fs : FileSystem} (h : fs.IsSound) {bundles : List Path}
    (hbundles : (discover c fs).1 = .ok bundles) :
    ∀ b ∈ bundles, c.bundleRoot.solid <+: b.solid := by
  intro b hb
  obtain ⟨base, hbase, hall⟩ := solid_of_mem_discover h (c.accepted_iff.mp hconfig) hbundles
  obtain ⟨first, rest, way, name, -, -, -, hsolid, -⟩ := hall b hb
  rw [hsolid, solid_bundleRoot hc hbase]
  exact List.prefix_append _ _

/-! ### A package, and bundles that are found beside the directory reported -/

def nearbyConfig : Config where
  baseDir := .ofString "./p/"
  bundleDir := "./d/"
  extension := "x"

/-- A package with a bundle that a symbolic link leads to. -/
def nearby : FileSystem where
  entries :=
    [([bytesOf "p"], .directory), ([bytesOf "p", bytesOf "d"], .directory),
      ([bytesOf "p", bytesOf "d", bytesOf "e"], .link (.ofString "../f")),
      ([bytesOf "p", bytesOf "f"], .directory),
      ([bytesOf "p", bytesOf "f", bytesOf "a.x"], .file [])]
  current := []

theorem bundleRoot_isPrefix_nearby :
    (Path.ofString "./p/d").solid <+: (Path.ofString "p/d/e/a.x").solid := by
  have hconfig : nearbyConfig.problem? = none := by rfl
  have hrooted : nearbyConfig.Rooted := by
    refine ⟨by decide, fun text htext ↦ ?_, by rfl⟩
    have hbase : decode? nearbyConfig.baseDir.bytes = some "./p/".toList := by decide +kernel
    obtain rfl := Option.some.inj (hbase.symm.trans htext)
    decide
  have hsound : nearby.IsSound := isSound_of_entries (by decide)
  have hfound : (discover nearbyConfig nearby).1 = .ok [.ofString "p/d/e/a.x"] :=
    toOption_eq_some_iff.mp (by decide +kernel)
  exact bundleRoot_isPrefix_of_mem_discover hconfig hrooted hsound hfound _
    (List.mem_singleton_self _)

/-- An accepted configuration under which a bundle is found that does not stand in the directory
reported. -/
def Strays (c : Config) (fs : FileSystem) : Prop :=
  fs.IsTree ∧ c.problem? = none ∧ ∃ bundles, (discover c fs).1 = .ok bundles ∧
    ∃ b ∈ bundles, ¬c.bundleRoot.solid <+: b.solid

/-- A package with one bundle at the root. -/
def atRoot : FileSystem where
  entries :=
    [([bytesOf "d"], .directory), ([bytesOf "d", bytesOf "a.x"], .file []),
      ([bytesOf "p"], .directory), ([bytesOf "p", bytesOf "d"], .directory),
      ([bytesOf "p", bytesOf "d", bytesOf "a.x"], .file [])]
  current := []

/-- The backslash is left out of the pattern, so the package searched is another one than that of the
manifest. -/
theorem strays_backslash : Strays { nearbyConfig with baseDir := .ofString "p\\" } atRoot := by
  have hfound : (discover { nearbyConfig with baseDir := .ofString "p\\" } atRoot).1 =
      .ok [.ofString "p/d/a.x"] := toOption_eq_some_iff.mp (by decide +kernel)
  exact ⟨by decide, by rfl, _, hfound, _, List.mem_singleton_self _, by decide⟩

/-- An empty base directory is searched as the root. -/
theorem strays_empty : Strays { nearbyConfig with baseDir := ⟨[]⟩ } atRoot := by
  have hfound : (discover { nearbyConfig with baseDir := ⟨[]⟩ } atRoot).1 =
      .ok [.ofString "/d/a.x"] := toOption_eq_some_iff.mp (by decide +kernel)
  exact ⟨by decide, by rfl, _, hfound, _, List.mem_singleton_self _, by decide⟩

/-- An absolute bundle directory is searched below the base directory. -/
theorem strays_absolute :
    Strays { nearbyConfig with baseDir := .ofString "p", bundleDir := "/d" } atRoot := by
  have hfound : (discover { nearbyConfig with baseDir := .ofString "p", bundleDir := "/d" }
      atRoot).1 = .ok [.ofString "p/d/a.x"] := toOption_eq_some_iff.mp (by decide +kernel)
  exact ⟨by decide, by rfl, _, hfound, _, List.mem_singleton_self _, by decide⟩

theorem exists_stray :
    (∃ fs, Strays { nearbyConfig with baseDir := .ofString "p\\" } fs) ∧
    (∃ fs, Strays { nearbyConfig with baseDir := ⟨[]⟩ } fs) ∧
    ∃ fs, Strays { nearbyConfig with baseDir := .ofString "p", bundleDir := "/d" } fs :=
  ⟨⟨_, strays_backslash⟩, ⟨_, strays_empty⟩, _, strays_absolute⟩

end BundleLink
