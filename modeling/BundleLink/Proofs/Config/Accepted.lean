import BundleLink.Config
import Mathlib.Data.List.Basic

/-!
What an accepted configuration is (`accepted_iff`): no field is blank, nothing that names bundles
holds characters of patterns, and there is something to search, to look for and to run with.
-/

set_option autoImplicit false

namespace BundleLink.Config

structure Accepted (c : Config) : Prop where
  bundleDir_not_blank : isBlankText c.bundleDir = false
  extension_not_blank : isBlankText c.extension = false
  condition_not_blank : isBlankText c.condition = false
  manifest_not_blank : isBlankText c.manifest = false
  bundleDir_plain : c.bundleDir.toList.any isGlobCharacter = false
  extension_plain : c.extension.toList.any isGlobCharacter = false
  bundleDir_ne_nil : c.bundleDirChars ≠ []
  extension_no_dot : c.extension.toList.head? ≠ some '.'
  jobs_pos : 0 < c.jobs

theorem accepted_iff (c : Config) : c.problem? = none ↔ c.Accepted := by
  constructor
  · intro hc
    rw [problem?] at hc
    generalize hblank : List.find? _ _ = blank at hc
    cases blank with
    | some f => cases hc
    | none =>
      generalize hglob : List.find? _ _ = glob at hc
      cases glob with
      | some f => cases hc
      | none =>
        by_cases hdir : c.bundleDirChars = []
        · simp [hdir] at hc
        by_cases hdot : c.extension.toList.head? = some '.'
        · simp [hdir, hdot] at hc
        by_cases hjobs : c.jobs = 0
        · simp [hdir, hdot, hjobs] at hc
        simp only [List.find?_eq_none, List.mem_cons, List.not_mem_nil, or_false,
          forall_eq_or_imp, forall_eq, Bool.not_eq_true] at hblank hglob
        obtain ⟨hdir₀, hextension₀, hcondition₀, hmanifest₀⟩ := hblank
        exact ⟨hdir₀, hextension₀, hcondition₀, hmanifest₀, hglob.1, hglob.2, hdir, hdot,
          Nat.pos_of_ne_zero hjobs⟩
  · intro ha
    have hjobs := Nat.pos_iff_ne_zero.mp ha.jobs_pos
    simp only [problem?, List.find?_cons, List.find?_nil, ha.bundleDir_not_blank,
      ha.extension_not_blank, ha.condition_not_blank, ha.manifest_not_blank, ha.bundleDir_plain,
      ha.extension_plain, List.isEmpty_iff, ha.bundleDir_ne_nil, ha.extension_no_dot, hjobs,
      if_false]

theorem Accepted.withJobs {c : Config} (ha : c.Accepted) {jobs : Nat} (hjobs : 0 < jobs) :
    Accepted { c with jobs := jobs } :=
  { ha with jobs_pos := hjobs }

end BundleLink.Config
