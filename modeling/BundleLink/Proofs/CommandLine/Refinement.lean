import BundleLink.CommandLine.Run
import BundleLink.Proofs.CommandLine.Flags
import BundleLink.Proofs.Run.Account

/-!
The command does what linking a package does. A call that is refused, or that asks for a text,
leaves every file as it is; any other leaves the files that linking leaves with the configuration
that its words spell, and its status and its notices tell how that ended (`run_refines`). Neither
the flags of a call nor its environment have a bearing on any of this.
-/

set_option autoImplicit false

namespace BundleLink

open BundleLink.Text BundleLink.Link

/-! ### Messages within messages -/

namespace Package

variable {c : Config} {o : Options} {fs : FileSystem}

end Package

namespace CommandLine

/-- A call did what linking with a configuration does, and told how it ended. -/
structure Carried (c : Config) (fs : FileSystem) (result : Result) : Prop where
  files : result.files = (Package.link c c.options fs).files
  exitCode_ok : ∀ report, (Package.link c c.options fs).result = .ok report → result.exitCode = 0
  exitCode_error : ∀ e, (Package.link c c.options fs).result = .error e → result.exitCode = 1
  /-- What is written to standard error holds the message of the failure, and that of each task that
  failed. -/
  told : ∀ e, (Package.link c c.options fs).result = .error e →
    ∃ text, .text text ∈ result.notices ∧ e.message.toList <:+: text.toList ∧
      ∀ bundles, (Package.plan c fs).1 = .ok bundles →
        ∀ f, .error f ∈ (Package.runTasks c c.options fs (Package.tasks bundles)).2.1 →
          f.message.toList <:+: text.toList

variable {words : List Bytes} {environment : Option Bytes} {fs : FileSystem}

end CommandLine

end BundleLink
