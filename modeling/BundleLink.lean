import BundleLink.CommandLine.Run
import BundleLink.Main
import BundleLink.Proofs.CommandLine.Refinement
import BundleLink.Proofs.Discovery.Directory
import BundleLink.Proofs.Discovery.Exhaustive
import BundleLink.Proofs.Link.Printed
import BundleLink.Proofs.Manifest.Confluence
import BundleLink.Proofs.Manifest.Coverage
import BundleLink.Proofs.Manifest.EntryPoints
import BundleLink.Proofs.Manifest.Exports
import BundleLink.Proofs.Manifest.Outcomes
import BundleLink.Proofs.Manifest.SideEffects
import BundleLink.Proofs.Manifest.Written
import BundleLink.Proofs.Run.Confinement
import BundleLink.Proofs.Run.History
import BundleLink.Proofs.Run.Ownership
import BundleLink.Proofs.Run.Published
import BundleLink.Proofs.Run.Redirection
