import ComponentKit.Main
import ComponentKit.Proofs.CommandLine.Status
import ComponentKit.Proofs.Component.Declaration
import ComponentKit.Proofs.Component.Header
import ComponentKit.Proofs.Disk.Fresh
import ComponentKit.Proofs.Project.Landing
import ComponentKit.Proofs.Registry.Boundary
import ComponentKit.Proofs.Registry.ImportBlock
import ComponentKit.Proofs.Registry.Legacy
import ComponentKit.Proofs.Registry.Pairing
import ComponentKit.Proofs.Settings.Storage
import ComponentKit.Proofs.Source.Locating
import ComponentKit.Proofs.Template.Literal
import ComponentKit.Proofs.Workflow.Announcement
import ComponentKit.Proofs.Workflow.Confinement
import ComponentKit.Proofs.Workflow.Indexing
import ComponentKit.Proofs.Workflow.Readiness
import ComponentKit.Proofs.Workflow.Timeline
import ComponentKit.Proofs.Workflow.Unforeseen
