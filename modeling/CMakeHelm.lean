import CMakeHelm.Main
import CMakeHelm.Session.Script
import CMakeHelm.Proofs.Session.Reachable
import CMakeHelm.Proofs.Session.Effects
import CMakeHelm.Proofs.Session.Sections
import CMakeHelm.Proofs.Session.Shared
import CMakeHelm.Proofs.Session.Attachment
import CMakeHelm.Proofs.Session.Turn
import CMakeHelm.Proofs.Session.PhaseOrder
import CMakeHelm.Proofs.Session.Completion
import CMakeHelm.Proofs.Session.Agreement
import CMakeHelm.Proofs.Session.Overlap
import CMakeHelm.Proofs.Session.Idle
import CMakeHelm.Proofs.Session.Attempt
import CMakeHelm.Proofs.Session.CallQueue
import CMakeHelm.Proofs.Session.Order
import CMakeHelm.Proofs.Session.Window
import CMakeHelm.Proofs.Session.Residue
import CMakeHelm.Proofs.Session.SentCommands
import CMakeHelm.Proofs.Session.Course
import CMakeHelm.Proofs.Session.Stream
import CMakeHelm.Proofs.Path
import CMakeHelm.Proofs.Path.Absolute
import CMakeHelm.Proofs.Path.Normal
import CMakeHelm.Proofs.FileSystem
import CMakeHelm.Proofs.FileSystem.Difference
import CMakeHelm.Proofs.FileSystem.Removal
import CMakeHelm.Proofs.Project.Trace
import CMakeHelm.Proofs.Project.Declarations
import CMakeHelm.Proofs.Project.Files
import CMakeHelm.Proofs.Project.Settings
import CMakeHelm.Proofs.Project.Statements
import CMakeHelm.Proofs.Project.Launch
import CMakeHelm.Proofs.Project.Reload
import CMakeHelm.Proofs.Project.Watch
import CMakeHelm.Proofs.Project.Regeneration
import CMakeHelm.Proofs.Project.Descent
import CMakeHelm.Proofs.Project.RepeatedLoad
import CMakeHelm.Proofs.Project.Origins
import CMakeHelm.Proofs.Project.Artifacts
import CMakeHelm.Proofs.Project.Building
import CMakeHelm.Proofs.Project.Nesting
import CMakeHelm.Proofs.CommandLine
import CMakeHelm.Proofs.Text.Words
import CMakeHelm.Proofs.Statement
import CMakeHelm.Proofs.Statement.Grammar
import CMakeHelm.Proofs.Statement.Endings
import CMakeHelm.Proofs.Command
import CMakeHelm.Proofs.Helm
import CMakeHelm.Proofs.Helm.Action
import CMakeHelm.Proofs.Helm.Reload
import CMakeHelm.Proofs.Cli
