import Rollout.CommandLine.Arguments
import Rollout.CommandLine.Program
import Rollout.Copy
import Rollout.Deployment.Context
import Rollout.Deployment.Dialogue
import Rollout.Deployment.Request
import Rollout.Deployment.Run
import Rollout.Deployment.Transfer
import Rollout.Failure
import Rollout.Files
import Rollout.Json.Reader
import Rollout.Json.Text
import Rollout.LocalPath
import Rollout.Machine.Format
import Rollout.Machine.Process
import Rollout.Machine.Programs
import Rollout.Machine.Service
import Rollout.Machine.Shell
import Rollout.Machine.Shown
import Rollout.Machine.State
import Rollout.Main
import Rollout.RemotePath
import Rollout.Rehearsal.Event
import Rollout.Rehearsal.World
import Rollout.Script.Action
import Rollout.Script.Fault
import Rollout.Script.Keyword
import Rollout.Script.Reader
import Rollout.Script.Statement
import Rollout.Script.Written
import Rollout.Session
import Rollout.Settings
import Rollout.Sftp.Status
import Rollout.Sftp.Tree
import Rollout.Shell.Command
import Rollout.Shell.Expansion
import Rollout.Shell.Token
import Rollout.Ssh.Host
import Rollout.Ssh.Session
import Rollout.Ssh.World
import Rollout.Terminal.Bar
import Rollout.Terminal.Prompt
import Rollout.Terminal.Report
import Rollout.Terminal.Style
import Rollout.Text.Blank
import Rollout.Text.Decode
import Rollout.Text.Hidden
import Rollout.Text.Split
import Rollout.Variables
import Rollout.Proofs.Order
import Rollout.Proofs.Paths
import Rollout.Proofs.Reach
import Rollout.Proofs.Course
import Rollout.Proofs.Deletion
import Rollout.Proofs.Lifecycle
import Rollout.Proofs.Containment
import Rollout.Proofs.ByteOrder
import Rollout.Proofs.Recall
import Rollout.Proofs.Discretion
import Rollout.Proofs.CommandTokens
import Rollout.Proofs.Compounds
import Rollout.Proofs.Layout
import Rollout.Proofs.Linewise
import Rollout.Proofs.Tokens
import Rollout.Proofs.Ways
import Rollout.Proofs.Faithful
import Rollout.Proofs.Store
import Rollout.Proofs.Upload
import Rollout.Proofs.Download
import Rollout.Proofs.Server
import Rollout.Proofs.Exchanges
import Rollout.Proofs.Duplication
import Rollout.Proofs.Reading
import Rollout.Proofs.Wrapped
import Rollout.Proofs.Placeholders
import Rollout.Proofs.Wording
import Rollout.Proofs.Gaps
import Rollout.Proofs.InDirectory
import Rollout.Proofs.Interpreting
import Rollout.Proofs.Exports
import Rollout.Proofs.ReadBack
import Rollout.Proofs.Aloud
import Rollout.Proofs.Unconnected
import Rollout.Proofs.ExitCodes
import Rollout.Proofs.Secrecy
import Rollout.Proofs.CleanPaths
import Rollout.Proofs.Shapes
import Rollout.Proofs.Startable
import Rollout.Proofs.Ownership
import Rollout.Proofs.Endings
import Rollout.Proofs.Naming
import Rollout.Proofs.Leftovers
import Rollout.Proofs.JsonRoundTrip
import Rollout.Proofs.SavedSettings
import Rollout.Proofs.Spelling
import Rollout.Proofs.Trees
import Rollout.Proofs.DirectoryChains
import Rollout.Proofs.Landings
import Rollout.Proofs.Fetching
import Rollout.Proofs.EntryByEntry
import Rollout.Proofs.CanonicalPaths
import Rollout.Proofs.WorkingDirectories
import Rollout.Proofs.LiteralWords
import Rollout.Proofs.ConnectTargets
import Rollout.Proofs.OnePass
import Rollout.Proofs.Assignments
import Rollout.Proofs.FirstFault
import Rollout.Proofs.InputLines
import Rollout.Proofs.Operator
import Rollout.Proofs.Prompting
import Rollout.Proofs.Accounting
import Rollout.Proofs.Drawings
