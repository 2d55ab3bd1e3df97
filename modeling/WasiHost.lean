import WasiHost.Abi.CallName
import WasiHost.Abi.ErrNo
import WasiHost.Abi.FileType
import WasiHost.Abi.LittleEndian
import WasiHost.Abi.Rights
import WasiHost.Call.Attributes
import WasiHost.Call.Basic
import WasiHost.Call.Clock
import WasiHost.Call.Open
import WasiHost.Call.Perform
import WasiHost.Call.Process
import WasiHost.Call.Question
import WasiHost.Call.Startup
import WasiHost.Call.Stream
import WasiHost.CommandLine.Display
import WasiHost.CommandLine.Help
import WasiHost.CommandLine.Invocation
import WasiHost.CommandLine.Settings
import WasiHost.CommandLine.Task
import WasiHost.Descriptor.Arena
import WasiHost.Descriptor.Basic
import WasiHost.Descriptor.Table
import WasiHost.Engine.Link
import WasiHost.Engine.Run
import WasiHost.Error
import WasiHost.FileSystem.Basic
import WasiHost.FileSystem.FlatTree
import WasiHost.FileSystem.HostTree
import WasiHost.FileSystem.Path
import WasiHost.Json.Basic
import WasiHost.Json.Forms
import WasiHost.Json.Options
import WasiHost.Json.Token
import WasiHost.Layout.Basic
import WasiHost.Layout.Codec
import WasiHost.Layout.Primitive
import WasiHost.Layout.Record
import WasiHost.Log
import WasiHost.Main
import WasiHost.Memory.Access
import WasiHost.Memory.Basic
import WasiHost.Memory.Vectors
import WasiHost.Options
import WasiHost.Session.Action
import WasiHost.Session.Basic
import WasiHost.Text.Graphic
import WasiHost.Text.Numeral
import WasiHost.Text.Quoted
import WasiHost.Text.Utf8
import WasiHost.Trace
import WasiHost.Wasm.Binary
import WasiHost.Wasm.Machine
import WasiHost.Wasm.Module
import WasiHost.Proofs.Descriptor.Arena
import WasiHost.Proofs.Descriptor.Table
import WasiHost.Proofs.Frame
import WasiHost.Proofs.Memory.Access
import WasiHost.Proofs.Memory.Scatter
import WasiHost.Proofs.Session.Action
import WasiHost.Proofs.Call.Read
import WasiHost.Proofs.Call.Frames
import WasiHost.Proofs.Call.Open
import WasiHost.Proofs.Call.Outcome
import WasiHost.Proofs.Session.Run
import WasiHost.Proofs.Session.Invariant
import WasiHost.Proofs.Session.StandardInput
import WasiHost.Proofs.Session.Snapshot
import WasiHost.Proofs.Session.Alike
import WasiHost.Proofs.Session.Atomicity
import WasiHost.Proofs.Memory.Reach
import WasiHost.Proofs.Memory.Strings
import WasiHost.Proofs.Text.Utf8
import WasiHost.Proofs.Call.Reach
import WasiHost.Proofs.Call.Words
import WasiHost.Proofs.Call.Answer
import WasiHost.Proofs.Call.Startup
import WasiHost.Proofs.Engine.Import
import WasiHost.Proofs.Descriptor.Ledger
import WasiHost.Proofs.Call.Host
import WasiHost.Proofs.Session.Timeless
import WasiHost.Proofs.Call.Demands
import WasiHost.Proofs.Session.Reuse
import WasiHost.Proofs.Layout.Value
import WasiHost.Proofs.Layout.FieldStore
import WasiHost.Proofs.Layout.Placement
import WasiHost.Proofs.Layout.RoundTrip
import WasiHost.Proofs.Layout.Record
import WasiHost.Proofs.Call.Write
import WasiHost.Proofs.Call.Untraced
import WasiHost.Proofs.Session.Untraced
import WasiHost.Proofs.Text.WellFormed
import WasiHost.Proofs.FileSystem.Composition
import WasiHost.Proofs.Call.Paths
import WasiHost.Proofs.Session.Descent
import WasiHost.Proofs.Call.Detached
import WasiHost.Proofs.Session.Opening
import WasiHost.Proofs.Session.ExitCode
import WasiHost.Proofs.Engine.Conclusion
import WasiHost.Proofs.FileSystem.Cancellation
import WasiHost.Proofs.Memory.Chunks
import WasiHost.Proofs.Layout.Offsets
import WasiHost.Proofs.Layout.FieldAccess
import WasiHost.Proofs.Layout.Encoding
import WasiHost.Proofs.Memory.Arrays
import WasiHost.Proofs.FileSystem.FlatTree
import WasiHost.Proofs.FileSystem.Insertion
import WasiHost.Proofs.FileSystem.Inodes
import WasiHost.Proofs.FileSystem.HostPath
import WasiHost.Proofs.Memory.Allocation
import WasiHost.Proofs.Descriptor.LowestFree
import WasiHost.Proofs.Text.CString
import WasiHost.Proofs.Memory.Locality
import WasiHost.Proofs.Call.Shown
import WasiHost.Proofs.Session.Status
import WasiHost.Proofs.Call.Locality
import WasiHost.Proofs.Session.Commuting
import WasiHost.Proofs.Json.Token
import WasiHost.Proofs.Json.Value
import WasiHost.Proofs.Json.Options
import WasiHost.Proofs.CommandLine.Variables
import WasiHost.Proofs.CommandLine.Environment
