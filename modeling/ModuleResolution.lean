import ModuleResolution.Association
import ModuleResolution.Binary64
import ModuleResolution.Cache
import ModuleResolution.Command.Options
import ModuleResolution.Command.Record
import ModuleResolution.Command.Run
import ModuleResolution.Config.Settings
import ModuleResolution.Config.Value
import ModuleResolution.Core
import ModuleResolution.Environment
import ModuleResolution.Error
import ModuleResolution.FileSystem.Basic
import ModuleResolution.FileSystem.Disk
import ModuleResolution.FileSystem.Memory
import ModuleResolution.FileSystem.Snapshot
import ModuleResolution.Flags
import ModuleResolution.Format
import ModuleResolution.Json.Basic
import ModuleResolution.Json.Reader
import ModuleResolution.Json.Rows
import ModuleResolution.Log
import ModuleResolution.Main
import ModuleResolution.Package.Exports
import ModuleResolution.Package.Manifest
import ModuleResolution.Package.PatternKey
import ModuleResolution.Package.Scope
import ModuleResolution.Package.Segment
import ModuleResolution.Package.Specifier
import ModuleResolution.Package.Target
import ModuleResolution.Path
import ModuleResolution.Percent
import ModuleResolution.Proofs.Association
import ModuleResolution.Proofs.Cache.Batch
import ModuleResolution.Proofs.Cache.Sharing
import ModuleResolution.Proofs.Cache.Transparency
import ModuleResolution.Proofs.Command.Answers
import ModuleResolution.Proofs.Command.JsonOutput
import ModuleResolution.Proofs.Command.TextOutput
import ModuleResolution.Proofs.Command.Words
import ModuleResolution.Proofs.Config.Integers
import ModuleResolution.Proofs.Config.Layers
import ModuleResolution.Proofs.Config.Writable
import ModuleResolution.Proofs.Fault.Kind
import ModuleResolution.Proofs.Fault.Lookup
import ModuleResolution.Proofs.Fault.Resolution
import ModuleResolution.Proofs.Fault.Target
import ModuleResolution.Proofs.Fault.Url
import ModuleResolution.Proofs.FileSystem.Manifests
import ModuleResolution.Proofs.FileSystem.Tree
import ModuleResolution.Proofs.Json.RoundTrip
import ModuleResolution.Proofs.Package.Breaks
import ModuleResolution.Proofs.Package.Capture
import ModuleResolution.Proofs.Package.Choice
import ModuleResolution.Proofs.Package.Containment
import ModuleResolution.Proofs.Package.Editing
import ModuleResolution.Proofs.Package.Filling
import ModuleResolution.Proofs.Package.KeyCheck
import ModuleResolution.Proofs.Package.Keys
import ModuleResolution.Proofs.Package.Leaves
import ModuleResolution.Proofs.Package.Legality
import ModuleResolution.Proofs.Package.PatternOrder
import ModuleResolution.Proofs.Package.PatternSelection
import ModuleResolution.Proofs.Package.PatternSort
import ModuleResolution.Proofs.Package.Scope
import ModuleResolution.Proofs.Package.Segment
import ModuleResolution.Proofs.Package.Shorthand
import ModuleResolution.Proofs.Package.Specifier
import ModuleResolution.Proofs.Path
import ModuleResolution.Proofs.Path.Ancestors
import ModuleResolution.Proofs.Path.Name
import ModuleResolution.Proofs.Percent
import ModuleResolution.Proofs.Percent.Runs
import ModuleResolution.Proofs.Resolution.Bare
import ModuleResolution.Proofs.Resolution.Breaks
import ModuleResolution.Proofs.Resolution.Conditions
import ModuleResolution.Proofs.Resolution.CoreModules
import ModuleResolution.Proofs.Resolution.Enclosing
import ModuleResolution.Proofs.Resolution.Files
import ModuleResolution.Proofs.Resolution.Format
import ModuleResolution.Proofs.Resolution.Installed
import ModuleResolution.Proofs.Resolution.OwnImports
import ModuleResolution.Proofs.Resolution.ParentTail
import ModuleResolution.Proofs.Resolution.Place
import ModuleResolution.Proofs.Resolution.Precedence
import ModuleResolution.Proofs.Resolution.Separators
import ModuleResolution.Proofs.Resolution.Soundness
import ModuleResolution.Proofs.Resolution.SpecifierTail
import ModuleResolution.Proofs.Resolution.UsualForm
import ModuleResolution.Proofs.Sorting
import ModuleResolution.Proofs.Text.Pieces
import ModuleResolution.Proofs.Text.Utf8
import ModuleResolution.Proofs.Text.WellFormed
import ModuleResolution.Proofs.Trace
import ModuleResolution.Proofs.Url.Breaks
import ModuleResolution.Proofs.Url.Containment
import ModuleResolution.Proofs.Url.Data
import ModuleResolution.Proofs.Url.File
import ModuleResolution.Proofs.Url.FileJoin
import ModuleResolution.Proofs.Url.Join
import ModuleResolution.Proofs.Url.Relative
import ModuleResolution.Proofs.Url.RoundTrip
import ModuleResolution.Proofs.Url.Separator
import ModuleResolution.Proofs.Url.Tail
import ModuleResolution.Proofs.Yaml.Hexadecimal
import ModuleResolution.Resolver
import ModuleResolution.Text.Basic
import ModuleResolution.Text.Blank
import ModuleResolution.Text.Case
import ModuleResolution.Text.CaseTable
import ModuleResolution.Text.Digit
import ModuleResolution.Text.Printed
import ModuleResolution.Text.Quoted
import ModuleResolution.Text.Utf8
import ModuleResolution.Trace
import ModuleResolution.Url.Basic
import ModuleResolution.Url.Data
import ModuleResolution.Url.File
import ModuleResolution.Url.Host
import ModuleResolution.Url.Join
import ModuleResolution.Yaml.Atom
import ModuleResolution.Yaml.Cursor
import ModuleResolution.Yaml.Node
import ModuleResolution.Yaml.Scalar
import ModuleResolution.Yaml.Token
