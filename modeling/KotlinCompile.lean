import KotlinCompile.Archive.Catalog
import KotlinCompile.Arguments
import KotlinCompile.Classpath
import KotlinCompile.CommandLine.Command
import KotlinCompile.CommandLine.Compile
import KotlinCompile.Compiler.Backend
import KotlinCompile.Compiler.Compilation
import KotlinCompile.Compiler.Process
import KotlinCompile.Composition
import KotlinCompile.Error
import KotlinCompile.Kapt.Payload
import KotlinCompile.Machine.Files
import KotlinCompile.Machine.Program
import KotlinCompile.Machine.Tree
import KotlinCompile.Main
import KotlinCompile.Options.Basic
import KotlinCompile.Options.Profile
import KotlinCompile.Path
import KotlinCompile.Plugin.Option
import KotlinCompile.Proofs.Archive.Located
import KotlinCompile.Proofs.Archive.Name
import KotlinCompile.Proofs.Archive.Resolved
import KotlinCompile.Proofs.Arguments
import KotlinCompile.Proofs.Capture
import KotlinCompile.Proofs.ClassName
import KotlinCompile.Proofs.Classpath
import KotlinCompile.Proofs.CommandLine.Request
import KotlinCompile.Proofs.Compiler.Again
import KotlinCompile.Proofs.Compiler.Checks
import KotlinCompile.Proofs.Compiler.CutShort
import KotlinCompile.Proofs.Compiler.Footprint
import KotlinCompile.Proofs.Compiler.Forwarding
import KotlinCompile.Proofs.Compiler.Invocation
import KotlinCompile.Proofs.Compiler.Limit
import KotlinCompile.Proofs.Compiler.Prepared
import KotlinCompile.Proofs.Compiler.Reach
import KotlinCompile.Proofs.Compiler.Rejection
import KotlinCompile.Proofs.Compiler.Report
import KotlinCompile.Proofs.Compiler.Resolution
import KotlinCompile.Proofs.Compiler.Session
import KotlinCompile.Proofs.Compiler.Steps
import KotlinCompile.Proofs.Compiler.Supplied
import KotlinCompile.Proofs.Compiler.Warning
import KotlinCompile.Proofs.Compiler.Watching
import KotlinCompile.Proofs.Compiler.Wiring
import KotlinCompile.Proofs.Compiler.Writing
import KotlinCompile.Proofs.Composition
import KotlinCompile.Proofs.Composition.Sources
import KotlinCompile.Proofs.Fallible
import KotlinCompile.Proofs.Host
import KotlinCompile.Proofs.Host.Enumeration
import KotlinCompile.Proofs.JvmTarget
import KotlinCompile.Proofs.Kapt.Appending
import KotlinCompile.Proofs.Kapt.Bounds
import KotlinCompile.Proofs.Kapt.Canonical
import KotlinCompile.Proofs.Kapt.Length
import KotlinCompile.Proofs.Kapt.Reading
import KotlinCompile.Proofs.Kapt.Remainder
import KotlinCompile.Proofs.Kapt.Stepwise
import KotlinCompile.Proofs.Listing
import KotlinCompile.Proofs.Machine.Growth
import KotlinCompile.Proofs.Machine.Here
import KotlinCompile.Proofs.Machine.Onward
import KotlinCompile.Proofs.Machine.Passing
import KotlinCompile.Proofs.Machine.Route
import KotlinCompile.Proofs.Machine.Walk
import KotlinCompile.Proofs.Machine.WellFormed
import KotlinCompile.Proofs.Occurrences
import KotlinCompile.Proofs.Options.Fields
import KotlinCompile.Proofs.Options.Load
import KotlinCompile.Proofs.Options.Profile
import KotlinCompile.Proofs.Path
import KotlinCompile.Proofs.Path.Below
import KotlinCompile.Proofs.Path.Parent
import KotlinCompile.Proofs.Path.Text
import KotlinCompile.Proofs.Plugin.Option
import KotlinCompile.Proofs.Service.Archive
import KotlinCompile.Proofs.Service.OnePass
import KotlinCompile.Proofs.SortedMap
import KotlinCompile.Proofs.Staging
import KotlinCompile.Proofs.Text.Base64
import KotlinCompile.Proofs.Text.Cut
import KotlinCompile.Proofs.Text.Line
import KotlinCompile.Proofs.Text.Order
import KotlinCompile.Proofs.Text.Utf16
import KotlinCompile.Proofs.Text.Utf8
import KotlinCompile.Proofs.Toml.Fields
import KotlinCompile.Proofs.Toml.Regular
import KotlinCompile.Proofs.Toolchain
import KotlinCompile.Proofs.Toolchain.Version
import KotlinCompile.Request
import KotlinCompile.SortedMap
import KotlinCompile.Text.Character
import KotlinCompile.Text.Cut
import KotlinCompile.Text.Encoding
import KotlinCompile.Text.Quoted
import KotlinCompile.Toml.Document
import KotlinCompile.Toml.Lexeme
import KotlinCompile.Toml.Value
import KotlinCompile.Toolchain
