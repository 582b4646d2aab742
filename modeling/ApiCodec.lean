import ApiCodec.Build.AuthHeaders
import ApiCodec.Build.Definitions
import ApiCodec.Build.Model
import ApiCodec.Build.Operations
import ApiCodec.Build.Trace
import ApiCodec.CommandLine.Arguments
import ApiCodec.CommandLine.DryRun
import ApiCodec.CommandLine.Failure
import ApiCodec.CommandLine.Run
import ApiCodec.CommandLine.Settings
import ApiCodec.Decoder.Payload
import ApiCodec.Decoder.Plan
import ApiCodec.Document.Basic
import ApiCodec.Document.Catalog
import ApiCodec.Document.Message
import ApiCodec.Document.Operation
import ApiCodec.Document.Schema
import ApiCodec.Document.Parameter
import ApiCodec.Document.Security
import ApiCodec.Document.Server
import ApiCodec.Document.Text
import ApiCodec.Emit.Client
import ApiCodec.Emit.Codec
import ApiCodec.Emit.Context
import ApiCodec.Emit.DefinitionModule
import ApiCodec.Emit.Generate
import ApiCodec.Emit.RequestTypes
import ApiCodec.Emit.Template
import ApiCodec.Emit.Templates
import ApiCodec.Files.Bundle
import ApiCodec.Files.Path
import ApiCodec.Files.Tree
import ApiCodec.Json.Basic
import ApiCodec.Json.Location
import ApiCodec.Json.Printer
import ApiCodec.Json.Reader
import ApiCodec.Main
import ApiCodec.Model.Basic
import ApiCodec.Model.Definition
import ApiCodec.Model.Notice
import ApiCodec.Model.Operation
import ApiCodec.Naming
import ApiCodec.Number.Binary64
import ApiCodec.Number.Decimal
import ApiCodec.Options
import ApiCodec.Proofs.Bundle.Agreement
import ApiCodec.Proofs.Bundle.Closed
import ApiCodec.Proofs.Bundle.Failures
import ApiCodec.Proofs.Bundle.Lookups
import ApiCodec.Proofs.Decoder.Overrides
import ApiCodec.Proofs.Decoder.Statuses
import ApiCodec.Proofs.Dialect.Equivalence
import ApiCodec.Proofs.Dialect.Operations
import ApiCodec.Proofs.Dialect.Outcome
import ApiCodec.Proofs.Dialect.Parameters
import ApiCodec.Proofs.Dialect.Pointers
import ApiCodec.Proofs.Dialect.Schemas
import ApiCodec.Proofs.Dialect.Translation
import ApiCodec.Proofs.Flatten.Closure
import ApiCodec.Proofs.Flatten.Follow
import ApiCodec.Proofs.Flatten.Identity
import ApiCodec.Proofs.Flatten.Meets
import ApiCodec.Proofs.Flatten.Names
import ApiCodec.Proofs.Flatten.Outline
import ApiCodec.Proofs.Flatten.Promotion
import ApiCodec.Proofs.Flatten.Publish
import ApiCodec.Proofs.Flatten.Responses
import ApiCodec.Proofs.Flatten.Run
import ApiCodec.Proofs.Flatten.Schema
import ApiCodec.Proofs.Flatten.Sites
import ApiCodec.Proofs.Flatten.Table
import ApiCodec.Proofs.Reading.Declared
import ApiCodec.Proofs.Reading.DocumentRoundTrip
import ApiCodec.Proofs.Reading.Fields
import ApiCodec.Proofs.Reading.Mentions
import ApiCodec.Proofs.Reading.Records
import ApiCodec.Proofs.Reading.SchemaRoundTrip
import ApiCodec.Proofs.Reading.Written
import ApiCodec.Proofs.Unfold.Flattening
import ApiCodec.Proofs.Unfold.Unfolding
import ApiCodec.Proofs.Walk.Machine
import ApiCodec.Proofs.Walk.Paths
import ApiCodec.Proofs.Walk.Termination
import ApiCodec.Reference.Path
import ApiCodec.Reference.Pointer
import ApiCodec.Shape.Error
import ApiCodec.Shape.Record
import ApiCodec.Text.Letters
import ApiCodec.Text.NameSet
import ApiCodec.Text.Segments
import ApiCodec.Text.Tables
import ApiCodec.Text.Words
import ApiCodec.Yaml.Cursor
import ApiCodec.Yaml.Node
import ApiCodec.Yaml.Printer
import ApiCodec.Yaml.Reader
import ApiCodec.Yaml.Scalar
import ApiCodec.Yaml.Token
import ApiCodec.Proofs.Decoder.Conformance
import ApiCodec.Proofs.Decoder.Depth
import ApiCodec.Proofs.Decoder.Inlining
import ApiCodec.Proofs.Emit.Rendering
import ApiCodec.Proofs.Emit.Sources
import ApiCodec.Proofs.Emit.Contexts
import ApiCodec.Proofs.Emit.Runs
import ApiCodec.Proofs.Emit.Recursion
import ApiCodec.Proofs.Emit.Identifiers
import ApiCodec.Proofs.Emit.Codecs
import ApiCodec.Proofs.Emit.Known
import ApiCodec.Proofs.Emit.Imports
import ApiCodec.Proofs.Reference.Resolving
import ApiCodec.Proofs.Reference.Anchoring
import ApiCodec.Proofs.Files.Placement
import ApiCodec.Proofs.Files.Writing
import ApiCodec.Proofs.Emit.Resolution
import ApiCodec.Proofs.Emit.Places
import ApiCodec.Proofs.Parameters.Entries
import ApiCodec.Proofs.Parameters.Chains
import ApiCodec.Proofs.Parameters.Overriding
import ApiCodec.Proofs.Registry.Chains
import ApiCodec.Proofs.Parameters.Tokens
import ApiCodec.Proofs.Notices.Accounts
import ApiCodec.Proofs.Failures.Causes
import ApiCodec.Proofs.Client.Bodies
import ApiCodec.Proofs.Client.Urls
import ApiCodec.Proofs.Decoder.TypeLists
import ApiCodec.Proofs.Decoder.Ranges
import ApiCodec.Proofs.Emit.Hoisting
import ApiCodec.Proofs.Emit.Needs
import ApiCodec.Proofs.Text.Quoting
import ApiCodec.Proofs.Emit.Keys
import ApiCodec.Proofs.Text.Escaping
import ApiCodec.Proofs.Emit.Marks
import ApiCodec.Proofs.Emit.Comments
import ApiCodec.Proofs.Reference.Keys
import ApiCodec.Proofs.Bundle.Needs
import ApiCodec.Proofs.Bundle.Reachable
import ApiCodec.Proofs.Reference.Climbing
import ApiCodec.Proofs.Files.Lookup
import ApiCodec.Proofs.Bundle.Ending
import ApiCodec.Proofs.Reading.ReferenceText
import ApiCodec.Proofs.Bundle.Endless
import ApiCodec.Proofs.Text.Folding
import ApiCodec.Proofs.Emit.Exports
import ApiCodec.Proofs.Reference.NormalForm
import ApiCodec.Proofs.Flatten.Occurrences
import ApiCodec.Proofs.Text.Sanitizing
import ApiCodec.Proofs.Emit.Decoders
