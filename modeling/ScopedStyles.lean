import ScopedStyles.Batch.Glob
import ScopedStyles.Batch.Outputs
import ScopedStyles.Batch.Run
import ScopedStyles.Batch.Tree
import ScopedStyles.CommandLine
import ScopedStyles.Config
import ScopedStyles.Digest.Base64
import ScopedStyles.Digest.Encoding
import ScopedStyles.Digest.Numeral
import ScopedStyles.Digest.Xxh3
import ScopedStyles.Exports
import ScopedStyles.Failure
import ScopedStyles.Foundation.OrderedMap
import ScopedStyles.Graph.Basic
import ScopedStyles.Graph.Compilation
import ScopedStyles.Graph.Event
import ScopedStyles.Graph.Resolution
import ScopedStyles.Identifier.Basic
import ScopedStyles.Identifier.Escape
import ScopedStyles.Identifier.Mention
import ScopedStyles.Json.Text
import ScopedStyles.Json.Token
import ScopedStyles.Json.Value
import ScopedStyles.Keyframes
import ScopedStyles.Log
import ScopedStyles.Main
import ScopedStyles.Module.Collect
import ScopedStyles.Module.Composition
import ScopedStyles.Module.Settlement
import ScopedStyles.Module.State
import ScopedStyles.Module.ValueRule
import ScopedStyles.Options
import ScopedStyles.Path.Basic
import ScopedStyles.Path.Specifier
import ScopedStyles.Path.Written
import ScopedStyles.Pattern.Basic
import ScopedStyles.Pattern.Bracketed
import ScopedStyles.Pattern.CharacterClass
import ScopedStyles.Pattern.Escape
import ScopedStyles.Pattern.Part
import ScopedStyles.Pattern.Reading
import ScopedStyles.Processing
import ScopedStyles.Proofs.Batch.OutputDirectory
import ScopedStyles.Proofs.Batch.Places
import ScopedStyles.Proofs.Batch.Trees
import ScopedStyles.Proofs.Caching.Lockstep
import ScopedStyles.Proofs.Caching.Mirroring
import ScopedStyles.Proofs.Caching.Recompilation
import ScopedStyles.Proofs.Caching.Transparency
import ScopedStyles.Proofs.Composition.Cycles
import ScopedStyles.Proofs.Composition.Finality
import ScopedStyles.Proofs.Composition.Firmness
import ScopedStyles.Proofs.Composition.Following
import ScopedStyles.Proofs.Composition.Merging
import ScopedStyles.Proofs.Composition.Names
import ScopedStyles.Proofs.Composition.Removal
import ScopedStyles.Proofs.Composition.Reporting
import ScopedStyles.Proofs.Composition.Running
import ScopedStyles.Proofs.Composition.Soundness
import ScopedStyles.Proofs.Composition.Union
import ScopedStyles.Proofs.Digest.Decoding
import ScopedStyles.Proofs.Exports.Agreement
import ScopedStyles.Proofs.Exports.Aliases
import ScopedStyles.Proofs.Exports.Flags
import ScopedStyles.Proofs.Exports.Keyframes
import ScopedStyles.Proofs.Exports.ReadingBack
import ScopedStyles.Proofs.Exports.Renaming
import ScopedStyles.Proofs.Exports.Tables
import ScopedStyles.Proofs.Exports.Widening
import ScopedStyles.Proofs.Foundation.Alike
import ScopedStyles.Proofs.Foundation.Pairing
import ScopedStyles.Proofs.Graph.Accounting
import ScopedStyles.Proofs.Graph.Arriving
import ScopedStyles.Proofs.Graph.Balance
import ScopedStyles.Proofs.Graph.Blame
import ScopedStyles.Proofs.Graph.Bounded
import ScopedStyles.Proofs.Graph.Comparison
import ScopedStyles.Proofs.Graph.Completion
import ScopedStyles.Proofs.Graph.Contract
import ScopedStyles.Proofs.Graph.Deepening
import ScopedStyles.Proofs.Graph.Ensures
import ScopedStyles.Proofs.Graph.Evolution
import ScopedStyles.Proofs.Graph.Likeness
import ScopedStyles.Proofs.Graph.Loading
import ScopedStyles.Proofs.Graph.Nesting
import ScopedStyles.Proofs.Graph.Ordering
import ScopedStyles.Proofs.Graph.Origins
import ScopedStyles.Proofs.Graph.Purity
import ScopedStyles.Proofs.Graph.Renaming
import ScopedStyles.Proofs.Graph.Resolving
import ScopedStyles.Proofs.Graph.Results
import ScopedStyles.Proofs.Graph.Running
import ScopedStyles.Proofs.Graph.SingleClass
import ScopedStyles.Proofs.Graph.Steps
import ScopedStyles.Proofs.Graph.Walking
import ScopedStyles.Proofs.Graph.Widening
import ScopedStyles.Proofs.Identifier.Addresses
import ScopedStyles.Proofs.Identifier.Escaping
import ScopedStyles.Proofs.Identifier.Mentions
import ScopedStyles.Proofs.Identifier.Spelling
import ScopedStyles.Proofs.Module.Checking
import ScopedStyles.Proofs.Module.ComposesLists
import ScopedStyles.Proofs.Module.Counterparts
import ScopedStyles.Proofs.Module.Courses
import ScopedStyles.Proofs.Module.Declarations
import ScopedStyles.Proofs.Module.Delaying
import ScopedStyles.Proofs.Module.Development
import ScopedStyles.Proofs.Module.Fates
import ScopedStyles.Proofs.Module.Introductions
import ScopedStyles.Proofs.Module.Locations
import ScopedStyles.Proofs.Module.Marks
import ScopedStyles.Proofs.Module.Matching
import ScopedStyles.Proofs.Module.Preservation
import ScopedStyles.Proofs.Module.Records
import ScopedStyles.Proofs.Module.Renaming
import ScopedStyles.Proofs.Module.RuleKinds
import ScopedStyles.Proofs.Module.Settling
import ScopedStyles.Proofs.Module.Substitution
import ScopedStyles.Proofs.Module.Symbols
import ScopedStyles.Proofs.Module.ValuePaths
import ScopedStyles.Proofs.Module.ValuePlaces
import ScopedStyles.Proofs.Module.ValueRules
import ScopedStyles.Proofs.Module.Waiting
import ScopedStyles.Proofs.Module.Widening
import ScopedStyles.Proofs.Path.Canonical
import ScopedStyles.Proofs.Path.Nearest
import ScopedStyles.Proofs.Path.Relative
import ScopedStyles.Proofs.ScopedName.Collisions
import ScopedStyles.Proofs.ScopedName.Expansion
import ScopedStyles.Proofs.ScopedName.Templates
import ScopedStyles.Proofs.ScopedName.Validity
import ScopedStyles.Proofs.Selector.Balance
import ScopedStyles.Proofs.Selector.Escapes
import ScopedStyles.Proofs.Selector.Items
import ScopedStyles.Proofs.Selector.Lexeme
import ScopedStyles.Proofs.Selector.Marking
import ScopedStyles.Proofs.Selector.Passage
import ScopedStyles.Proofs.Selector.ProperNesting
import ScopedStyles.Proofs.Selector.Reading
import ScopedStyles.Proofs.Selector.Rendering.Conservation
import ScopedStyles.Proofs.Selector.Rendering.Echo
import ScopedStyles.Proofs.Selector.Rendering.Meaning
import ScopedStyles.Proofs.Selector.Rendering.Respelling
import ScopedStyles.Proofs.Selector.Rendering.Spacing
import ScopedStyles.Proofs.Selector.Rendering.Trimming
import ScopedStyles.Proofs.Selector.SingleClass
import ScopedStyles.Proofs.Selector.Spans
import ScopedStyles.Proofs.Selector.Standing
import ScopedStyles.Proofs.Selector.Verbatim
import ScopedStyles.Proofs.Sheet.Clean
import ScopedStyles.Proofs.Sheet.Contents
import ScopedStyles.Proofs.Sheet.DocumentOrder
import ScopedStyles.Proofs.Sheet.Heads
import ScopedStyles.Proofs.Sheet.Leaves
import ScopedStyles.Proofs.Sheet.Likeness
import ScopedStyles.Proofs.Sheet.Positions
import ScopedStyles.Proofs.Sheet.Pruning
import ScopedStyles.Proofs.Sheet.RoundTrip
import ScopedStyles.Proofs.Text.Bytes
import ScopedStyles.Proofs.Text.Counting
import ScopedStyles.Proofs.Text.FromClause
import ScopedStyles.Proofs.Text.LineTables
import ScopedStyles.Proofs.Text.Positions
import ScopedStyles.ScopedName.Generator
import ScopedStyles.ScopedName.Template
import ScopedStyles.Selector.Annotation
import ScopedStyles.Selector.Mode
import ScopedStyles.Selector.Piece
import ScopedStyles.Selector.Span
import ScopedStyles.Sheet.Event
import ScopedStyles.Sheet.Node
import ScopedStyles.Sheet.Parse
import ScopedStyles.Sheet.Prelude
import ScopedStyles.Sheet.Printer
import ScopedStyles.Sheet.Prune
import ScopedStyles.Sheet.Visit
import ScopedStyles.Text.CaseShift
import ScopedStyles.Text.Casing
import ScopedStyles.Text.Character
import ScopedStyles.Text.CodeRange
import ScopedStyles.Text.Cut
import ScopedStyles.Text.FromClause
import ScopedStyles.Text.LineTable
import ScopedStyles.Text.Location
import ScopedStyles.Text.Property
import ScopedStyles.TokenTable
