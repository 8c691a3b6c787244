import SqlTemplate.Main
import SqlTemplate.Proofs.Connectors
import SqlTemplate.Proofs.Quoting
import SqlTemplate.Proofs.Trimming
import SqlTemplate.Proofs.CanonicalComments
import SqlTemplate.Proofs.Relexing
import SqlTemplate.Proofs.Agreement
import SqlTemplate.Proofs.OpenBlocks
import SqlTemplate.Proofs.Printing
import SqlTemplate.Proofs.Scenes
import SqlTemplate.Proofs.StructuralErrors
import SqlTemplate.Proofs.Execution
import SqlTemplate.Proofs.Frame
import SqlTemplate.Proofs.Pruning
import SqlTemplate.Proofs.DepthGuard
import SqlTemplate.Proofs.Inlining
import SqlTemplate.Proofs.Origins
import SqlTemplate.Proofs.NullBlocking
import SqlTemplate.Proofs.BoundTypes
import SqlTemplate.Proofs.ConnectorAdjustment
import SqlTemplate.Proofs.TemplateDisplay
import SqlTemplate.Proofs.Scanning
import SqlTemplate.Proofs.ErrorTexts
import SqlTemplate.Proofs.WrittenConditions
import SqlTemplate.Proofs.AcceptedConditions
import SqlTemplate.Proofs.Patterns
import SqlTemplate.Proofs.PlainSql
import SqlTemplate.Proofs.ReplacedTests
import SqlTemplate.Proofs.ArgumentDocuments
import SqlTemplate.Proofs.ComparisonOrder
import SqlTemplate.Proofs.DecidingClause
import SqlTemplate.Proofs.Negation
import SqlTemplate.Proofs.DistinctKeys
import SqlTemplate.Proofs.EscapeClauses
import SqlTemplate.Proofs.QuotedElements
import SqlTemplate.Proofs.ListLoops
import SqlTemplate.Proofs.Atomicity
import SqlTemplate.Proofs.FollowedPaths
import SqlTemplate.Proofs.EnclosedTexts
import SqlTemplate.Proofs.JsonConversion
import SqlTemplate.Proofs.TestValueEnds
import SqlTemplate.Proofs.LiteralReaders
import SqlTemplate.Proofs.ByteOffsets
import SqlTemplate.Proofs.Masks
import SqlTemplate.Proofs.TextModes
import SqlTemplate.Proofs.Cutting
import SqlTemplate.Proofs.MaskedOffsets
import SqlTemplate.Proofs.OffsetReading
