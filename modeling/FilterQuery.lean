import FilterQuery.Text.Letters
import FilterQuery.Text.Lowercase
import FilterQuery.Text.Quoted
import FilterQuery.Number.Binary64
import FilterQuery.Number.Shortest
import FilterQuery.Number.Decimal
import FilterQuery.Number.Literal
import FilterQuery.Text.Bytes
import FilterQuery.Text.Comparison
import FilterQuery.Json
import FilterQuery.Json.Reader
import FilterQuery.OperatorTable
import FilterQuery.Error
import FilterQuery.Lexeme.Scan
import FilterQuery.Noted
import FilterQuery.Graph.Validity
import FilterQuery.Graph.Cursor
import FilterQuery.Graph.Rendering
import FilterQuery.Graph.Edit
import FilterQuery.Graph.Optimization
import FilterQuery.Graph.Evaluation
import FilterQuery.Graph.Draft
import FilterQuery.Pattern.Match
import FilterQuery.Pattern.Reader
import FilterQuery.Engine
import FilterQuery.Plan.Compilation
import FilterQuery.Query
import FilterQuery.Manual
import FilterQuery.Records.Check
import FilterQuery.Summary
import FilterQuery.Main
import FilterQuery.Proofs.Trees
import FilterQuery.Proofs.Layout
import FilterQuery.Proofs.Planting
import FilterQuery.Proofs.Combination
import FilterQuery.Proofs.Grammar
import FilterQuery.Proofs.Sequences
import FilterQuery.Proofs.Drafting
import FilterQuery.Proofs.Lowering
import FilterQuery.Proofs.Parsing
import FilterQuery.Proofs.Runs
import FilterQuery.Proofs.Compiling
import FilterQuery.Proofs.Equivalence
import FilterQuery.Proofs.Rewriting
import FilterQuery.Proofs.Surgery
import FilterQuery.Proofs.Optimizing
import FilterQuery.Proofs.OptimizedQueries
import FilterQuery.Proofs.SetExpressions
import FilterQuery.Proofs.Lookups
import FilterQuery.Proofs.Registration
import FilterQuery.Proofs.Delimiters
import FilterQuery.Proofs.Scanning
import FilterQuery.Proofs.Formulas
import FilterQuery.Proofs.FormulaMeaning
import FilterQuery.Proofs.WellFormed
import FilterQuery.Proofs.OptimizedGraphs
import FilterQuery.Proofs.EmptyGroups
import FilterQuery.Proofs.Payloads
import FilterQuery.Proofs.ErrorKinds
import FilterQuery.Proofs.ReachableQueries
import FilterQuery.Proofs.TestedQueries
import FilterQuery.Proofs.Whitelists
import FilterQuery.Proofs.ScanSteps
import FilterQuery.Proofs.Tiling
import FilterQuery.Proofs.Shifting
import FilterQuery.Proofs.Lines
import FilterQuery.Proofs.Residues
import FilterQuery.Proofs.Remarks
import FilterQuery.Proofs.RemarkedQueries
import FilterQuery.Proofs.NegationNormalForm
import FilterQuery.Proofs.Alphabets
import FilterQuery.Proofs.Views
import FilterQuery.Proofs.RecordEngines
import FilterQuery.Proofs.SyntaxErrors
import FilterQuery.Proofs.Trimming
import FilterQuery.Proofs.Nesting
import FilterQuery.Proofs.Paraphrases
import FilterQuery.Proofs.NestedRecords
import FilterQuery.Proofs.Occurrences
import FilterQuery.Proofs.Rejections
import FilterQuery.Proofs.LongestOperators
import FilterQuery.Proofs.Mixtures
import FilterQuery.Proofs.Legibility
import FilterQuery.Proofs.Renderings
import FilterQuery.Proofs.RenderedQueries
import FilterQuery.Proofs.WrittenOperators
import FilterQuery.Proofs.PairedText
import FilterQuery.Proofs.ParenthesizedTexts
import FilterQuery.Proofs.ScanErrors
import FilterQuery.Proofs.TokenPlaces
import FilterQuery.Proofs.DraftedTokens
import FilterQuery.Proofs.ErrorPlaces
import FilterQuery.Proofs.NearestBinary
import FilterQuery.Proofs.BinaryDecimals
import FilterQuery.Proofs.BinaryOrder
import FilterQuery.Proofs.RoundedDecimals
import FilterQuery.Proofs.BinaryFallback
import FilterQuery.Proofs.MixedComparisons
import FilterQuery.Proofs.Numerals
import FilterQuery.Proofs.Comparands
import FilterQuery.Proofs.NumericLiterals
import FilterQuery.Proofs.HandlerTables
import FilterQuery.Proofs.Coercion
import FilterQuery.Proofs.FinalSigmas
import FilterQuery.Proofs.Traversals
import FilterQuery.Proofs.NestedCalls
import FilterQuery.Proofs.PatternPrograms
import FilterQuery.Proofs.PatternSearches
import FilterQuery.Proofs.PatternPreferences
import FilterQuery.Proofs.AnchoredPatterns
import FilterQuery.Proofs.CoherentRelations
import FilterQuery.Proofs.FailedEdits
import FilterQuery.Proofs.Links
import FilterQuery.Proofs.Transplants
import FilterQuery.Proofs.Cursors
import FilterQuery.Proofs.Extremes
import FilterQuery.Proofs.FilterNames
import FilterQuery.Proofs.NestedBlocks
import FilterQuery.Proofs.DoubleNegations
import FilterQuery.Proofs.FieldTypes
import FilterQuery.Proofs.NestedTexts
import FilterQuery.Proofs.NestedLevels
import FilterQuery.Proofs.Convergence
import FilterQuery.Proofs.RelaxedValidation
import FilterQuery.Proofs.DistinctErrors
import FilterQuery.Proofs.UnresolvedBlocks
import FilterQuery.Proofs.NumberEquality
