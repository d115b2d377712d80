import PayloadFlow.Comparison
import PayloadFlow.Confidence
import PayloadFlow.Config
import PayloadFlow.ConfigFile
import PayloadFlow.Contract
import PayloadFlow.Digest.Base62
import PayloadFlow.Digest.Xxh64
import PayloadFlow.EventName
import PayloadFlow.Expression.Classify
import PayloadFlow.Expression.Identifier
import PayloadFlow.Expression.References
import PayloadFlow.Expression.TopLevel
import PayloadFlow.Extract.Broker.Guard
import PayloadFlow.Extract.Broker.Routine
import PayloadFlow.Extract.Broker.Shape
import PayloadFlow.Extract.Broker.Transformation
import PayloadFlow.Extract.Consumer.Access
import PayloadFlow.Extract.Consumer.Collector
import PayloadFlow.Extract.Consumer.Handler
import PayloadFlow.Extract.Consumer.Requirements
import PayloadFlow.Extract.Contracts
import PayloadFlow.Extract.Error
import PayloadFlow.Extract.ParamType
import PayloadFlow.Extract.Producer
import PayloadFlow.Finding
import PayloadFlow.Glob.Match
import PayloadFlow.Glob.Pattern
import PayloadFlow.Json.Reader
import PayloadFlow.Json.Value
import PayloadFlow.Listing
import PayloadFlow.Path
import PayloadFlow.Recommendation
import PayloadFlow.Report
import PayloadFlow.RoleMatcher
import PayloadFlow.Script.Binding
import PayloadFlow.Script.Chain
import PayloadFlow.Script.Function
import PayloadFlow.Script.Grammar.Expression
import PayloadFlow.Script.Grammar.Goal
import PayloadFlow.Script.Grammar.Jsx
import PayloadFlow.Script.Grammar.Member
import PayloadFlow.Script.Grammar.Module
import PayloadFlow.Script.Grammar.Pattern
import PayloadFlow.Script.Grammar.Statement
import PayloadFlow.Script.Grammar.TypeRule
import PayloadFlow.Script.Kind
import PayloadFlow.Script.Language
import PayloadFlow.Script.Lexeme
import PayloadFlow.Script.Node
import PayloadFlow.Script.ObjectLiteral
import PayloadFlow.Script.Outline
import PayloadFlow.Script.Parse
import PayloadFlow.Script.Parser.Basic
import PayloadFlow.Script.Scope
import PayloadFlow.Script.Value
import PayloadFlow.Script.Walk
import PayloadFlow.Simulation
import PayloadFlow.Text.Alphabetic
import PayloadFlow.Text.Blank
import PayloadFlow.Text.CodeSpan
import PayloadFlow.Text.LetterCase
import PayloadFlow.Text.Lowercase
import PayloadFlow.Text.Numeric
import PayloadFlow.Text.Search
import PayloadFlow.Validation
import PayloadFlow.Workspace.Cache
import PayloadFlow.Workspace.Discovery
import PayloadFlow.Workspace.Extraction
import PayloadFlow.Workspace.Ignore
import PayloadFlow.Workspace.Session
import PayloadFlow.Workspace.Tree
import PayloadFlow.Proofs.Joining
import PayloadFlow.Proofs.Listing
import PayloadFlow.Proofs.Simulation
import PayloadFlow.Proofs.Comparison
import PayloadFlow.Proofs.Requirements
import PayloadFlow.Proofs.BlockingFindings
import PayloadFlow.Proofs.FindingIdentity
import PayloadFlow.Proofs.Emissions
import PayloadFlow.Proofs.Deduplication
import PayloadFlow.Proofs.Cache
import PayloadFlow.Proofs.ModuleFiles
import PayloadFlow.Proofs.SharedReading
import PayloadFlow.Proofs.BatchIsolation
import PayloadFlow.Proofs.SessionCache
import PayloadFlow.Proofs.ParallelExtraction
import PayloadFlow.Proofs.Walk
import PayloadFlow.Proofs.PatternNames
import PayloadFlow.Proofs.DerivedNames
import PayloadFlow.Proofs.EventName
import PayloadFlow.Proofs.Preparation.Program
import PayloadFlow.Proofs.Preparation.Reading
import PayloadFlow.Proofs.Preparation.Agreement
import PayloadFlow.Proofs.Comments.Tree
import PayloadFlow.Proofs.Comments.Constructs
import PayloadFlow.Proofs.Comments.Walks
import PayloadFlow.Proofs.Comments.Producer
import PayloadFlow.Proofs.Comments.Routine
import PayloadFlow.Proofs.Comments.Shape
import PayloadFlow.Proofs.Comments.Collector
import PayloadFlow.Proofs.Comments.Handler
import PayloadFlow.Proofs.Comments.Transformation
import PayloadFlow.Proofs.Comments.Contracts
import PayloadFlow.Proofs.ReportConsistency
import PayloadFlow.Proofs.FailingFile
import PayloadFlow.Proofs.Spelling
import PayloadFlow.Proofs.EventOverlap
import PayloadFlow.Proofs.MatchedPairs
import PayloadFlow.Proofs.GuardCoverage
import PayloadFlow.Proofs.Preparation.FallThrough
import PayloadFlow.Proofs.TestPolarity
import PayloadFlow.Proofs.Preparation.Switch
import PayloadFlow.Proofs.LocalScope
import PayloadFlow.Proofs.DeepestPaths
import PayloadFlow.Proofs.NestedPaths
import PayloadFlow.Proofs.Classification
import PayloadFlow.Proofs.PathRoots
import PayloadFlow.Proofs.Conservation
import PayloadFlow.Proofs.LastWrite
import PayloadFlow.Proofs.Preparation.Table
import PayloadFlow.Proofs.NormalForm
import PayloadFlow.Proofs.EventCoverage
import PayloadFlow.Proofs.MovedLines
import PayloadFlow.Proofs.Expression.Balanced
import PayloadFlow.Proofs.Expression.Choices
import PayloadFlow.Proofs.Expression.Names
import PayloadFlow.Proofs.Expression.Chains
import PayloadFlow.Proofs.Expression.Literals
import PayloadFlow.Proofs.Expression.Substitutions
import PayloadFlow.Proofs.ConfigOverlay
import PayloadFlow.Proofs.RawText
import PayloadFlow.Proofs.FilePlaces
import PayloadFlow.Proofs.SourceScan
import PayloadFlow.Proofs.DiscoveredRoles
import PayloadFlow.Proofs.SessionTree
import PayloadFlow.Proofs.MarkedAccesses
import PayloadFlow.Proofs.Shadowing
import PayloadFlow.Proofs.Preorder
