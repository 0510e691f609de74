import ScopedExpr.TwoPassProgram
import ScopedExpr.Main
import ScopedExpr.Proofs.ExpressionSpelling
import ScopedExpr.Proofs.ReadingInversion
import ScopedExpr.Proofs.GrammarSoundness
import ScopedExpr.Proofs.GrammarCompleteness
import ScopedExpr.Proofs.ExpressionRecognition
import ScopedExpr.Proofs.ReferenceResolution
import ScopedExpr.Proofs.ResolvedAccess
import ScopedExpr.Proofs.LongestLexeme
import ScopedExpr.Proofs.NumberReading
import ScopedExpr.Proofs.TwoPassRefinement
import ScopedExpr.Proofs.LexicalGrammar
import ScopedExpr.Proofs.CursorSteps
import ScopedExpr.Proofs.TextGrammar
import ScopedExpr.Proofs.SourceTiling
import ScopedExpr.Proofs.SentencePrefix
import ScopedExpr.Proofs.MaximalReading
import ScopedExpr.Proofs.FirstImpossibleToken
import ScopedExpr.Proofs.ReferenceNumbering
import ScopedExpr.Proofs.RuntimeFaultsOnly
import ScopedExpr.Proofs.PairedRuns
import ScopedExpr.Proofs.ScopeColumns
import ScopedExpr.Proofs.EvaluationFootprint
import ScopedExpr.Proofs.ItemLines
import ScopedExpr.Proofs.JoinedTexts
import ScopedExpr.Proofs.TokenLayout
import ScopedExpr.Proofs.CountedReading
import ScopedExpr.Proofs.BoundedNesting
import ScopedExpr.Proofs.BlockNesting
import ScopedExpr.Proofs.ScopeDiscipline
import ScopedExpr.Proofs.ByteLexemes
import ScopedExpr.Proofs.BytePulls
import ScopedExpr.Proofs.DistanceHistory
import ScopedExpr.Proofs.LocalReading
import ScopedExpr.Proofs.OneTokenAhead
import ScopedExpr.Proofs.DecimalRounding
import ScopedExpr.Proofs.WrittenNumbers
import ScopedExpr.Proofs.PrintedValues
import ScopedExpr.Proofs.TokenEquality
import ScopedExpr.Proofs.RedundantBrackets
import ScopedExpr.Proofs.BlamedTokens
import ScopedExpr.Proofs.DiagnosticPlaces
import ScopedExpr.Proofs.CountedTargets
import ScopedExpr.Proofs.ScopeHops
import ScopedExpr.Proofs.NameAndDistance
import ScopedExpr.Proofs.WriteIsolation
import ScopedExpr.Proofs.RoundingOrder
import ScopedExpr.Proofs.ExactNumbers
import ScopedExpr.Proofs.LooseEquality
import ScopedExpr.Proofs.ComparisonOrder
import ScopedExpr.Proofs.IntegerTrees
import ScopedExpr.Proofs.NumberLiterals
import ScopedExpr.Proofs.NearestNumber
import ScopedExpr.Proofs.DisplayedLiterals
import ScopedExpr.Proofs.LogicalChains
import ScopedExpr.Proofs.PrintedTrees
import ScopedExpr.Proofs.IndexSafety
