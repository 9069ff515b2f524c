import SqlExpr.Clause.Case
import SqlExpr.Clause.Join
import SqlExpr.Clause.SortTerm
import SqlExpr.Expr.Scalar
import SqlExpr.Main
import SqlExpr.Predicate.Guarded
import SqlExpr.Predicate.Lemmas
import SqlExpr.Proofs.Assembly
import SqlExpr.Proofs.Built
import SqlExpr.Proofs.Candidates
import SqlExpr.Proofs.Children
import SqlExpr.Proofs.Closure
import SqlExpr.Proofs.CompoundKeys
import SqlExpr.Proofs.Concatenation
import SqlExpr.Proofs.Construction
import SqlExpr.Proofs.DeMorgan
import SqlExpr.Proofs.DoubleNegation
import SqlExpr.Proofs.Equality
import SqlExpr.Proofs.Evaluation
import SqlExpr.Proofs.Flattening
import SqlExpr.Proofs.Frontier
import SqlExpr.Proofs.Grouping
import SqlExpr.Proofs.Insertion
import SqlExpr.Proofs.Inversion
import SqlExpr.Proofs.InversionEquations
import SqlExpr.Proofs.Involution
import SqlExpr.Proofs.Joining
import SqlExpr.Proofs.JsonForms
import SqlExpr.Proofs.JsonOperands
import SqlExpr.Proofs.JsonRecovery
import SqlExpr.Proofs.Kleene
import SqlExpr.Proofs.LeafPaths
import SqlExpr.Proofs.Lexemes
import SqlExpr.Proofs.Literals
import SqlExpr.Proofs.Marks
import SqlExpr.Proofs.MergedCase
import SqlExpr.Proofs.Negation
import SqlExpr.Proofs.Nesting
import SqlExpr.Proofs.NormalForm
import SqlExpr.Proofs.OperatorKeys
import SqlExpr.Proofs.Outcome
import SqlExpr.Proofs.PatternNodes
import SqlExpr.Proofs.PlainText
import SqlExpr.Proofs.References
import SqlExpr.Proofs.RegexOperands
import SqlExpr.Proofs.Sameness
import SqlExpr.Proofs.ScalarOperands
import SqlExpr.Proofs.Shorthand
import SqlExpr.Proofs.SpecifierLists
import SqlExpr.Proofs.Spelling
import SqlExpr.Proofs.Substitution
import SqlExpr.Proofs.Synthesis
import SqlExpr.Proofs.SynthesisInvariant
import SqlExpr.Proofs.Throughout
import SqlExpr.Proofs.TreeRoundTrip
import SqlExpr.Proofs.Unambiguity
import SqlExpr.Proofs.UserText
import SqlExpr.Proofs.Writability
import SqlExpr.Proofs.WritingEquations
import SqlExpr.Render.DialectText
import SqlExpr.Tree.Decode
