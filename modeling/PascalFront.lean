import PascalFront.Main
import PascalFront.Proofs.Steps
import PascalFront.Proofs.Progress
import PascalFront.Proofs.Sessions
import PascalFront.Proofs.TreeShape
import PascalFront.Proofs.WholeTrees
import PascalFront.Proofs.CleanRuns
import PascalFront.Proofs.Derivations
import PascalFront.Proofs.GrammarExact
import PascalFront.Proofs.Meaning
import PascalFront.Proofs.MeaningKept
import PascalFront.Proofs.Loops
import PascalFront.Proofs.Forms
import PascalFront.Proofs.Lockstep
import PascalFront.Proofs.ViablePrefixes
import PascalFront.Proofs.ViableStatements
import PascalFront.Proofs.FirstFault
import PascalFront.Proofs.Drafts
import PascalFront.Proofs.DraftRuns
import PascalFront.Proofs.Repair
import PascalFront.Proofs.SpareTokens
import PascalFront.Proofs.Identifiers
import PascalFront.Proofs.CrossReference
import PascalFront.Proofs.Uses
import PascalFront.Proofs.Twins
import PascalFront.Proofs.Tallies
import PascalFront.Proofs.ErrorLimit
import PascalFront.Proofs.Lexemes
import PascalFront.Proofs.Kinds
import PascalFront.Proofs.Texts
import PascalFront.Proofs.Tiling
import PascalFront.Proofs.Locality
import PascalFront.Proofs.LineBreaks
import PascalFront.Proofs.Failures
import PascalFront.Proofs.ErrorCounts
import PascalFront.Proofs.NestedStatements
import PascalFront.Proofs.SourceOrder
import PascalFront.Proofs.HiddenVariables
import PascalFront.Proofs.Temporaries
import PascalFront.Proofs.SharedTable
import PascalFront.Proofs.Labels
import PascalFront.Proofs.LetterCase
import PascalFront.Proofs.Locations
import PascalFront.Proofs.Recasing
import PascalFront.Proofs.WrittenExpressions
import PascalFront.Proofs.RealText
import PascalFront.Proofs.JsonReadBack
import PascalFront.Proofs.JsonTrees
import PascalFront.Proofs.Markup
import PascalFront.Proofs.ListingTrees
import PascalFront.Proofs.Comments
import PascalFront.Proofs.QuotedStrings
import PascalFront.Proofs.NumberLiterals
import PascalFront.Proofs.Operands
import PascalFront.Proofs.Templates
import PascalFront.Proofs.SideRuns
import PascalFront.Proofs.ListPlaces
import PascalFront.Proofs.Detours
import PascalFront.Proofs.StrayTokens
import PascalFront.Proofs.KindSets
import PascalFront.Proofs.Walks
