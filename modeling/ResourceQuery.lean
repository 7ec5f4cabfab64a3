import ResourceQuery.CommandLine
import ResourceQuery.Descent
import ResourceQuery.Main
import ResourceQuery.Token.Lexer
import ResourceQuery.Token.Scanner
import ResourceQuery.Workspace
import ResourceQuery.Proofs.LexemeSpelling
import ResourceQuery.Proofs.StreamTiling
import ResourceQuery.Proofs.ScannerPhases
import ResourceQuery.Proofs.ScannerTiling
import ResourceQuery.Proofs.DraftRuns
import ResourceQuery.Proofs.Grammar
import ResourceQuery.Proofs.GrammarExactness
import ResourceQuery.Proofs.CanonicalRoundTrip
import ResourceQuery.Proofs.DiagnosticFidelity
import ResourceQuery.Proofs.LookAhead
import ResourceQuery.Proofs.Refusals
import ResourceQuery.Proofs.FaultLocality
import ResourceQuery.Proofs.PlaceIndependence
import ResourceQuery.Proofs.ViablePrefix
import ResourceQuery.Proofs.BlankInsensitivity
import ResourceQuery.Proofs.CanonicalTokens
import ResourceQuery.Proofs.NodePlaces
import ResourceQuery.Proofs.TokenForms
import ResourceQuery.Proofs.GrammarFaults
import ResourceQuery.Proofs.Ownership
import ResourceQuery.Proofs.IntegerSpellings
import ResourceQuery.Proofs.DecimalTexts
import ResourceQuery.Proofs.NearestDouble
import ResourceQuery.Proofs.ExactForms
import ResourceQuery.Proofs.StringDecoding
import ResourceQuery.Proofs.StringSpellings
import ResourceQuery.Proofs.HandBuilt
import ResourceQuery.Proofs.JsonText
import ResourceQuery.Proofs.JsonFaithfulness
import ResourceQuery.Proofs.HalfwayRounding
import ResourceQuery.Proofs.IntegerOverflow
import ResourceQuery.Proofs.PlusSign
import ResourceQuery.Proofs.FormConsistency
import ResourceQuery.Proofs.StringEnds
import ResourceQuery.Proofs.NestingLimit
import ResourceQuery.Proofs.Copies
import ResourceQuery.Proofs.Emptiness
import ResourceQuery.Proofs.LocationResolution
import ResourceQuery.Proofs.NodeContexts
import ResourceQuery.Proofs.CallOrder
import ResourceQuery.Proofs.ParenBalance
import ResourceQuery.Proofs.ManualGrammar
import ResourceQuery.Proofs.IdentifierNames
import ResourceQuery.Proofs.TokenListing
import ResourceQuery.Proofs.Relocation
import ResourceQuery.Proofs.Composition
import ResourceQuery.Proofs.Concatenation
import ResourceQuery.Proofs.Invocations
import ResourceQuery.Proofs.PushbackBuffer
import ResourceQuery.Proofs.SolidTokens
import ResourceQuery.Proofs.PushbackDiscipline
