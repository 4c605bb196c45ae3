import FluxFront.Command
import FluxFront.Main
import FluxFront.Query
import FluxFront.Proofs.Identity
import FluxFront.Proofs.Spans
import FluxFront.Proofs.Probes
import FluxFront.Proofs.Progress
import FluxFront.Proofs.CleanRuns
import FluxFront.Proofs.LiteralWords
import FluxFront.Proofs.CastAhead
import FluxFront.Proofs.ExprReading
import FluxFront.Proofs.ExprRoundTrip
import FluxFront.Proofs.Halves
import FluxFront.Proofs.TypeReading
import FluxFront.Proofs.DeclRoundTrip
import FluxFront.Proofs.Depth
import FluxFront.Proofs.Structural
import FluxFront.Proofs.Layout
import FluxFront.Proofs.Positions
import FluxFront.Proofs.Margins
import FluxFront.Proofs.BraceAhead
import FluxFront.Proofs.ExprLossless
import FluxFront.Proofs.Skimming
import FluxFront.Proofs.StrengthProductions
import FluxFront.Proofs.Limits
import FluxFront.Proofs.NestingBound
import FluxFront.Proofs.BracketMatching
import FluxFront.Proofs.MissingSemicolons
import FluxFront.Proofs.ErrorOrder
import FluxFront.Proofs.LongestMatch
import FluxFront.Proofs.JoinedTokens
import FluxFront.Proofs.ConsecutiveTexts
import FluxFront.Proofs.WellFormedness
import FluxFront.Proofs.Traversals
import FluxFront.Proofs.DeclaredNames
import FluxFront.Proofs.Collecting
import FluxFront.Proofs.Carets
import FluxFront.Proofs.Integers
import FluxFront.Proofs.Decoding
import FluxFront.Proofs.PrintedLeaves
