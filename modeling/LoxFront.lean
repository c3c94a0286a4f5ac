import LoxFront.Main
import LoxFront.Place.Listing
import LoxFront.Proofs.Runs
import LoxFront.Proofs.Trivia
import LoxFront.Proofs.Lexemes
import LoxFront.Proofs.Pieces
import LoxFront.Proofs.Coverage
import LoxFront.Proofs.LongestMatch
import LoxFront.Proofs.Recognition
import LoxFront.Proofs.Rounding
import LoxFront.Proofs.Numerals
import LoxFront.Proofs.SourceForm
import LoxFront.Proofs.RoundTrip
import LoxFront.Proofs.EndMarks
import LoxFront.Proofs.Failures
import LoxFront.Proofs.Sentences
import LoxFront.Proofs.Survival
import LoxFront.Proofs.HeightLimit
import LoxFront.Proofs.Relocation
import LoxFront.Proofs.Layout
import LoxFront.Proofs.Findings
import LoxFront.Proofs.Canonical
import LoxFront.Proofs.Emission
import LoxFront.Proofs.Sessions
import LoxFront.Proofs.Checked.Scanning
import LoxFront.Proofs.Checked.Rules
import LoxFront.Proofs.Checked.Inputs
import LoxFront.Proofs.Lines
import LoxFront.Proofs.Rescanning
import LoxFront.Proofs.Fusion
import LoxFront.Proofs.Recovery
import LoxFront.Proofs.Walks
import LoxFront.Proofs.Spans
import LoxFront.Proofs.Identity
import LoxFront.Proofs.Nearest
import LoxFront.Proofs.NumberReading
import LoxFront.Proofs.NumberText
import LoxFront.Proofs.Intervals
import LoxFront.Proofs.SignificantDigits
import LoxFront.Proofs.Shortest
import LoxFront.Proofs.Equality
import LoxFront.Proofs.PrefixForm
import LoxFront.Proofs.Sentinel
import LoxFront.Proofs.Openers
import LoxFront.Proofs.Checked.Calls
import LoxFront.Proofs.Checked.Accounts
import LoxFront.Proofs.Bookkeeping
