import PrimeListing.Command.Argument
import PrimeListing.Command.Scan
import PrimeListing.Command.Transcript
import PrimeListing.Command.Usage
import PrimeListing.Count.Basic
import PrimeListing.Count.Layout
import PrimeListing.Count.Reading
import PrimeListing.Listing
import PrimeListing.Main
import PrimeListing.Numeral
import PrimeListing.PrimeStream.Action
import PrimeListing.PrimeStream.Basic
import PrimeListing.PrimeStream.Pool
import PrimeListing.Proofs.Account
import PrimeListing.Proofs.Arguments
import PrimeListing.Proofs.Batching
import PrimeListing.Proofs.BoundedTaking
import PrimeListing.Proofs.CommandLanguage
import PrimeListing.Proofs.Consumption
import PrimeListing.Proofs.Counters
import PrimeListing.Proofs.FinalProblem
import PrimeListing.Proofs.FirstAbove
import PrimeListing.Proofs.FlagInsertion
import PrimeListing.Proofs.Independence
import PrimeListing.Proofs.LabelledLayout
import PrimeListing.Proofs.LastDivisor
import PrimeListing.Proofs.LegibleLayout
import PrimeListing.Proofs.Lineage
import PrimeListing.Proofs.Listing
import PrimeListing.Proofs.MessageLine
import PrimeListing.Proofs.Numeral
import PrimeListing.Proofs.Omission
import PrimeListing.Proofs.PrimeSequence
import PrimeListing.Proofs.PrimesBetween
import PrimeListing.Proofs.Quotation
import PrimeListing.Proofs.Reading
import PrimeListing.Proofs.RefusedCount
import PrimeListing.Proofs.Search
import PrimeListing.Proofs.SignedCount
import PrimeListing.Proofs.SingleValue
import PrimeListing.Proofs.TestedCandidates
import PrimeListing.Proofs.TrialDivision
import PrimeListing.Text.Blank
import PrimeListing.Text.CodePoints
import PrimeListing.Text.Extender
import PrimeListing.Text.Labelled
import PrimeListing.Text.Printable
import PrimeListing.Text.Quoted
import PrimeListing.Text.Similarity
import PrimeListing.Text.Visible
import PrimeListing.TrialDivision
