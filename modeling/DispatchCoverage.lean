import DispatchCoverage.Command.Directory
import DispatchCoverage.Graph.Exchange
import DispatchCoverage.Graph.Loose
import DispatchCoverage.Main
import DispatchCoverage.Signature.Region
import DispatchCoverage.Surface.Dictionary
import DispatchCoverage.Surface.Grammar
import DispatchCoverage.Value.Session
import DispatchCoverage.Proofs.Deviation
import DispatchCoverage.Proofs.StepVerdict
import DispatchCoverage.Proofs.Partition
import DispatchCoverage.Proofs.SubsetOrder
import DispatchCoverage.Proofs.Rounds
import DispatchCoverage.Proofs.Course
import DispatchCoverage.Proofs.Accounting
import DispatchCoverage.Proofs.Classification
import DispatchCoverage.Proofs.Symmetry
import DispatchCoverage.Proofs.Exactness
import DispatchCoverage.Proofs.Relabelling
import DispatchCoverage.Proofs.RoundBound
import DispatchCoverage.Proofs.RelevantParts
import DispatchCoverage.Proofs.Flattening
import DispatchCoverage.Proofs.RegionAlgebra
import DispatchCoverage.Proofs.Results
import DispatchCoverage.Proofs.Derivation
import DispatchCoverage.Proofs.Spelling
import DispatchCoverage.Proofs.TokenPlaces
import DispatchCoverage.Proofs.WrittenForm
import DispatchCoverage.Proofs.CompactForm
import DispatchCoverage.Proofs.Registrations
import DispatchCoverage.Proofs.Consumption
import DispatchCoverage.Proofs.EarliestError
import DispatchCoverage.Proofs.Grouping
import DispatchCoverage.Proofs.ReportForm
import DispatchCoverage.Proofs.Description
import DispatchCoverage.Proofs.Writing
import DispatchCoverage.Proofs.ReadBack
import DispatchCoverage.Proofs.Fragments
import DispatchCoverage.Proofs.Truncation
import DispatchCoverage.Proofs.LoopHeads
import DispatchCoverage.Proofs.CheckStatements
import DispatchCoverage.Proofs.CheckNodes
import DispatchCoverage.Proofs.NodeSharing
import DispatchCoverage.Proofs.PlainAddresses
import DispatchCoverage.Proofs.Invocation
import DispatchCoverage.Proofs.ExitStatus
import DispatchCoverage.Proofs.DeclaredText
import DispatchCoverage.Proofs.Endings
import DispatchCoverage.Proofs.MixedOperators
import DispatchCoverage.Proofs.ListCells
import DispatchCoverage.Proofs.WellFormed
import DispatchCoverage.Proofs.Positions
import DispatchCoverage.Proofs.Substitution
