import SearchQuery.Main
import SearchQuery.Proofs.Forms
import SearchQuery.Proofs.Scanning
import SearchQuery.Proofs.OnDemand
import SearchQuery.Proofs.Lockstep
import SearchQuery.Proofs.Simulation
import SearchQuery.Proofs.Demands
import SearchQuery.Proofs.Grammar
import SearchQuery.Proofs.Soundness
import SearchQuery.Proofs.Completeness
import SearchQuery.Proofs.Acceptance
import SearchQuery.Proofs.RoundTrip
import SearchQuery.Proofs.Shape
import SearchQuery.Proofs.Progress
import SearchQuery.Proofs.Reference
import SearchQuery.Proofs.Coupling
import SearchQuery.Proofs.Lookaheads
import SearchQuery.Proofs.Lines
import SearchQuery.Proofs.Reporting
import SearchQuery.Proofs.Continuations
import SearchQuery.Proofs.Expectations
import SearchQuery.Proofs.Locations
import SearchQuery.Proofs.Joining
import SearchQuery.Proofs.Abreast
import SearchQuery.Proofs.Closings
import SearchQuery.Proofs.DeadEnds
import SearchQuery.Proofs.SharedText
import SearchQuery.Proofs.Openings
import SearchQuery.Proofs.Nesting
import SearchQuery.Proofs.LongestMatch
import SearchQuery.Proofs.Effort
import SearchQuery.Proofs.Suffix
import SearchQuery.Proofs.Checked
import SearchQuery.Proofs.Recutting
import SearchQuery.Proofs.Unambiguous
import SearchQuery.Proofs.JsonValues
import SearchQuery.Proofs.Outlines
import SearchQuery.Proofs.QuietSteps
import SearchQuery.Proofs.CutOrder
import SearchQuery.Proofs.Notices
import SearchQuery.Proofs.Merging
import SearchQuery.Proofs.Positions
import SearchQuery.Proofs.Reachable
import SearchQuery.Proofs.Remaining
