import BundleCoverage.Browser.Recorder
import BundleCoverage.Main
import BundleCoverage.Proofs.Keyed
import BundleCoverage.Proofs.Totals
import BundleCoverage.Proofs.Records
import BundleCoverage.Proofs.Shares
import BundleCoverage.Proofs.Maps
import BundleCoverage.Proofs.Runs
import BundleCoverage.Proofs.CodeLines
import BundleCoverage.Proofs.Contributions
import BundleCoverage.Proofs.RunHits
import BundleCoverage.Proofs.Reordering
import BundleCoverage.Proofs.Growth
import BundleCoverage.Proofs.WellFormed
import BundleCoverage.Proofs.Accumulation
import BundleCoverage.Proofs.Seeding
import BundleCoverage.Proofs.Projections
import BundleCoverage.Proofs.Outcomes
import BundleCoverage.Proofs.Numbers
import BundleCoverage.Proofs.Deltas
import BundleCoverage.Proofs.RoundTrip
import BundleCoverage.Proofs.FirstSeen
import BundleCoverage.Proofs.Flattening
import BundleCoverage.Proofs.Inside
import BundleCoverage.Proofs.Escapes
import BundleCoverage.Proofs.Assets
import BundleCoverage.Proofs.Stripping
import BundleCoverage.Proofs.Spellings
import BundleCoverage.Proofs.BrokenMaps
import BundleCoverage.Proofs.Sessions
import BundleCoverage.Proofs.Bytes
import BundleCoverage.Proofs.Printing
import BundleCoverage.Proofs.Documents
import BundleCoverage.Proofs.Places
import BundleCoverage.Proofs.Changes
import BundleCoverage.Proofs.Listings
import BundleCoverage.Proofs.WriteCalls
import BundleCoverage.Proofs.Writers
import BundleCoverage.Proofs.Scenes
import BundleCoverage.Proofs.Sharing
import BundleCoverage.Proofs.Progress
import BundleCoverage.Proofs.Reports
import BundleCoverage.Proofs.Retrying
import BundleCoverage.Proofs.Cleanup
import BundleCoverage.Proofs.CanonicalMaps
import BundleCoverage.Proofs.Sweeping
import BundleCoverage.Proofs.InnermostCounts
import BundleCoverage.Proofs.PrefixSums
import BundleCoverage.Proofs.FullReports
import BundleCoverage.Proofs.Respellings
import BundleCoverage.Proofs.StoredDocuments
import BundleCoverage.Proofs.NearestMappings
import BundleCoverage.Proofs.LinePositions
import BundleCoverage.Proofs.InlineMaps
import BundleCoverage.Proofs.CacheKeys
import BundleCoverage.Proofs.Summaries
import BundleCoverage.Proofs.Recordings
import BundleCoverage.Proofs.KeptTexts
import BundleCoverage.Proofs.ProjectSeeds
import BundleCoverage.Proofs.FunctionNames
import BundleCoverage.Proofs.PartialOptions
import BundleCoverage.Proofs.BuildOutput
import BundleCoverage.Proofs.Comments
import BundleCoverage.Proofs.WordNumbers
import BundleCoverage.Proofs.ReadingOperations
import BundleCoverage.Proofs.CountIntervals
import BundleCoverage.Proofs.CodeColumns
