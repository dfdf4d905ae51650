import FullText.Main
import FullText.InvertedIndex.Consistency
import FullText.Proofs.GlobLanguage
import FullText.Proofs.QueryGrammar
import FullText.Proofs.QueryText
import FullText.Proofs.BuilderRuns
import FullText.Proofs.ConfigCheck
import FullText.Proofs.ConsistencyCheck
import FullText.Proofs.EditScripts
import FullText.Proofs.EnglishTokens
import FullText.Proofs.FieldRecords
import FullText.Proofs.FoundDocuments
import FullText.Proofs.IndexContents
import FullText.Proofs.RequiredClauses
import FullText.Proofs.PatternFolding
import FullText.Proofs.SearchScan
import FullText.Proofs.BoundedArithmetic
import FullText.Proofs.ByteCodecs
import FullText.Proofs.NearestNumber
import FullText.Proofs.ShortestDecimal
import FullText.Proofs.TermWeights
import FullText.Proofs.BuiltConsistency
import FullText.Proofs.SnapshotRoundTrip
import FullText.Proofs.PipelineSignature
import FullText.Proofs.LoadedCounts
import FullText.Proofs.ClauseOrder
import FullText.Proofs.DocumentOrder
import FullText.Proofs.FieldOrder
import FullText.Proofs.BuilderHistory
import FullText.Proofs.TruncatedSnapshots
import FullText.Proofs.SnapshotConversion
import FullText.Proofs.NormalizedClauses
import FullText.Proofs.StoredFiles
import FullText.Proofs.LineFeeds
import FullText.Proofs.FinalSigma
import FullText.Proofs.FoldedWords
import FullText.Proofs.CommandFrames
import FullText.Proofs.SnapshotFiles
import FullText.Proofs.CommandAnswers
import FullText.Proofs.PrefixScan
import FullText.Proofs.TwoRows
import FullText.Proofs.EditMetric
import FullText.Proofs.BoundedProducts
import FullText.Proofs.LengthNormalization
import FullText.Proofs.MatchProvenance
import FullText.Proofs.JoinedTexts
import FullText.Proofs.GapTokens
import FullText.Proofs.PorterRules
import FullText.Proofs.EnglishVocabulary
import FullText.Proofs.DocumentFormats
import FullText.Proofs.SearchReports
import FullText.Proofs.StarPlacements
import FullText.Proofs.PatternShape
