import Steward.Py.Directory
import Steward.Snapshot.Totality
import Steward.Snapshot.Termination
import Steward.Snapshot.AcceptV2
import Steward.Sqlite.Integral
import Steward.Analysis.SnapshotDiff
import Steward.Projection.Hierarchy
import Steward.Documents.EvidencePages
import Steward.Snapshot.Pages
import Steward.Snapshot.PayloadBounds
import Steward.Snapshot.PayloadProbe
import Steward.Snapshot.Persist
import Steward.Snapshot.ScanLaw
import Steward.Analysis.StructureOrder
import Steward.Py.Collections
import Steward.Py.Path
import Steward.Snapshot.Create
import Steward.Snapshot.Paths
import Steward.Snapshot.ReuseSelection
import Steward.Storage.Integrity
import Steward.Analysis.DuplicateOrder
import Steward.Analysis.DuplicateStorage
import Steward.Mcp.ExactIntegers
import Steward.Native.Adapter
import Steward.Native.Deadlines
import Steward.Native.DocumentCollection
import Steward.Native.EvidenceBatches
import Steward.Replay.Accepted
import Steward.Replay.Agreement
import Steward.Replay.Complete
import Steward.Routing.Answers
import Steward.Runs.Chain
import Steward.Runs.Faults
import Steward.Storage.Assessment
import Steward.Workspace.StatusDecoding
import Steward.Workspace.Turns
import Steward.Workspace.Receipt
import Steward.Workspace.Postflight
import Steward.Agent.Authority
import Steward.Agent.OpenAi
import Steward.Context.DirectoryNodes
import Steward.Context.Construction
import Steward.Context.ForbiddenClaims
import Steward.Session.EntryLookup
import Steward.Media.VideoWindows
import Steward.Media.AudioWindows
import Steward.Documents.Escalation
import Steward.Documents.Presentation
import Steward.Documents.ParseCache
import Steward.Documents.DocxProjection
import Steward.Documents.QueryMapLocations
import Steward.Media.Diarization
import Steward.Media.Alignment
import Steward.Media.TextTracks
import Steward.Media.AudioGraphSentences
import Steward.Media.VideoScenes
import Steward.Agent.BoundedContent
import Steward.Mcp.CallSlots
import Steward.Agent.TemporalEvidence
