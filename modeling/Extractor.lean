import Extractor.Lib.System
import Extractor.Lib.Locking
import Extractor.Lib.Rows
import Extractor.Lib.Fallible
import Extractor.Lib.Program
import Extractor.Lib.Text
import Extractor.Contracts
import Extractor.OutboxRelay
import Extractor.OutboxLifecycle
import Extractor.UrlRouting
import Extractor.Config
import Extractor.SafeFetch
import Extractor.FetchSafety
import Extractor.DocumentIr
import Extractor.Schema
import Extractor.Capture
import Extractor.Completion
import Extractor.LedgerSteps
import Extractor.Ledger
import Extractor.RunLedger
import Extractor.Claiming
import Extractor.LateCompletions
import Extractor.Deliverable
import Extractor.RenderReplies
import Extractor.Providers
import Extractor.Pipeline
import Extractor.ProviderGate
import Extractor.BrowserWorker
import Extractor.Containment
import Extractor.Acceptance
import Extractor.NetworkWork
import Extractor.RenderAllowlist
import Extractor.RenderBudgets
import Extractor.Lease
import Extractor.OutboxHealth
import Extractor.Html
import Extractor.Pdf
import Extractor.TimedText
import Extractor.TrackFormats
import Extractor.UrlCanonical
import Extractor.ContentTexts
import Extractor.DocumentIdentity
import Extractor.Admission
import Extractor.Pacing
import Extractor.FetchRows
import Extractor.ResolutionTrail
import Extractor.Intake
import Extractor.IntakeSchema
import Extractor.IntakeRoundTrip
import Extractor.Lib.Files
import Extractor.BlobStore
import Extractor.MediaArchives
import Extractor.MediaPurge
import Extractor.ShutdownDrain
import Extractor.TerminalCalls
import Extractor.InFlight
import Extractor.StoreCall
import Extractor.ResponseBody
import Extractor.BodyCuttings
import Extractor.MediaCopy
import Extractor.DigestPaths
import Extractor.FetchBounds
import Extractor.Lib.Incidence
import Extractor.TextNodes
import Extractor.Lib.Forest
import Extractor.ProviderComments
import Extractor.QualityScores
import Extractor.TranscriptGroups
import Extractor.CaptionTracks
import Extractor.Lib.JsonText
import Extractor.PlayerResponse
import Extractor.Lib.Xml
import Extractor.TrackAttributes
import Extractor.Lib.XmlElements
import Extractor.TrackContent
import Extractor.TrackElements
import Extractor.AddressEmbeddings
import Extractor.AllowlistCase
import Extractor.Entities
import Extractor.LiteralHosts
import Extractor.Shadow
import Extractor.VideoIdentity
import Extractor.NumericHosts
import Extractor.RunCounter
import Extractor.Lib.Streams
import Extractor.EventStream
import Extractor.CaptureConsumer
import Extractor.BrowserExecutor
import Extractor.ServiceProcess
import Extractor.Lib.Arena
import Extractor.DomSink
import Extractor.Lib.Queue
import Extractor.Overtaking
import Extractor.RenderTrip
import Extractor.Deployment
