import Stoa.Properties.AppendInterleaving
import Stoa.Properties.Backends
import Stoa.Properties.Blacklist
import Stoa.Properties.CacheTransparency
import Stoa.Properties.CalendarDates
import Stoa.Properties.DidSignature
import Stoa.Properties.EmailChanges
import Stoa.Properties.Encoding
import Stoa.Properties.EntryIntegrity
import Stoa.Properties.GcLock
import Stoa.Properties.HybridClock
import Stoa.Properties.ImapNames
import Stoa.Properties.ImapTags
import Stoa.Properties.ImapUpgrade
import Stoa.Properties.InboxAuthority
import Stoa.Properties.Ingestion
import Stoa.Properties.LocalEntries
import Stoa.Properties.MboxImport
import Stoa.Properties.MtaSts
import Stoa.Properties.NoteIdentity
import Stoa.Properties.Oidc
import Stoa.Properties.PeeringAuth
import Stoa.Properties.PeeringStream
import Stoa.Properties.PipelineRetry
import Stoa.Properties.PostRace
import Stoa.Properties.QueuedId
import Stoa.Properties.ReaderGate
import Stoa.Properties.ReconcileCompleteness
import Stoa.Properties.Reindex
import Stoa.Properties.RelayChoice
import Stoa.Properties.RelayQueue
import Stoa.Properties.RemotePins
import Stoa.Properties.Retention
import Stoa.Properties.SieveCoherence
import Stoa.Properties.SmtpDelivery
import Stoa.Properties.SmtpEmail
import Stoa.Properties.SmtpEnvelope
import Stoa.Properties.SmtpQueue
import Stoa.Properties.StagingRecovery
import Stoa.Properties.Sync
import Stoa.Properties.TipFrontier
import Stoa.Properties.Wildmat
