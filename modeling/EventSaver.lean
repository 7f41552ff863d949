import EventSaver.Library.Program
import EventSaver.Library.Json
import EventSaver.Library.Table
import EventSaver.Domain.Event
import EventSaver.Domain.Extractors
import EventSaver.Storage.Tables
import EventSaver.Storage.Statements
import EventSaver.Projections
import EventSaver.Ingest
import EventSaver.Consumer
import EventSaver.UserIdBackfill
import EventSaver.IngestPlan
import EventSaver.ProjectionWrites
import EventSaver.WellFormed
import EventSaver.Ledger
import EventSaver.Refinement
import EventSaver.SameContent
import EventSaver.ExactlyOnce
import EventSaver.Independence
import EventSaver.ProjectionRows
import EventSaver.Envelope
import EventSaver.BackfillPaths
import EventSaver.BookingRecord
import EventSaver.ArrivalOrder
import EventSaver.OrganizerColumn
import EventSaver.Library.Pool
import EventSaver.StatementOrder
import EventSaver.ReadCommitted
import EventSaver.Duplicates
import EventSaver.RowState
import EventSaver.Serializability
import EventSaver.ConcurrentBackfills
import EventSaver.Library.Timeline
import EventSaver.Processing
import EventSaver.OrganizerHistory
import EventSaver.SeenTimes
import EventSaver.Counters
import EventSaver.MalformedPayloads
import EventSaver.EmailJobs
import EventSaver.EmailStatus
import EventSaver.EmailSent
import EventSaver.ChatReads
import EventSaver.MeetingLinks
import EventSaver.LinkAddressees
import EventSaver.Library.LastValue
import EventSaver.Participants
import EventSaver.ChatAuthors
import EventSaver.VideoPayloads
import EventSaver.Library.HexInt
import EventSaver.Telemetry
import EventSaver.Settlements
import EventSaver.LifecycleStory
import EventSaver.Library.Runs
import EventSaver.BackfillLoop
import EventSaver.BackfillCycle
import EventSaver.UsersClient
import EventSaver.Library.Waiting
import EventSaver.Deadlocks
import EventSaver.Library.Descent
import EventSaver.BackfillRunner
import EventSaver.BackfillLimit
import EventSaver.Library.Errors
import EventSaver.FatalErrors
import EventSaver.Library.Transitions
import EventSaver.MessageFlow
import EventSaver.Library.Growth
import EventSaver.History
import EventSaver.Replay
import EventSaver.Provenance
import EventSaver.Library.Simulation
import EventSaver.BackfillFrame
import EventSaver.Library.JsonText
import EventSaver.PayloadHash
import EventSaver.Library.HexFormat
import EventSaver.LogContext
