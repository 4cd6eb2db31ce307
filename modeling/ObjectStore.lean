import ObjectStore.Content
import ObjectStore.Expiration
import ObjectStore.Key
import ObjectStore.Lock.Basic
import ObjectStore.Lock.Exclusive
import ObjectStore.Lock.Proposals
import ObjectStore.Lock.Token
import ObjectStore.Logging.Filter
import ObjectStore.Logging.Log
import ObjectStore.Logging.Pattern.Basic
import ObjectStore.Logging.Pattern.Reading
import ObjectStore.Markup.Cursor
import ObjectStore.Markup.Document
import ObjectStore.Markup.Layout
import ObjectStore.Markup.Node
import ObjectStore.Markup.Scalar
import ObjectStore.Markup.Token
import ObjectStore.Program
import ObjectStore.Proofs.Accounts
import ObjectStore.Proofs.Ancestry
import ObjectStore.Proofs.Attempt
import ObjectStore.Proofs.ByteListing
import ObjectStore.Proofs.Calendar
import ObjectStore.Proofs.Capacity
import ObjectStore.Proofs.Contest
import ObjectStore.Proofs.Crowd
import ObjectStore.Proofs.Damage
import ObjectStore.Proofs.Dictionary
import ObjectStore.Proofs.Discipline
import ObjectStore.Proofs.Enclosure
import ObjectStore.Proofs.Enumeration
import ObjectStore.Proofs.Exclusion
import ObjectStore.Proofs.Faults
import ObjectStore.Proofs.Frame
import ObjectStore.Proofs.Hierarchy
import ObjectStore.Proofs.Independence
import ObjectStore.Proofs.Lease
import ObjectStore.Proofs.Lifetime
import ObjectStore.Proofs.Listing
import ObjectStore.Proofs.Metering
import ObjectStore.Proofs.Nesting
import ObjectStore.Proofs.Oracle
import ObjectStore.Proofs.Payloads
import ObjectStore.Proofs.Placement
import ObjectStore.Proofs.Quiescence
import ObjectStore.Proofs.Reacquisition
import ObjectStore.Proofs.Registry
import ObjectStore.Proofs.Residue
import ObjectStore.Proofs.Sections
import ObjectStore.Proofs.Segments
import ObjectStore.Proofs.Serializability
import ObjectStore.Proofs.SingleSteps
import ObjectStore.Proofs.Spellings
import ObjectStore.Proofs.Subtrees
import ObjectStore.Proofs.TextBytes
import ObjectStore.Proofs.TimestampParts
import ObjectStore.Proofs.TimestampText
import ObjectStore.Proofs.Undisturbed
import ObjectStore.Proofs.Verdicts
import ObjectStore.Settings
import ObjectStore.Signal.Counter
import ObjectStore.Signal.Notice
import ObjectStore.Signal.Recorder
import ObjectStore.Storage.Call
import ObjectStore.Storage.Entries
import ObjectStore.Storage.Memory
import ObjectStore.StorageError
import ObjectStore.Text.Alphanumeric
import ObjectStore.Text.Decimal
import ObjectStore.Text.Numeral
import ObjectStore.Text.Pieces
import ObjectStore.Text.Space
import ObjectStore.Text.Utf8
import ObjectStore.Time.Date
import ObjectStore.Time.Instant
import ObjectStore.Time.Timestamp
import ObjectStore.Workload.Bench
import ObjectStore.Workload.Race
import ObjectStore.Workload.Session
import ObjectStore.Workload.Step
