import LoanLedger.Audit.Chain
import LoanLedger.Audit.Tag
import LoanLedger.Binary64.Basic
import LoanLedger.Binary64.Shortest
import LoanLedger.Binary64.Text
import LoanLedger.Calendar.Date
import LoanLedger.Calendar.Error
import LoanLedger.Calendar.Iso
import LoanLedger.Calendar.IsoReader
import LoanLedger.Clock
import LoanLedger.Engine.Basic
import LoanLedger.Engine.Handle
import LoanLedger.Engine.Machine
import LoanLedger.Engine.Run
import LoanLedger.Engine.Startup
import LoanLedger.Event.Reader
import LoanLedger.Event.Record
import LoanLedger.Json.Reader
import LoanLedger.Ledger.Database
import LoanLedger.Ledger.Tampering
import LoanLedger.Locks.Holders
import LoanLedger.Log.Pattern
import LoanLedger.Numeral.Basic
import LoanLedger.Proofs.Acting
import LoanLedger.Proofs.Answered
import LoanLedger.Proofs.Apart
import LoanLedger.Proofs.AppendOnly
import LoanLedger.Proofs.Appending
import LoanLedger.Proofs.Atomic
import LoanLedger.Proofs.Bindings
import LoanLedger.Proofs.Blind
import LoanLedger.Proofs.Books
import LoanLedger.Proofs.Calls
import LoanLedger.Proofs.Cancelled
import LoanLedger.Proofs.Canonical
import LoanLedger.Proofs.Chain
import LoanLedger.Proofs.Collisions
import LoanLedger.Proofs.Compared
import LoanLedger.Proofs.Confined
import LoanLedger.Proofs.Contents
import LoanLedger.Proofs.Deeds
import LoanLedger.Proofs.Documents
import LoanLedger.Proofs.Duplicates
import LoanLedger.Proofs.Encodings
import LoanLedger.Proofs.Evidence
import LoanLedger.Proofs.Explained
import LoanLedger.Proofs.Faithful
import LoanLedger.Proofs.Filed
import LoanLedger.Proofs.Following
import LoanLedger.Proofs.Gate
import LoanLedger.Proofs.Heedless
import LoanLedger.Proofs.Holders
import LoanLedger.Proofs.Identity
import LoanLedger.Proofs.JsonText
import LoanLedger.Proofs.Judged
import LoanLedger.Proofs.Lines
import LoanLedger.Proofs.Loading
import LoanLedger.Proofs.LostLookup
import LoanLedger.Proofs.Mirrored
import LoanLedger.Proofs.Missing
import LoanLedger.Proofs.Once
import LoanLedger.Proofs.Outages.Operations
import LoanLedger.Proofs.Outcomes
import LoanLedger.Proofs.Payments
import LoanLedger.Proofs.Races
import LoanLedger.Proofs.Reachability
import LoanLedger.Proofs.Rejected
import LoanLedger.Proofs.Reordered
import LoanLedger.Proofs.Resent
import LoanLedger.Proofs.Rising
import LoanLedger.Proofs.Rows
import LoanLedger.Proofs.Scope
import LoanLedger.Proofs.Sequencing
import LoanLedger.Proofs.Setups
import LoanLedger.Proofs.Shadowed
import LoanLedger.Proofs.Sharing
import LoanLedger.Proofs.Spelling
import LoanLedger.Proofs.Spent
import LoanLedger.Proofs.States
import LoanLedger.Proofs.Steady
import LoanLedger.Proofs.Tame.Events
import LoanLedger.Proofs.Tame.Leaks
import LoanLedger.Proofs.Tampered
import LoanLedger.Proofs.Timeouts
import LoanLedger.Proofs.Traceless
import LoanLedger.Proofs.Untimely
import LoanLedger.Proofs.Usable
import LoanLedger.Proofs.Versions
import LoanLedger.Settings
import LoanLedger.Text.Quoted
import LoanLedger.Text.Upper
