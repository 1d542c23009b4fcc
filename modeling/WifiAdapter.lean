import WifiAdapter.Address.Text
import WifiAdapter.ScriptedChip
import WifiAdapter.Session.Action
import WifiAdapter.Proofs.Receiving
import WifiAdapter.Proofs.Generations
import WifiAdapter.Proofs.Journal
import WifiAdapter.Proofs.Move
import WifiAdapter.Proofs.Effects
import WifiAdapter.Proofs.Steady
import WifiAdapter.Proofs.Polling
import WifiAdapter.Proofs.Operations
import WifiAdapter.Proofs.Runs
import WifiAdapter.Proofs.Apart
import WifiAdapter.Proofs.Ledger
import WifiAdapter.Proofs.Resumption
import WifiAdapter.Proofs.Hearing
import WifiAdapter.Proofs.Elsewhere
import WifiAdapter.Proofs.Waiting
import WifiAdapter.Proofs.Patience
import WifiAdapter.Proofs.Resting
import WifiAdapter.Proofs.Reconnecting
import WifiAdapter.Proofs.Joining
import WifiAdapter.Proofs.Leases
import WifiAdapter.Proofs.Courses
import WifiAdapter.Proofs.Lineage
import WifiAdapter.Proofs.Telling
import WifiAdapter.Proofs.Occupancy
import WifiAdapter.Proofs.Reopening
import WifiAdapter.Proofs.Recurrence
import WifiAdapter.Proofs.Success
import WifiAdapter.Proofs.Streams
import WifiAdapter.Proofs.Intake
import WifiAdapter.Proofs.Asking
import WifiAdapter.Proofs.LateAnswers
import WifiAdapter.Proofs.FlowControl
import WifiAdapter.Proofs.Custody
import WifiAdapter.Proofs.Exclusion
import WifiAdapter.Proofs.Waking
import WifiAdapter.Proofs.RadioSessions
import WifiAdapter.Proofs.Retrying
import WifiAdapter.Proofs.Visits
import WifiAdapter.Proofs.Backoff
import WifiAdapter.Proofs.Entering
import WifiAdapter.Proofs.LinkEvents
import WifiAdapter.Proofs.Records
import WifiAdapter.Proofs.Regular
import WifiAdapter.Proofs.OpenSockets
import WifiAdapter.Proofs.EndOfStream
import WifiAdapter.Proofs.Rotation
import WifiAdapter.Proofs.Backdrop
import WifiAdapter.Proofs.Working
import WifiAdapter.Proofs.Yielding
import WifiAdapter.Proofs.Serving
import WifiAdapter.Proofs.Tallies
import WifiAdapter.Proofs.Announcing
import WifiAdapter.Proofs.Draining
import WifiAdapter.Proofs.Neighbours
import WifiAdapter.Proofs.Separation
import WifiAdapter.Proofs.Phases
import WifiAdapter.Proofs.Restoring
import WifiAdapter.Proofs.Accepting
import WifiAdapter.Proofs.Expiring
import WifiAdapter.Proofs.Fetching
import WifiAdapter.Proofs.Starving
import WifiAdapter.Proofs.Sweeping
import WifiAdapter.Proofs.Datagrams
import WifiAdapter.Proofs.LateResults
import WifiAdapter.Proofs.Chains
import WifiAdapter.Proofs.Segmenting
import WifiAdapter.Proofs.Unseen
import WifiAdapter.Proofs.Strays
import WifiAdapter.Proofs.Refusals
import WifiAdapter.Proofs.Accounts
import WifiAdapter.Proofs.Peers
import WifiAdapter.Proofs.Senders
import WifiAdapter.Proofs.Abandoned
