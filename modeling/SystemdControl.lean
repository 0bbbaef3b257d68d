import SystemdControl.Job.Batch
import SystemdControl.Job.Polling
import SystemdControl.Proofs.Job.Journal
import SystemdControl.Session.Units
import SystemdControl.Proofs.Job.Table
import SystemdControl.Proofs.Job.Sound
import SystemdControl.Proofs.Job.Closing
import SystemdControl.Proofs.Job.Ownership
import SystemdControl.Proofs.Job.Dispatcher.Effects
import SystemdControl.Proofs.Job.Dispatcher.Race
import SystemdControl.Proofs.Session.Acts
import SystemdControl.Proofs.Unit.Delta
import SystemdControl.Proofs.Watch.Replay
import SystemdControl.Proofs.Job.Decided
import SystemdControl.Proofs.Job.Dispatcher.Stopping
import SystemdControl.Proofs.Job.Dispatcher.Queue
import SystemdControl.Proofs.Job.Dispatcher.Drain
import SystemdControl.Proofs.Job.Failing
import SystemdControl.Proofs.Watch.Delivery
import SystemdControl.Proofs.Watch.Cancelling
import SystemdControl.Proofs.Watch.Silence
import SystemdControl.Proofs.Session.Watching
import SystemdControl.Proofs.Job.Dispatcher.Ledger
import SystemdControl.Proofs.Job.Dispatcher.Requests
import SystemdControl.Proofs.Job.Dispatcher.Lineup
import SystemdControl.Proofs.Job.Dispatcher.Serial
import SystemdControl.Proofs.Job.Dispatcher.Turns
import SystemdControl.Proofs.Job.Dispatcher.Refusing
import SystemdControl.Proofs.Job.Dispatcher.Answers
import SystemdControl.Proofs.Job.Request
import SystemdControl.Proofs.Session.Requests
import SystemdControl.Proofs.Job.Reclaiming
import SystemdControl.Proofs.Job.Timeout
import SystemdControl.Proofs.Job.Dispatcher.Unlimited
import SystemdControl.Proofs.Job.Dispatcher.Timeout
import SystemdControl.Proofs.Job.Dispatcher.Settling
import SystemdControl.Proofs.Job.Dispatcher.Attended
import SystemdControl.Proofs.Job.Dispatcher.Steady
import SystemdControl.Proofs.Job.Dispatcher.Use
import SystemdControl.Proofs.Session.Calm
import SystemdControl.Proofs.Job.Dispatcher.Parting
import SystemdControl.Proofs.Session.Listening
import SystemdControl.Proofs.Session.Timeline
import SystemdControl.Proofs.Watch.Pacing
import SystemdControl.Proofs.Session.Pacing
import SystemdControl.Proofs.Session.WatchSide
import SystemdControl.Proofs.Session.Inert
import SystemdControl.Proofs.Session.JobSide
import SystemdControl.Proofs.Session.Separation
import SystemdControl.Proofs.Job.Dispatcher.Beside.Step
import SystemdControl.Proofs.Job.Dispatcher.Inert
import SystemdControl.Proofs.Unit.Traversal
import SystemdControl.Proofs.Unit.Name
import SystemdControl.Proofs.Session.Tended
import SystemdControl.Proofs.Watch.Calling
import SystemdControl.Proofs.Session.Refusal
import SystemdControl.Proofs.Session.Resting
import SystemdControl.Proofs.Text.PathLabel
import SystemdControl.Proofs.Unit.Churn
import SystemdControl.Proofs.Unit.Grammar
import SystemdControl.Proofs.Unit.Path
import SystemdControl.Proofs.Text.Vocabulary
import SystemdControl.Proofs.Dbus.Signal
import SystemdControl.Proofs.Unit.Row
import SystemdControl.Proofs.Dbus.Fault
import SystemdControl.Proofs.Dbus.Property
import SystemdControl.Proofs.Unit.Entries
