import Metronome.Config.Basic
import Metronome.Job.Entry
import Metronome.Simulation.Clock
import Metronome.Simulation.Runs
import Metronome.Simulation.Tasks
import Metronome.Time.Timestamp
import Metronome.Timer.Default
import Metronome.Timer.Metrics
import Metronome.Proofs.Config.Width
import Metronome.Proofs.Failure.Accounts
import Metronome.Proofs.Failure.Histories
import Metronome.Proofs.Failure.Identity
import Metronome.Proofs.Failure.Recency
import Metronome.Proofs.Job.Calls
import Metronome.Proofs.Job.Lifecycle
import Metronome.Proofs.Job.Limit
import Metronome.Proofs.Job.Renewal
import Metronome.Proofs.Job.Traffic
import Metronome.Proofs.Pool.Admission
import Metronome.Proofs.Queue.Operations
import Metronome.Proofs.Runner.Closed
import Metronome.Proofs.Runner.Deeds
import Metronome.Proofs.Runner.Dispatch
import Metronome.Proofs.Runner.Fairness
import Metronome.Proofs.Runner.Leftover
import Metronome.Proofs.Runner.Refusal
import Metronome.Proofs.Runner.Rounds
import Metronome.Proofs.Runner.Singleton
import Metronome.Proofs.Runner.Updates
import Metronome.Proofs.Runner.Wakeup
import Metronome.Proofs.Schedule.Again
import Metronome.Proofs.Schedule.Fields
import Metronome.Proofs.Schedule.Forward
import Metronome.Proofs.Schedule.Period
import Metronome.Proofs.Schedule.Probe
import Metronome.Proofs.Schedule.Steady
import Metronome.Proofs.Schedule.Union
import Metronome.Proofs.Time.Duration
import Metronome.Proofs.Timer.Adding
import Metronome.Proofs.Timer.Backlog
import Metronome.Proofs.Timer.Reaping
import Metronome.Proofs.Timer.Shortcut
import Metronome.Proofs.Timer.Stopped
import Metronome.Proofs.Timer.Sweeps
import Metronome.Proofs.Timer.Turns
import Metronome.Proofs.Timer.Works
