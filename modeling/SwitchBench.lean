import SwitchBench.Main
import SwitchBench.Proofs.Capture.CaptureResults
import SwitchBench.Proofs.Capture.Elapse
import SwitchBench.Proofs.Capture.OneCapture
import SwitchBench.Proofs.Drive.Leg
import SwitchBench.Proofs.Drive.MoveResults
import SwitchBench.Proofs.Drive.Plunger
import SwitchBench.Proofs.Sampling.Aborts
import SwitchBench.Proofs.Sampling.Acquire
import SwitchBench.Proofs.Sampling.Stranded
import SwitchBench.Session.HandBench
import SwitchBench.Session.Rehearsal
import SwitchBench.Sync.Board
import SwitchBench.Sync.Cell
import SwitchBench.Proofs.Sampling.History
import SwitchBench.Proofs.Sampling.Rest
import SwitchBench.Proofs.Sampling.FirstStep
import SwitchBench.Proofs.Sync.Pollers
import SwitchBench.Proofs.Sync.Wakeups
import SwitchBench.Proofs.Workbench.Definite
import SwitchBench.Proofs.Workbench.Samples
import SwitchBench.Proofs.Program.Courses
import SwitchBench.Proofs.Program.Contract
import SwitchBench.Proofs.Drive.Undisturbed
import SwitchBench.Proofs.Drive.Cadence
import SwitchBench.Proofs.Capture.Capacity
import SwitchBench.Proofs.Capture.WindowEnd
import SwitchBench.Proofs.Capture.Triggered
import SwitchBench.Proofs.Sampling.Checks
import SwitchBench.Proofs.Sampling.Announcement
import SwitchBench.Proofs.Sync.Supply
import SwitchBench.Proofs.Session.HandBench
import SwitchBench.Proofs.Capture.PackedSlots
import SwitchBench.Proofs.Capture.Servicing
import SwitchBench.Proofs.Hardware.Pacer
import SwitchBench.Proofs.Timer.Counter
import SwitchBench.Proofs.Drive.Refusals
import SwitchBench.Proofs.Drive.Closing
import SwitchBench.Proofs.Sync.Guards
import SwitchBench.Proofs.Sync.Sections
import SwitchBench.Proofs.Sync.Blocking
import SwitchBench.Proofs.Sync.Workers
import SwitchBench.Proofs.Motion.StepPeriods
