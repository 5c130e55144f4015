import Heartbeat.Text.Blank
import Heartbeat.Text.Decimal
import Heartbeat.Text.Lowercase
import Heartbeat.Text.Quoted
import Heartbeat.Text.Column
import Heartbeat.Duration
import Heartbeat.Target
import Heartbeat.ThreadStatus
import Heartbeat.Dispatch
import Heartbeat.LogLevel
import Heartbeat.Pattern.Matcher
import Heartbeat.Event.Processor
import Heartbeat.Budget
import Heartbeat.ExecutionState
import Heartbeat.Process.Table
import Heartbeat.Files.Tree
import Heartbeat.StepScript.Template
import Heartbeat.StepScript.Program
import Heartbeat.Script.Context
import Heartbeat.StepScript.Interpreter
import Heartbeat.Thread
import Heartbeat.Files.Library
import Heartbeat.Scheduler.Tick
import Heartbeat.Playbook
import Heartbeat.Host.Rehearsal
import Heartbeat.Toml.Document
import Heartbeat.Configuration.Basic
import Heartbeat.CommandLine.Session
import Heartbeat.Main
import Heartbeat.Proofs.Process.Roster
import Heartbeat.Proofs.Text.Lines
import Heartbeat.Proofs.Text.Lowercase
import Heartbeat.Proofs.Duration
import Heartbeat.Proofs.Configuration
import Heartbeat.Proofs.Files.Path
import Heartbeat.Proofs.Files.Library
import Heartbeat.Proofs.Pattern.Matcher
import Heartbeat.Proofs.Pattern.Captures
import Heartbeat.Proofs.Pattern.Reader
import Heartbeat.Proofs.Event.Queue
import Heartbeat.Proofs.Event.Processor
import Heartbeat.Proofs.Event.Ledger
import Heartbeat.Proofs.Event.Origin
import Heartbeat.Proofs.Thread.Life
import Heartbeat.Proofs.Thread.Talk
import Heartbeat.Proofs.Thread.Service
import Heartbeat.Proofs.Thread.Calls
import Heartbeat.Proofs.Thread.Insular
import Heartbeat.Proofs.Thread.Steady
import Heartbeat.Proofs.Thread.Walk
import Heartbeat.Proofs.StepScript.Code
import Heartbeat.Proofs.Thread.Memory
import Heartbeat.Proofs.StepScript.Program
import Heartbeat.Proofs.StepScript.Reading
import Heartbeat.Proofs.StepScript.Layout
import Heartbeat.Proofs.StepScript.Joining
import Heartbeat.Proofs.StepScript.Template
import Heartbeat.Proofs.StepScript.Execution
import Heartbeat.Proofs.Thread.Toll
import Heartbeat.Proofs.Thread.Allowance
import Heartbeat.Proofs.Thread.Waiting
import Heartbeat.Proofs.Thread.Desk
import Heartbeat.Proofs.Thread.Handout
import Heartbeat.Proofs.Scheduler.Slot
import Heartbeat.Proofs.Scheduler.Move
import Heartbeat.Proofs.Scheduler.Operation
import Heartbeat.Proofs.Scheduler.Outcome
import Heartbeat.Proofs.Scheduler.History
import Heartbeat.Proofs.Scheduler.Consistent
import Heartbeat.Proofs.Scheduler.Frame
import Heartbeat.Proofs.Scheduler.Round
import Heartbeat.Proofs.Scheduler.Readings
import Heartbeat.Proofs.Scheduler.Story
import Heartbeat.Proofs.Scheduler.Rest
import Heartbeat.Proofs.Scheduler.Waiting
import Heartbeat.Proofs.Scheduler.Entry
import Heartbeat.Proofs.Scheduler.View
import Heartbeat.Proofs.Scheduler.Delivery
import Heartbeat.Proofs.Scheduler.Registration
import Heartbeat.Proofs.Scheduler.Evolution
import Heartbeat.Proofs.Scheduler.Isolation
import Heartbeat.Proofs.Scheduler.Calm
import Heartbeat.Proofs.Scheduler.Slicing
import Heartbeat.Proofs.Scheduler.Start
import Heartbeat.Proofs.Scheduler.SinglePath
import Heartbeat.Proofs.Scheduler.Allowance
import Heartbeat.Proofs.Scheduler.Inner
import Heartbeat.Proofs.Scheduler.Census
import Heartbeat.Proofs.Scheduler.Relaunch
import Heartbeat.Proofs.Scheduler.Collection
import Heartbeat.Proofs.Scheduler.Pausing
import Heartbeat.Proofs.Scheduler.Agenda
import Heartbeat.Proofs.Scheduler.Requests
import Heartbeat.Proofs.Scheduler.Stopping
import Heartbeat.Proofs.Scheduler.Aiming
import Heartbeat.Proofs.StepScript.Counter
import Heartbeat.Proofs.Host.Loop
import Heartbeat.Proofs.Host.Shutdown
