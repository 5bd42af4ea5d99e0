import Keystroke.Backend
import Keystroke.Capture.Callback
import Keystroke.Capture.Error
import Keystroke.Capture.Evdev
import Keystroke.Capture.EventTap
import Keystroke.Capture.InputLayer
import Keystroke.Capture.KeyboardHook
import Keystroke.Capture.Program
import Keystroke.Capture.Queue
import Keystroke.Capture.Scripted
import Keystroke.Capture.Thread
import Keystroke.CommandLine.Combo
import Keystroke.CommandLine.Options
import Keystroke.CommandLine.Run
import Keystroke.Config.File
import Keystroke.Config.Format
import Keystroke.Config.Settings
import Keystroke.Datum
import Keystroke.Delay
import Keystroke.Driver.Basic
import Keystroke.Driver.Quartz
import Keystroke.Driver.Recorder
import Keystroke.Driver.Scripted
import Keystroke.Driver.SendInput
import Keystroke.Driver.Uinput
import Keystroke.Event
import Keystroke.FileSystem.Basic
import Keystroke.FileSystem.Path
import Keystroke.Host.Basic
import Keystroke.Host.Journal
import Keystroke.Key.Basic
import Keystroke.Key.Character
import Keystroke.Key.Evdev
import Keystroke.Key.Modifier
import Keystroke.Key.Name
import Keystroke.Key.Quartz
import Keystroke.Key.VirtualKey
import Keystroke.Listener.Basic
import Keystroke.Listener.Run
import Keystroke.Main
import Keystroke.Modifier.Basic
import Keystroke.Modifier.Quartz
import Keystroke.Modifier.Tracker
import Keystroke.OsError
import Keystroke.Proofs.Capture.Delivery
import Keystroke.Proofs.Capture.Effects
import Keystroke.Proofs.Capture.Evdev
import Keystroke.Proofs.Capture.EventTap
import Keystroke.Proofs.Capture.FlagsChanged
import Keystroke.Proofs.Capture.HookSession
import Keystroke.Proofs.Capture.Hotplug
import Keystroke.Proofs.Capture.Iteration
import Keystroke.Proofs.Capture.KeyboardHook
import Keystroke.Proofs.Capture.Masks
import Keystroke.Proofs.Capture.Opening
import Keystroke.Proofs.Capture.Paths
import Keystroke.Proofs.Capture.Repetition
import Keystroke.Proofs.Capture.Runs
import Keystroke.Proofs.Capture.TapMessages
import Keystroke.Proofs.Capture.Traces
import Keystroke.Proofs.CommandLine.Calls
import Keystroke.Proofs.CommandLine.Combo
import Keystroke.Proofs.CommandLine.Listening
import Keystroke.Proofs.CommandLine.Options
import Keystroke.Proofs.Config.Partial
import Keystroke.Proofs.Config.RoundTrip
import Keystroke.Proofs.Config.Saving
import Keystroke.Proofs.Driver.DeviceLife
import Keystroke.Proofs.Driver.Logged
import Keystroke.Proofs.Driver.Loopback
import Keystroke.Proofs.Driver.Quartz
import Keystroke.Proofs.Driver.Readiness
import Keystroke.Proofs.Driver.Rehearsal
import Keystroke.Proofs.Driver.Reports
import Keystroke.Proofs.Driver.Requests
import Keystroke.Proofs.Driver.Standing
import Keystroke.Proofs.Driver.Typing
import Keystroke.Proofs.Driver.Uinput
import Keystroke.Proofs.FileSystem.Ancestors
import Keystroke.Proofs.FileSystem.Listing
import Keystroke.Proofs.FileSystem.Writing
import Keystroke.Proofs.Host.LastError
import Keystroke.Proofs.Key.Evdev
import Keystroke.Proofs.Key.Name
import Keystroke.Proofs.Key.Native
import Keystroke.Proofs.Listener.Barrier
import Keystroke.Proofs.Listener.Dealings
import Keystroke.Proofs.Listener.FailedStart
import Keystroke.Proofs.Listener.FirstSession
import Keystroke.Proofs.Listener.FirstStart
import Keystroke.Proofs.Listener.Handshake
import Keystroke.Proofs.Listener.History
import Keystroke.Proofs.Listener.Journal
import Keystroke.Proofs.Listener.Listening
import Keystroke.Proofs.Listener.Moves
import Keystroke.Proofs.Listener.Queue.Separation
import Keystroke.Proofs.Listener.Queue.Starts
import Keystroke.Proofs.Listener.Queue.Threads
import Keystroke.Proofs.Listener.Sessions
import Keystroke.Proofs.Modifier.Bits
import Keystroke.Proofs.Modifier.History
import Keystroke.Proofs.Modifier.Quartz
import Keystroke.Proofs.Modifier.Tracker
import Keystroke.Proofs.Sender.Account
import Keystroke.Proofs.Sender.Attempts
import Keystroke.Proofs.Sender.Bookkeeping
import Keystroke.Proofs.Sender.Calls
import Keystroke.Proofs.Sender.Codepoints
import Keystroke.Proofs.Sender.Loopback
import Keystroke.Proofs.Sender.Operation
import Keystroke.Proofs.Sender.Release
import Keystroke.Proofs.Text.Spelling
import Keystroke.Proofs.Text.Utf16
import Keystroke.Proofs.Toml.Document
import Keystroke.Proofs.Toml.Number
import Keystroke.Proofs.Toml.Text
import Keystroke.Sender
import Keystroke.Text.Blank
import Keystroke.Text.Case
import Keystroke.Text.Decimal
import Keystroke.Text.Graphic
import Keystroke.Text.Quoted
import Keystroke.Text.Split
import Keystroke.Text.Utf16
import Keystroke.Toml.Assembly
import Keystroke.Toml.Blank
import Keystroke.Toml.Document
import Keystroke.Toml.Number
import Keystroke.Toml.Printer
import Keystroke.Toml.Text
import Keystroke.Toml.Value
import Keystroke.Version
