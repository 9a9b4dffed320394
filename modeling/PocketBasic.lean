import PocketBasic.App
import PocketBasic.Launch
import PocketBasic.Main
import PocketBasic.Playback
import PocketBasic.Program.Computer
import PocketBasic.Rehearsal
import PocketBasic.Simulator.Window
import PocketBasic.Proofs.EventLoop.Operations
import PocketBasic.Proofs.Simulator.Operations
import PocketBasic.Proofs.Engine.Keeps
import PocketBasic.Proofs.Engine.KeyQueue
import PocketBasic.Proofs.Simulator.Round
import PocketBasic.Proofs.Simulator.Coherent
import PocketBasic.Proofs.Simulator.Stage
import PocketBasic.Proofs.Simulator.StepChain
import PocketBasic.Proofs.Simulator.Recorder
import PocketBasic.Proofs.Simulator.ResumeProtocol
import PocketBasic.Proofs.Simulator.Timing
import PocketBasic.Proofs.Simulator.Timers
import PocketBasic.Proofs.Simulator.Live
import PocketBasic.Proofs.Simulator.Window
import PocketBasic.Proofs.App.Live
import PocketBasic.Proofs.App.Reachable
import PocketBasic.Proofs.App.InStep
import PocketBasic.Proofs.Simulator.Mirror
import PocketBasic.Proofs.Dialog.Accounts
import PocketBasic.Proofs.Dialog.Calls
import PocketBasic.Proofs.Inspector.Accounts
import PocketBasic.Proofs.Program.Batches
import PocketBasic.Proofs.Simulator.Accounts
import PocketBasic.Proofs.Simulator.Dealings
import PocketBasic.Proofs.Terminal.Reads
import PocketBasic.Proofs.EventLoop.Holders
import PocketBasic.Proofs.Simulator.Ownership
import PocketBasic.Proofs.Simulator.Driven
import PocketBasic.Proofs.Screen.Flush
import PocketBasic.Proofs.Screen.Redraw
import PocketBasic.Proofs.Dialog.Kinds
import PocketBasic.Proofs.Program.Mishaps
import PocketBasic.Proofs.Program.TypeSafety
import PocketBasic.Proofs.Inspector.Fresh
import PocketBasic.Proofs.Simulator.Rest
import PocketBasic.Proofs.Simulator.Inspection
import PocketBasic.Proofs.Engine.Journal
import PocketBasic.Proofs.Simulator.Chronicle
import PocketBasic.Proofs.App.Annotation
import PocketBasic.Proofs.App.FinalResults
import PocketBasic.Proofs.Engine.Twins
import PocketBasic.Proofs.Program.Twins
import PocketBasic.Proofs.EventLoop.Later
import PocketBasic.Proofs.Simulator.Later
import PocketBasic.Proofs.Simulator.LaterWindow
import PocketBasic.Proofs.Simulator.LaterHost
import PocketBasic.Proofs.Simulator.AlongWindow
import PocketBasic.Proofs.Simulator.History
import PocketBasic.Proofs.Simulator.Restart
import PocketBasic.Proofs.Store.Operations
import PocketBasic.Proofs.Program.Nesting
import PocketBasic.Proofs.Program.Reading
import PocketBasic.Proofs.Handset.Caret
import PocketBasic.Proofs.Simulator.Caret
import PocketBasic.Proofs.Simulator.Slumber
import PocketBasic.Proofs.Simulator.Watched
import PocketBasic.Proofs.Simulator.Vigil
import PocketBasic.Proofs.Store.Offsets
import PocketBasic.Proofs.EventLoop.History
import PocketBasic.Proofs.EventLoop.Delivery
import PocketBasic.Proofs.EventLoop.Periodic
import PocketBasic.Proofs.Simulator.Keys
import PocketBasic.Proofs.Simulator.Held
import PocketBasic.Proofs.App.StuckKeys
import PocketBasic.Proofs.Text.Codes
import PocketBasic.Proofs.Text.Traced
import PocketBasic.Proofs.Store.Traced
import PocketBasic.Proofs.Engine.Traced
import PocketBasic.Proofs.Program.Traced
import PocketBasic.Proofs.Program.TracedRuns
import PocketBasic.Proofs.Screen.Traced
import PocketBasic.Proofs.Dialog.Traced
import PocketBasic.Proofs.Inspector.Traced
import PocketBasic.Proofs.Simulator.Traced
import PocketBasic.Proofs.Screen.Spared
import PocketBasic.Proofs.App.InView
import PocketBasic.Proofs.App.TracedPane
import PocketBasic.Proofs.App.Traced
import PocketBasic.Proofs.Simulator.OnLoop
import PocketBasic.Proofs.Simulator.SleepLength
import PocketBasic.Proofs.Handset.Blinking
import PocketBasic.Proofs.Handset.DirtyArea
import PocketBasic.Proofs.Program.Budget
import PocketBasic.Proofs.Store.Elements
import PocketBasic.Proofs.Inspector.Commit
import PocketBasic.Proofs.Program.Parentheses
import PocketBasic.Proofs.Inspector.SecondClick
import PocketBasic.Proofs.Dialog.Acceptance
import PocketBasic.Proofs.Program.Strings
import PocketBasic.Proofs.Inspector.Reopening
import PocketBasic.Proofs.Text.Bytes
import PocketBasic.Proofs.Program.Columns
import PocketBasic.Proofs.Program.Names
import PocketBasic.Proofs.Editor.Bounds
import PocketBasic.Proofs.Text.Lines
import PocketBasic.Proofs.Editor.Reading
import PocketBasic.Proofs.Program.Places
import PocketBasic.Proofs.Editor.Marks
import PocketBasic.Proofs.App.Repaned
import PocketBasic.Proofs.App.Marks
import PocketBasic.Proofs.Number.Digits
import PocketBasic.Proofs.CellRect.Tiling
import PocketBasic.Proofs.Terminal.Decoding
import PocketBasic.Proofs.Dialog.Fields
import PocketBasic.Proofs.Inspector.Editing
import PocketBasic.Proofs.TextField.Cursor
import PocketBasic.Proofs.Terminal.ControlKeys
import PocketBasic.Proofs.TextField.TerminalCursor
import PocketBasic.Proofs.Number.Signed
import PocketBasic.Proofs.Screen.Painted
import PocketBasic.Proofs.Display.Pixels
import PocketBasic.Proofs.Dialog.Frame
import PocketBasic.Proofs.Keypad.Labels
import PocketBasic.Proofs.Handset.KeyBuffer
import PocketBasic.Proofs.Program.Encoding
import PocketBasic.Proofs.TextField.Line
import PocketBasic.Proofs.Inspector.Expansion
