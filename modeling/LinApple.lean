import LinApple.Audio.HeldFrame
import LinApple.Audio.Resampler
import LinApple.Audio.ResamplerSplits
import LinApple.Audio.SampleBuffer
import LinApple.Audio.SampleQueue
import LinApple.Audio.UploadSplits
import LinApple.Basic.Banked
import LinApple.Basic.Echo
import LinApple.Basic.Export
import LinApple.Basic.Import
import LinApple.Basic.Lines
import LinApple.Basic.LiveSync
import LinApple.Basic.Positional
import LinApple.Basic.Retokenize
import LinApple.Basic.RoundTrip
import LinApple.Basic.Tokens
import LinApple.Basic.WellFormed
import LinApple.Cards.Clock
import LinApple.Cards.ClockFirmware
import LinApple.Cards.ClockMachine
import LinApple.Cards.Joystick
import LinApple.Cards.Keyboard
import LinApple.Cards.KeyboardRepeat
import LinApple.Cards.Mockingboard
import LinApple.Cards.MockingboardCycles
import LinApple.Cards.MockingboardRestored
import LinApple.Cards.Mouse
import LinApple.Cards.MouseHandshake
import LinApple.Cards.MouseState
import LinApple.Cards.PaddleTimers
import LinApple.Cards.SerialBytes
import LinApple.Cards.Speaker
import LinApple.Cards.SpeakerEdges
import LinApple.Cards.SuperSerial
import LinApple.Chips.Acia6551
import LinApple.Chips.AciaReceiver
import LinApple.Chips.AciaRounds
import LinApple.Chips.AciaTime
import LinApple.Chips.AciaTransmitter
import LinApple.Chips.Ay8910
import LinApple.Chips.AyEnvelope
import LinApple.Chips.Pia6821
import LinApple.Chips.SerialClock
import LinApple.Chips.Via6522
import LinApple.Config.Registry
import LinApple.Config.Saved
import LinApple.Config.Text
import LinApple.Cpu.Agreement
import LinApple.Cpu.Combined
import LinApple.Cpu.Cycles
import LinApple.Cpu.Decimal
import LinApple.Cpu.Fetches
import LinApple.Cpu.Flags
import LinApple.Cpu.Instructions
import LinApple.Cpu.Loop
import LinApple.Cpu.Operations
import LinApple.Cpu.Programs
import LinApple.Cpu.Related
import LinApple.Cpu.Returns
import LinApple.Cpu.Slices
import LinApple.Cpu.Tables
import LinApple.Cpu.Timing
import LinApple.Cpu.Types
import LinApple.Debugger.Assembler
import LinApple.Debugger.BreakpointCounts
import LinApple.Debugger.Breakpoints
import LinApple.Debugger.Commands
import LinApple.Debugger.Cook
import LinApple.Debugger.DelayedTargets
import LinApple.Debugger.Edits
import LinApple.Debugger.Fills
import LinApple.Debugger.Image
import LinApple.Debugger.Lines
import LinApple.Debugger.Opcodes
import LinApple.Debugger.Parser
import LinApple.Debugger.ParserSafety
import LinApple.Debugger.Reassembly
import LinApple.Debugger.RunControl
import LinApple.Debugger.Search
import LinApple.Debugger.Stepping
import LinApple.Debugger.Stops
import LinApple.Debugger.Symbols
import LinApple.Debugger.Targets
import LinApple.Disk.Activity
import LinApple.Disk.Card
import LinApple.Disk.Cells
import LinApple.Disk.Denibblized
import LinApple.Disk.Drive
import LinApple.Disk.Encoding
import LinApple.Disk.FullBuffer
import LinApple.Disk.HeadMotion
import LinApple.Disk.Invariant
import LinApple.Disk.Loader
import LinApple.Disk.Motion
import LinApple.Disk.NibbleImage
import LinApple.Disk.Passing
import LinApple.Disk.Restored
import LinApple.Disk.Revolution
import LinApple.Disk.SaveState
import LinApple.Disk.SixAndTwo
import LinApple.Disk.Track
import LinApple.Disk.WozChunk
import LinApple.Disk.WozDrivers
import LinApple.Disk.WriteBack
import LinApple.Frontends.MouseReports
import LinApple.Frontends.Stretch
import LinApple.Frontends.StretchPalette
import LinApple.Frontends.TuiCells
import LinApple.Frontends.TuiCommands
import LinApple.Frontends.TuiInput
import LinApple.Frontends.TuiRun
import LinApple.Frontends.TuiSequences
import LinApple.Frontends.TuiVideo
import LinApple.Harddisk.Activity
import LinApple.Harddisk.BlockStore
import LinApple.Harddisk.Controller
import LinApple.Harddisk.Image
import LinApple.Harddisk.Resumed
import LinApple.Harddisk.TwoImg
import LinApple.Lib.ByteMap
import LinApple.Lib.Bytes
import LinApple.Lib.Carry
import LinApple.Lib.Doubles
import LinApple.Lib.Draws
import LinApple.Lib.Ends
import LinApple.Lib.EventLoop
import LinApple.Lib.Fifo
import LinApple.Lib.Framing
import LinApple.Lib.Keyed
import LinApple.Lib.Machine
import LinApple.Lib.Paint
import LinApple.Lib.Rounds
import LinApple.Lib.Sizes
import LinApple.Lib.SortedMap
import LinApple.Lib.Terminal
import LinApple.Lib.Traced
import LinApple.Lib.Transducer
import LinApple.Lib.WriteBack
import LinApple.Memory.Alike
import LinApple.Memory.Coherence
import LinApple.Memory.Invariant
import LinApple.Memory.Keeping
import LinApple.Memory.Paging
import LinApple.Memory.ProgramLoader
import LinApple.Memory.Reference
import LinApple.Memory.Refinement
import LinApple.Memory.Snapshot
import LinApple.Memory.Types
import LinApple.Services.FtpArithmetic
import LinApple.Services.FtpParser
import LinApple.Services.UnixListing
import LinApple.Slots.Activity
import LinApple.Slots.Answers
import LinApple.Slots.ByteSink
import LinApple.Slots.CardRom
import LinApple.Slots.Dispatch
import LinApple.Slots.ExpansionRom
import LinApple.Slots.Peripherals
import LinApple.Slots.Registration
import LinApple.Slots.Removal
import LinApple.Slots.Restored
import LinApple.Video.Cells
import LinApple.Video.FloatingBus
import LinApple.Video.Incremental
import LinApple.Video.Refresh
import LinApple.Video.Scanner
import LinApple.Video.Switches
import LinApple.Video.Tiles
import LinApple.Video.Types
