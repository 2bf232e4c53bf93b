import ChipEight.Main
import ChipEight.Display.Picture
import ChipEight.Host.Termination
import ChipEight.Proofs.Basic
import ChipEight.Proofs.Run
import ChipEight.Proofs.SpriteCells
import ChipEight.Proofs.Simulation
import ChipEight.Proofs.DisplayCalls
import ChipEight.Proofs.Drawing
import ChipEight.Proofs.InstructionForms
import ChipEight.Proofs.WriteSets
import ChipEight.Proofs.Successor
import ChipEight.Proofs.LocalSettings
import ChipEight.Proofs.RegisterArithmetic
import ChipEight.Proofs.MemoryStores
import ChipEight.Proofs.RegisterBlocks
import ChipEight.Proofs.ProgramLoading
import ChipEight.Proofs.DrawingOrder
import ChipEight.Proofs.Interchange
import ChipEight.Proofs.KeyWait
import ChipEight.Proofs.Surface
import ChipEight.Proofs.Repaint
import ChipEight.Proofs.FaithfulWindow
import ChipEight.Proofs.Cycle
import ChipEight.Proofs.StackFaults
import ChipEight.Proofs.CounterWidth
import ChipEight.Proofs.Laps
import ChipEight.Proofs.CallNesting
import ChipEight.Proofs.AddressBits
import ChipEight.Proofs.PlainNumbers
import ChipEight.Proofs.PlainView
import ChipEight.Proofs.Representation
import ChipEight.Proofs.Reset
import ChipEight.Proofs.Timers
import ChipEight.Proofs.HostActs
import ChipEight.Proofs.FrameLoop
import ChipEight.Proofs.KeptDisplay
import ChipEight.Proofs.Boot
import ChipEight.Proofs.WindowClosed
import ChipEight.Proofs.Page
import ChipEight.Proofs.OptionValues
import ChipEight.Proofs.HeadlessCourses
import ChipEight.Proofs.HostPairs
import ChipEight.Proofs.Frames
import ChipEight.Proofs.SessionsAgree
import ChipEight.Proofs.FrameBoundaries
import ChipEight.Proofs.KeyStrokes
import ChipEight.Proofs.TextHistory
import ChipEight.Proofs.HexNumbers
import ChipEight.Proofs.DumpText
import ChipEight.Proofs.RestartedWindow
