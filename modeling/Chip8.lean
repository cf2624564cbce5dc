import Chip8.Command.Program
import Chip8.Console.Render
import Chip8.Cpu.Session
import Chip8.Listing
import Chip8.Machine.Timeline
import Chip8.Main
import Chip8.Proofs.Cpu.CallStack
import Chip8.Proofs.Cpu.Effect
import Chip8.Proofs.Cpu.Process
import Chip8.Proofs.Timers.History
import Chip8.Window.Basic
import Chip8.Proofs.Cpu.Failure
import Chip8.Proofs.Cpu.Tone
import Chip8.Proofs.Cpu.Alias
import Chip8.Proofs.Keypad.Wait
import Chip8.Proofs.Cpu.Display
import Chip8.Proofs.Cpu.View
import Chip8.Proofs.Cpu.Block
import Chip8.Proofs.Cpu.Devices
import Chip8.Proofs.Machine.Acts
import Chip8.Proofs.Machine.Coherent
import Chip8.Proofs.Machine.Stop
import Chip8.Proofs.Machine.Containment
import Chip8.Proofs.Cpu.Mirror
import Chip8.Proofs.Machine.Restart
import Chip8.Proofs.Timers.Reach
import Chip8.Proofs.Picture.Draw
import Chip8.Proofs.Screen.Pipeline
import Chip8.Proofs.Cpu.Footprint
import Chip8.Proofs.Console.LogBuffer
import Chip8.Proofs.Picture.Strokes
import Chip8.Proofs.Picture.Clipping
import Chip8.Proofs.Cpu.Arithmetic
import Chip8.Proofs.Cpu.ControlFlow
import Chip8.Proofs.Cpu.Transfer
import Chip8.Proofs.Listing.RoundTrip
import Chip8.Proofs.Timers.Countdown
import Chip8.Proofs.Listing.Fetch
import Chip8.Proofs.Console.LogHistory
import Chip8.Proofs.Console.HeldKeys
import Chip8.Proofs.Machine.Tone
import Chip8.Proofs.Console.Drawing
