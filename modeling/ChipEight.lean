import ChipEight.Assembly.Listing
import ChipEight.Display.Channels
import ChipEight.Main
import ChipEight.Proofs.Assembly.Encoding
import ChipEight.Proofs.Assembly.Mistakes
import ChipEight.Proofs.Emulator.Policy
import ChipEight.Proofs.Machine.KeyWait
import ChipEight.Proofs.Machine.Subroutine
import ChipEight.Proofs.Machine.Countdown
import ChipEight.Proofs.Places
import ChipEight.Proofs.Machine.Guarded
import ChipEight.Proofs.Emulator.Frame
import ChipEight.Proofs.Display.Frames
import ChipEight.Proofs.Display.Screen
import ChipEight.Proofs.Display.Splitting
import ChipEight.Proofs.Emulator.Strictness
import ChipEight.Proofs.Machine.Switches
import ChipEight.Proofs.Emulator.Trace
import ChipEight.Proofs.Display.Calls
import ChipEight.Proofs.Display.Pixels
import ChipEight.Proofs.CommandLine.Disassembly
import ChipEight.Proofs.Display.Sprites
import ChipEight.Proofs.Machine.Transfers
import ChipEight.Proofs.CommandLine.Headless
import ChipEight.Proofs.Machine.Drawing
import ChipEight.Proofs.Machine.Destination
import ChipEight.Proofs.Machine.Arithmetic
import ChipEight.Proofs.Machine.StoreLoad
import ChipEight.Proofs.Machine.Footprint
import ChipEight.Proofs.Machine.Interleaving
import ChipEight.Proofs.Assembly.Edits
import ChipEight.Proofs.Assembly.Joining
import ChipEight.Proofs.Assembly.Listing
import ChipEight.Proofs.Display.Queue
import ChipEight.Proofs.Memory.Calls
import ChipEight.Proofs.Assembly.LetterCase
import ChipEight.Proofs.Assembly.Literal
