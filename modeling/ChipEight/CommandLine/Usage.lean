import ChipEight.CommandLine.Options

/-!
# Usage and help texts
-/

namespace ChipEight.CommandLine

/-- How the command is used. -/
def usage : String :=
"usage: chip8 [-h] [--hz N] [--scale N] [--lenient] [--seed SEED] [--shift-vy]
             [--no-index-wrap] [--trace] [--headless] [--frames N]
             [--disassemble]
             program
"

/-- The help text. -/
def helpText : String := usage ++ "
CHIP-8 interpreter

positional arguments:
  program          Raw CHIP-8 program image, loaded at 0x200

options:
  -h, --help       show this help message and exit
  --hz N           Instructions per second (default: 600)
  --scale N        Pixel scale factor for the window (default: 10)
  --lenient        Skip invalid opcodes instead of stopping
  --seed SEED      Seed for the RND instruction
  --shift-vy       SHR/SHL shift VY into VX (COSMAC quirk)
  --no-index-wrap  Keep I 16-bit on ADD I, Vx instead of wrapping at 0xFFF
  --trace          Print every executed instruction to stderr
  --headless       Run without a window
  --frames N       Stop after N frames (default: run until closed, 600 when
                   headless)
  --disassemble    Print a disassembly of PROGRAM and exit
"

/-- What is printed about a wrong command line. -/
def UsageError.report (e : UsageError) : String := usage ++ "chip8: error: " ++ e.message ++ "\n"

end ChipEight.CommandLine
