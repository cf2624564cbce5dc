import Chip8.Command.Files
import Chip8.Command.Line

namespace Chip8

structure Exit where
  code : Nat := 0
  stdout : List String := []
  stderr : List String := []
  deriving DecidableEq, Repr

namespace Exit

def failure (context cause : String) : Exit where
  code := 1
  stderr := ["Error: " ++ context, "", "Caused by:", "    " ++ cause]

end Exit

namespace CommandLine

def UsageError.message : UsageError → String
  | .helpForNothing | .help => ""
  | .missingArgument => "error: a required argument was not provided"
  | .unknownArgument => "error: unexpected argument found"
  | .unknownCommand => "error: unrecognized subcommand"
  | .invalidValue => "error: a value is required for an argument but none was supplied"
  | .malformedValue => "error: invalid value for an argument"
  | .repeated => "error: an argument cannot be used multiple times"
  | .superfluousValue => "error: unexpected value for an argument"

def helpLines : List String :=
  ["Usage: emu <COMMAND>", "", "Commands:",
    "  run          Run a ROM in a window",
    "  disassemble  Print one line per instruction word of a ROM",
    "  help         Print this message or the help of the given subcommand(s)", "",
    "Options:", "  -h, --help  Print help"]

def UsageError.exit : UsageError → Exit
  | .help => { stdout := helpLines }
  | .helpForNothing => { code := 2, stderr := helpLines }
  | e => { code := 2, stderr := [e.message] }

end CommandLine

namespace Program

def readImage (files : Files) (path : String) (go : List UInt8 → Exit) : Exit :=
  match files path with
  | .ok image => go image
  | .error e => .failure "Failed to read ROM file" e.message

def carryOut (files : Files) : CommandLine.Command → Exit
  | .run path _ _ => readImage files path fun _ => {}
  | .disassemble path origin =>
    readImage files path fun image => { stdout := Listing.render origin image }

def ofCommand (files : Files) : Except CommandLine.UsageError CommandLine.Command → Exit
  | .ok c => carryOut files c
  | .error e => e.exit

def windowed (files : Files) (words : List String) : Exit :=
  ofCommand files (CommandLine.read words)

def terminal (files : Files) (words : List String) : Exit :=
  ofCommand files (CommandLine.readRun words)

end Program

end Chip8
