import Chip8.Text.Hex

namespace Chip8

inductive Fault where
  | interrupted
  | stackOverflow (sp : UInt8) (pc : UInt16)
  | alreadyRunning
  | spawn (cause : String)
  deriving DecidableEq, Repr

def Fault.message : Fault → String
  | .interrupted => "Blocked key wait was interrupted by machine shutdown"
  | .stackOverflow sp pc =>
    "Stack pointer 0x" ++ String.ofList (Hex.byte .upper sp) ++
      " is outside the call stack (instruction at 0x" ++ String.ofList (Hex.word .upper pc) ++ ")"
  | .alreadyRunning => "Machine is already running"
  | .spawn cause => "Failed to spawn clock thread: " ++ cause

inductive Crash where
  | text (s : String)
  | unreadable
  deriving DecidableEq, Repr

def Crash.message : Crash → String
  | .text s => s
  | .unreadable => "unknown panic payload"

end Chip8
