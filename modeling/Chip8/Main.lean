import Chip8.Command.Program

open Chip8

def readFailure : IO.Error → ReadFailure
  | .noFileOrDirectory .. => .notFound
  | .permissionDenied .. => .permissionDenied
  | .inappropriateType _ code _ => if code = 20 then .notADirectory else .isDirectory
  | .invalidArgument _ code text => if code = 36 then .nameTooLong else .other text
  | e => .other (toString e)

def readAll (path : String) : IO (Except ReadFailure (List UInt8)) := do
  try
    let bytes ← IO.FS.readBinFile path
    return .ok bytes.toList
  catch e =>
    return .error (readFailure e)

def main (words : List String) : IO UInt32 := do
  let files : Files ← match CommandLine.read words with
    | .ok c => do
      let image ← readAll c.path
      pure fun _ => image
    | .error _ => pure fun _ => .error .notFound
  let exit := Program.windowed files words
  exit.stdout.forM IO.println
  exit.stderr.forM IO.eprintln
  return UInt32.ofNat exit.code
