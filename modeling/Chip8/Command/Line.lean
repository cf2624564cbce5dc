import Chip8.Listing

namespace Chip8.CommandLine

inductive UsageError where
  | helpForNothing
  | help
  | missingArgument
  | unknownArgument
  | unknownCommand
  | invalidValue
  | malformedValue
  | repeated
  | superfluousValue
  deriving DecidableEq, Repr

inductive Parameter where
  | image
  | clip
  | mute
  | origin
  deriving DecidableEq, Repr

namespace Parameter

def takesValue : Parameter → Bool
  | image | origin => true
  | clip | mute => false

end Parameter

abbrev Names := List (List Char × Parameter)

def runNames : Names := [("clip-edges".toList, .clip), ("mute".toList, .mute)]

def disassembleNames : Names := [("origin".toList, .origin)]

def digitsValue? (base : Nat) (text : List Char) : Option Nat :=
  let digits := match text with
    | '+' :: rest => rest
    | _ => text
  if digits.isEmpty then none
  else digits.foldlM (fun n ch =>
    (Hex.value? ch).bind fun d => if d.val < base then some (n * base + d.val) else none) 0

def wordValue? (text : List Char) : Option UInt16 :=
  let n := match text with
    | '0' :: 'x' :: rest | '0' :: 'X' :: rest => digitsValue? 16 rest
    | _ => digitsValue? 10 text
  n.bind fun n => if n < 65536 then some (UInt16.ofNat n) else none

structure Given where
  values : List (Parameter × List Char) := []
  pending : Option (Parameter × Option (List Char)) := none
  expecting : Bool := false
  escaped : Bool := false
  deriving DecidableEq, Repr

namespace Given

def value? (g : Given) (p : Parameter) : Option (List Char) := g.values.lookup p

def has (g : Given) (p : Parameter) : Bool := (g.value? p).isSome

def check (p : Parameter) (value : List Char) : Except UsageError Unit :=
  match p with
  | .image => if value.isEmpty then .error .invalidValue else .ok ()
  | .origin => if (wordValue? value).isSome then .ok () else .error .malformedValue
  | .clip | .mute => .ok ()

def accept (g : Given) (p : Parameter) (value : List Char) : Except UsageError Given := do
  if g.has p then throw .repeated
  check p value
  return { g with values := (p, value) :: g.values }

def resolve (g : Given) : Except UsageError Given :=
  match g.pending with
  | none => .ok g
  | some (_, none) => .error .invalidValue
  | some (p, some value) => { g with pending := none, expecting := false }.accept p value

def positional (g : Given) (word : List Char) : Except UsageError Given :=
  if g.has .image || g.pending.any (·.1 = .image) then .error .unknownArgument
  else do
    let g ← g.resolve
    return { g with pending := some (.image, some word), expecting := false }

def long (names : Names) (g : Given) (word : List Char) : Except UsageError Given :=
  let name := word.takeWhile (· ≠ '=')
  let attached := match word.dropWhile (· ≠ '=') with
    | _ :: value => some value
    | [] => none
  if name = "help".toList then
    match attached with
    | some _ => .error .superfluousValue
    | none => do
      let _ ← g.resolve
      throw .help
  else
    match names.lookup name, attached with
    | none, _ => .error .unknownArgument
    | some p, some value =>
      if p.takesValue then do
        let g ← g.resolve
        g.accept p value
      else .error .superfluousValue
    | some p, none => do
      let g ← g.resolve
      if p.takesValue then return { g with pending := some (p, none), expecting := true }
      else g.accept p []

def short (g : Given) (word : List Char) : Except UsageError Given :=
  if word.head? = some 'h' then do
    let _ ← g.resolve
    throw .help
  else .error .unknownArgument

def word (names : Names) (g : Given) (w : List Char) : Except UsageError Given :=
  if g.escaped then g.positional w
  else
    match w with
    | ['-', '-'] => .ok { g with escaped := true }
    | '-' :: '-' :: rest => g.long names rest
    | '-' :: c :: rest => g.short (c :: rest)
    | w =>
      match g.expecting, g.pending with
      | true, some (p, _) => .ok { g with pending := some (p, some w), expecting := false }
      | _, _ => g.positional w

def wordsFrom (names : Names) : Given → List String → Except UsageError Given
  | g, [] => g.resolve
  | g, w :: rest =>
    match g.word names w.toList with
    | .ok g => wordsFrom names g rest
    | .error e => .error e

end Given

def readArguments (names : Names) (words : List String) : Except UsageError (Given × String) :=
  match Given.wordsFrom names {} words with
  | .error e => .error e
  | .ok g =>
    match g.value? .image with
    | some path => .ok (g, String.ofList path)
    | none => .error .missingArgument

inductive Command where
  | run (path : String) (clip mute : Bool)
  | disassemble (path : String) (origin : UInt16)
  deriving DecidableEq, Repr

def Command.path : Command → String
  | run path _ _ => path
  | disassemble path _ => path

def readRun (words : List String) : Except UsageError Command := do
  let (g, path) ← readArguments runNames words
  return .run path (g.has .clip) (g.has .mute)

def readDisassemble (words : List String) : Except UsageError Command := do
  let (g, path) ← readArguments disassembleNames words
  return .disassemble path (((g.value? .origin).bind wordValue?).getD Listing.defaultOrigin)

def commandNames : List String := ["run", "disassemble", "help"]

def readHelp : List String → UsageError
  | [] => .help
  | [name] => if commandNames.contains name then .help else .unknownCommand
  | _ => .unknownCommand

def readEscaped : List String → UsageError
  | [] => .helpForNothing
  | w :: _ => if commandNames.contains w then .unknownArgument else .unknownCommand

def read : List String → Except UsageError Command
  | [] => .error .helpForNothing
  | "run" :: rest => readRun rest
  | "disassemble" :: rest => readDisassemble rest
  | "help" :: rest => .error (readHelp rest)
  | w :: rest =>
    match w.toList with
    | ['-', '-'] => .error (readEscaped rest)
    | '-' :: _ :: _ =>
      match ({} : Given).word [] w.toList with
      | .error e => .error e
      | .ok _ => .error .unknownArgument
    | _ => .error .unknownCommand

end Chip8.CommandLine
