namespace Chip8

inductive ReadFailure where
  | notFound
  | permissionDenied
  | notADirectory
  | isDirectory
  | nameTooLong
  | other (text : String)
  deriving DecidableEq, Repr

def ReadFailure.message : ReadFailure → String
  | .notFound => "No such file or directory (os error 2)"
  | .permissionDenied => "Permission denied (os error 13)"
  | .notADirectory => "Not a directory (os error 20)"
  | .isDirectory => "Is a directory (os error 21)"
  | .nameTooLong => "File name too long (os error 36)"
  | .other text => text

abbrev Files := String → Except ReadFailure (List UInt8)

abbrev Place := List String

inductive Node where
  | directory
  | file (bytes : List UInt8)
  deriving DecidableEq, Repr

structure FileTree where
  nodes : List (Place × Node) := []
  atHand : Place := []

namespace FileTree

def node? (t : FileTree) : Place → Option Node
  | [] => some .directory
  | p => t.nodes.lookup p

def longestName : Nat := 255

def longestPath : Nat := 4095

def names : List Char → List (List Char)
  | [] => [[]]
  | c :: rest =>
    if c = '/' then [] :: names rest
    else
      match names rest with
      | [] => [[c]]
      | name :: more => (c :: name) :: more

def enter (t : FileTree) (p : Place) (name : String) : Except ReadFailure Place :=
  if t.node? p ≠ some .directory then .error .notADirectory
  else if name = "" ∨ name = "." then .ok p
  else if name = ".." then .ok p.tail
  else if longestName < name.utf8ByteSize then .error .nameTooLong
  else if (t.node? (name :: p)).isSome then .ok (name :: p)
  else .error .notFound

def follow (t : FileTree) (p : Place) (l : List (List Char)) : Except ReadFailure Place :=
  l.foldlM (fun p name => t.enter p (String.ofList name)) p

def find (t : FileTree) (path : String) : Except ReadFailure Place :=
  if longestPath < path.utf8ByteSize then .error .nameTooLong
  else
    match path.toList with
    | [] => .error .notFound
    | '/' :: rest => t.follow [] (names rest)
    | relative => t.follow t.atHand (names relative)

def read (t : FileTree) : Files := fun path =>
  match t.find path with
  | .error e => .error e
  | .ok p =>
    match t.node? p with
    | some (.file bytes) => .ok bytes
    | some .directory => .error .isDirectory
    | none => .error .notFound

end FileTree

end Chip8
