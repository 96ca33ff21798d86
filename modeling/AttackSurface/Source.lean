import AttackSurface.ErrorCode
import AttackSurface.Text.Lines

/-!
Where listings come from, and how they are read: line by line, from a file or from a text.

Files are read from a snapshot of a directory, so reading is a function of the snapshot. A file
that turns out unreadable on the way keeps the lines before the fault.
-/
namespace AttackSurface

inductive FileEntry where
  | file (bytes : List UInt8)
  | directory
  deriving DecidableEq, Repr

abbrev FileTree := List (String × FileEntry)

inductive ReadFault where
  | notFound
  | notADirectory
  | isDirectory
  | notUtf8
  | other (text : String)
  deriving DecidableEq, Repr

def ReadFault.wording : ReadFault → String
  | .notFound => "No such file or directory (os error 2)"
  | .notADirectory => "Not a directory (os error 20)"
  | .isDirectory => "Is a directory (os error 21)"
  | .notUtf8 => "stream did not contain valid UTF-8"
  | .other text => text

inductive LoadError where
  | unreadable (path : String) (fault : ReadFault)
  | workerFailed (reason : String)
  | timedOut (milliseconds : Nat)
  deriving DecidableEq, Repr

instance : Coded LoadError where
  code
    | .unreadable .. => .io
    | _ => .load
  message
    | .unreadable path fault => "Can not read " ++ path ++ ": " ++ fault.wording
    | .workerFailed reason => "Profile worker failed: " ++ reason
    | .timedOut ms => "Timed out after " ++ toString ms ++ "ms waiting for profile results"

/-! ## Paths -/

/-- A directory, or nothing, for the parts of a path that lead out of the snapshot. -/
def outside (parts : List String) : Except ReadFault FileEntry :=
  if parts.all fun part => part = "" ∨ part = "." ∨ part = ".." then .ok .directory
  else .error .notFound

def nameParts (name : String) : List String :=
  (name.splitOn "/").filter fun part => part ≠ "" ∧ part ≠ "."

namespace FileTree

/-- What stands under a name. The directories on the way to a name need none of their own. -/
def find? (files : FileTree) (parts : List String) : Option FileEntry :=
  match List.find? (fun entry => nameParts entry.1 = parts) files with
  | some entry => some entry.2
  | none =>
    if files.any fun entry => parts.isPrefixOf (nameParts entry.1) then some .directory else none

/-- What the parts of a path lead to from a directory of the snapshot. Every part but the last has
to be a directory, and an empty last part asks for one. -/
def walk (files : FileTree) : (directory parts : List String) → Except ReadFault FileEntry
  | _, [] => .ok .directory
  | directory, part :: rest =>
    if part = "" ∨ part = "." then walk files directory rest
    else if part = ".." then
      if directory = [] then outside rest else walk files directory.dropLast rest
    else
      match files.find? (directory ++ [part]) with
      | none => .error .notFound
      | some .directory => walk files (directory ++ [part]) rest
      | some (.file bytes) => if rest = [] then .ok (.file bytes) else .error .notADirectory

def lookup (files : FileTree) (path : String) : Except ReadFault FileEntry :=
  match path.splitOn "/" with
  | [""] => .error .notFound
  | "" :: parts => outside parts
  | parts => files.walk [] parts

end FileTree

inductive Source where
  | path (name : String)
  | text (content : String)
  deriving DecidableEq, Repr

def Source.describe : Source → String
  | .path name => name
  | .text _ => "<text>"

structure Reading where
  lines : List String
  fault : Option ReadFault := none
  deriving DecidableEq, Repr

namespace Reading

/-- Reads lines of bytes up to the first that is not UTF-8. -/
def ofByteLines : List (List UInt8) → Reading
  | [] => ⟨[], none⟩
  | line :: rest =>
    match String.fromUTF8? ⟨line.toArray⟩ with
    | none => ⟨[], some .notUtf8⟩
    | some text => { ofByteLines rest with lines := text :: (ofByteLines rest).lines }

def ofEntry : FileEntry → Reading
  | .file bytes => ofByteLines (Text.lines 0x0a 0x0d bytes)
  | .directory => ⟨[], some .isDirectory⟩

end Reading

namespace Source

def read (files : FileTree) : Source → Except LoadError Reading
  | .text content => .ok ⟨Text.textLines content, none⟩
  | .path name =>
    match files.lookup name with
    | .error fault => .error (.unreadable name fault)
    | .ok entry => .ok (Reading.ofEntry entry)

def faultError (source : Source) (fault : ReadFault) : LoadError :=
  .unreadable source.describe fault

/-- The lines of the source, all of which have to be readable. -/
def allLines (files : FileTree) (source : Source) : Except LoadError (List String) :=
  match source.read files with
  | .error e => .error e
  | .ok ⟨lines, none⟩ => .ok lines
  | .ok ⟨_, some fault⟩ => .error (source.faultError fault)

end Source

end AttackSurface
