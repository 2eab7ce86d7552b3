import InferenceGraph.FileTree.Path

/-!
# File trees

The files that texts are saved to. A location is the list of names that lead to it from the root.
Directories are made where they are missing, but not under what is no directory, and some
directories, such as those that show the state of the system, take no new entries at all.
-/

set_option autoImplicit false

namespace InferenceGraph

abbrev Location := List String

/-- What adding to a directory that takes nothing new ends with. -/
structure Seal where
  forDirectory : FileFault
  forFile : FileFault
  deriving DecidableEq, Repr

inductive Entry where
  | directory (sealed : Option Seal)
  | file (text : String)
  /-- What was there before and is no directory: a device, a program, a file of the system. -/
  | foreign
  | link (target : Location)
  deriving DecidableEq, Repr

structure FileTree where
  entries : List (Location × Entry)
  start : Location
  deriving DecidableEq, Repr

namespace FileTree

def lookup (t : FileTree) (location : Location) : Option Entry :=
  if location = [] then some (.directory none) else t.entries.lookup location

def insert (t : FileTree) (location : Location) (e : Entry) : FileTree :=
  { t with entries := (location, e) :: t.entries.filter fun (other, _) => other ≠ location }

def follow (t : FileTree) (location : Location) : Location :=
  match t.lookup location with
  | some (.link target) => target
  | _ => location

def isDirectory (t : FileTree) (location : Location) : Bool :=
  match t.lookup location with
  | some (.directory _) => true
  | _ => false

def isLongName (name : String) : Bool := 255 < name.utf8ByteSize

def refusal? (sealed : Option FileFault) (name : String) : Option FileFault :=
  match sealed with
  | some fault => some fault
  | none => if isLongName name then some .nameTooLong else none

/-- Goes down from a location by the steps and makes the directories that are missing. What was made
before a step failed stays. -/
def descend (t : FileTree) (location : Location) :
    List String → Except FileFault Location × FileTree
  | [] => (.ok location, t)
  | step :: rest =>
    match t.lookup location with
    | some (.directory sealed) =>
      if step = ".." then t.descend location.dropLast rest
      else
        match t.lookup (location ++ [step]), refusal? (sealed.map Seal.forDirectory) step with
        | some _, _ => t.descend (t.follow (location ++ [step])) rest
        | none, some fault => (.error fault, t)
        | none, none =>
          (t.insert (location ++ [step]) (.directory none)).descend (location ++ [step]) rest
    | _ => (.error .notDirectory, t)

def enter (t : FileTree) (location : Location) (step : String) : Except FileFault Location :=
  match t.lookup location with
  | some (.directory sealed) =>
    if step = ".." then .ok location.dropLast
    else
      match t.lookup (location ++ [step]) with
      | some _ =>
        if t.isDirectory (t.follow (location ++ [step])) then .ok (t.follow (location ++ [step]))
        else .error .notDirectory
      | none => .error (if sealed.isNone && isLongName step then .nameTooLong else .missing)
  | _ => .error .notDirectory

/-- The location of a directory, made with all above it that are missing. A step before a final dot
is not made. -/
def makeDirectories (t : FileTree) (p : Path) : Except FileFault Location × FileTree :=
  let base := if p.absolute then [] else t.start
  match p.steps.getLast?, p.fault? with
  | none, _ => (.ok base, t)
  | some _, some fault => (.error fault, t)
  | some last, none =>
    match t.descend base (if p.endsInDot then p.steps.dropLast else p.steps) with
    | (.error fault, t) => (.error fault, t)
    | (.ok location, t) =>
      if p.endsInDot then (t.enter location last, t)
      else if t.isDirectory location then (.ok location, t)
      else (.error .taken, t)

def write (t : FileTree) (location : Location) (name text : String) : Except FileFault FileTree :=
  match t.lookup (t.follow (location ++ [name])), t.lookup location with
  | some (.directory _), _ => .error .isDirectory
  | some .foreign, _ | some (.link _), _ => .ok t
  | some (.file _), _ => .ok (t.insert (location ++ [name]) (.file text))
  | none, some (.directory sealed) =>
    match refusal? (sealed.map Seal.forFile) name with
    | some fault => .error fault
    | none => .ok (t.insert (location ++ [name]) (.file text))
  | none, _ => .error .notDirectory

/-- Saves a text under a name in a directory, which is made if it is missing. A fault comes with
the path that it is about. -/
def save (t : FileTree) (directory : Path) (name text : String) :
    Except (Path × FileFault) Unit × FileTree :=
  match t.makeDirectories directory with
  | (.error fault, t) => (.error (directory, fault), t)
  | (.ok location, t) =>
    let file := directory.child name
    match file.fault?, t.write location name text with
    | some fault, _ => (.error (file, fault), t)
    | none, .error fault => (.error (file, fault), t)
    | none, .ok t => (.ok (), t)

end FileTree

end InferenceGraph
