import Appliance.Files.Path
import Appliance.Time

/-! A file tree as a value: directories, files and symbolic links under their places, and the
operations on paths with the faults that a machine reports. An operation that fails leaves the tree
as it was; only making a chain of directories may have made some of them. -/
namespace Appliance

/-- A place in the tree: the names from the root down. -/
abbrev Location := List String

structure File where
  bytes : ByteArray
  modified : Time
  ownerOnly : Bool := false

instance : DecidableEq File := fun a b =>
  decidable_of_iff
    (a.bytes.data = b.bytes.data ∧ a.modified = b.modified ∧ a.ownerOnly = b.ownerOnly)
    ⟨fun h => by cases a; cases b; simpa [ByteArray.ext_iff] using h, fun h => by simp [h]⟩

inductive Node where
  | directory
  | file (file : File)
  | link (target : String)
  deriving DecidableEq

/-- A tree, the place that relative paths start from, and the time that changes are stamped with.
The root is there without being listed. -/
structure Disk where
  nodes : List (Location × Node) := []
  here : Location := []
  clock : Time := ⟨0⟩

namespace Disk

def get? (disk : Disk) (location : Location) : Option Node :=
  if location = [] then some .directory else (disk.nodes.find? (·.1 = location)).map (·.2)

def put (disk : Disk) (location : Location) (node : Node) : Disk :=
  { disk with nodes := (location, node) :: disk.nodes.filter (·.1 ≠ location) }

def erase (disk : Disk) (location : Location) : Disk :=
  { disk with nodes := disk.nodes.filter (·.1 ≠ location) }

inductive Stop where
  | present (location : Location)
  | absent (directory : Location) (name : String)
  | link (directory : Location) (target : String) (rest : List String)
  deriving DecidableEq

inductive Aim where
  | node
  | last
  /-- a file to write, which a slash at the end cannot name -/
  | write
  deriving DecidableEq

/-- Follows names from a place up to the first link that is to be followed. -/
def advance (disk : Disk) (aim : Aim) : Location → List String → Except Fault Stop
  | location, [] => .ok (.present location)
  | location, name :: rest =>
    if disk.get? location ≠ some .directory then .error .notDirectory
    else if name = "" ∨ name = "." then advance disk aim location rest
    else if name = ".." then advance disk aim location.dropLast rest
    else if aim = .write ∧ rest = [""] then .error .isDirectory
    else if 255 < name.utf8ByteSize then .error .nameTooLong
    else
      match disk.get? (location ++ [name]) with
      | none => if rest.isEmpty then .ok (.absent location name) else .error .notFound
      | some (.link target) =>
        if rest.isEmpty ∧ aim = .last then .ok (.present (location ++ [name]))
        else .ok (.link location target rest)
      | some _ => advance disk aim (location ++ [name]) rest

inductive Spot where
  | present (location : Location)
  | absent (directory : Location) (name : String)
  deriving DecidableEq

def walk (disk : Disk) (aim : Aim) (links : Nat) (location : Location) (names : List String) :
    Except Fault Spot :=
  match disk.advance aim location names with
  | .error fault => .error fault
  | .ok (.present location) => .ok (.present location)
  | .ok (.absent directory name) => .ok (.absent directory name)
  | .ok (.link directory target rest) =>
    match links with
    | 0 => .error .tooManyLinks
    | links + 1 =>
      walk disk aim links (if Path.isAbsolute target then [] else directory)
        (Path.steps target ++ rest)

def maxLinks : Nat := 40

/-- Paths that no tree has: with a U+0000, without any name, or too long. -/
def checkPath (path : String) : Except Fault Unit :=
  if path.toList.contains '\x00' then .error .nulInName
  else if path = "" then .error .notFound
  else if 4096 ≤ path.utf8ByteSize then .error .nameTooLong
  else .ok ()

def start (disk : Disk) (path : String) : Location := if Path.isAbsolute path then [] else disk.here

def spot (disk : Disk) (aim : Aim) (path : String) (names : List String) : Except Fault Spot := do
  checkPath path
  disk.walk aim maxLinks (disk.start path) names

def find (disk : Disk) (path : String) : Except Fault Location := do
  match ← disk.spot .node path (Path.steps path) with
  | .present location => .ok location
  | .absent _ _ => .error .notFound

def isDirectory (disk : Disk) (path : String) : Bool :=
  match disk.find path with
  | .ok location => disk.get? location = some .directory
  | .error _ => false

def file (disk : Disk) (path : String) : Except Fault (Location × File) := do
  let location ← disk.find path
  match disk.get? location with
  | some (.file file) => .ok (location, file)
  | _ => .error .isDirectory

def read (disk : Disk) (path : String) : Except Fault ByteArray := do
  let (_, file) ← disk.file path
  return file.bytes

def bytes? (disk : Disk) (place : Location) : Option ByteArray :=
  match disk.get? place with
  | some (.file file) => some file.bytes
  | _ => none

/-- Makes a file or replaces its content. A file that exists keeps its permissions. -/
def write (disk : Disk) (path : String) (bytes : ByteArray) : Except Fault Disk := do
  match ← disk.spot .write path (Path.steps path) with
  | .absent directory name =>
    return disk.put (directory ++ [name]) (.file ⟨bytes, disk.clock, false⟩)
  | .present location =>
    match disk.get? location with
    | some (.file old) => return disk.put location (.file ⟨bytes, disk.clock, old.ownerOnly⟩)
    | _ => .error .isDirectory

def update (disk : Disk) (path : String) (change : File → File) : Except Fault Disk := do
  let (location, file) ← disk.file path
  return disk.put location (.file (change file))

def makeDirectory (disk : Disk) (path : String) : Except Fault Disk := do
  let names := Path.names path
  if names.getLast?.all fun last => last = "." || last = ".." then
    let _ ← disk.spot .node path (names ++ ["."])
    .error .alreadyExists
  else
    match ← disk.spot .last path names with
    | .present _ => .error .alreadyExists
    | .absent directory name => return disk.put (directory ++ [name]) .directory

def pathOf (absolute : Bool) (names : List String) : String :=
  (if absolute then "/" else "") ++ "/".intercalate names

/-- Makes one directory; one that could not be made may be there all the same. -/
def makeOrFind (disk : Disk) (path : String) : Except Fault Unit × Disk :=
  match disk.makeDirectory path with
  | .ok made => (.ok (), made)
  | .error fault => (if disk.isDirectory path then .ok () else .error fault, disk)

/-- Makes the directory at a path, after those above it if they are missing. The names above it are
given last one first. -/
def makeChain (disk : Disk) (absolute : Bool) (path : String) :
    List String → Except Fault Unit × Disk
  | [] => disk.makeOrFind path
  | name :: higher =>
    match disk.makeDirectory path with
    | .error .notFound =>
      match disk.makeChain absolute (pathOf absolute (name :: higher).reverse) higher with
      | (.ok (), made) => made.makeOrFind path
      | (.error fault, made) => (.error fault, made)
    | _ => disk.makeOrFind path

/-- Makes a directory and those above it that are missing. The empty path needs none. -/
def makeDirectories (disk : Disk) (path : String) : Except Fault Unit × Disk :=
  if path = "" then (.ok (), disk)
  else
    let above := ((Path.names path).filter (· ≠ ".")).dropLast
    disk.makeChain (Path.isAbsolute path) path above.reverse

def remove (disk : Disk) (path : String) : Except Fault Disk := do
  match ← disk.spot .last path (Path.steps path) with
  | .absent _ _ => .error .notFound
  | .present location =>
    if disk.get? location = some .directory then .error .isDirectory
    else return disk.erase location

def makeLink (disk : Disk) (path target : String) : Except Fault Disk := do
  match ← disk.spot .last path (Path.steps path) with
  | .present _ => .error .alreadyExists
  | .absent directory name => return disk.put (directory ++ [name]) (.link target)

def children (disk : Disk) (location : Location) : List (String × Node) :=
  disk.nodes.filterMap fun (place, node) =>
    match place.getLast? with
    | some name => if place.dropLast = location then some (name, node) else none
    | none => none

def list (disk : Disk) (path : String) : Except Fault (List (String × Node)) := do
  let location ← disk.find path
  if disk.get? location = some .directory then return disk.children location
  else .error .notDirectory

/-- Everything below a place, under the names from there, a directory before what is in it and
names in ascending order. -/
def below (disk : Disk) (location : Location) : List (List String × Node) :=
  (disk.nodes.filterMap fun (place, node) =>
    if location.isPrefixOf place ∧ place ≠ location then some (place.drop location.length, node)
    else none).mergeSort fun a b => !b.1.lex a.1 (· < ·)

end Disk
end Appliance
