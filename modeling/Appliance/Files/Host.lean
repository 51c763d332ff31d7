import Appliance.Files.Disk

/-! What a program asks of the machine that it runs on. Programs are written over any machine; a
file tree is one, and the outer layer has the real one. -/
namespace Appliance

structure FileInfo where
  isRegular : Bool
  length : Nat
  modified : Time

/-- What reading an open file to its end gives; a file that could be opened need not be readable. -/
abbrev Body := Except Fault ByteArray

/-- The operations of a machine. Links are followed, except by `remove` and in what `list` says. -/
class Host (m : Type → Type) where
  now : m Time
  read : String → m (Except Fault ByteArray)
  openFile : String → m (Except Fault Body)
  info : String → m (Except Fault FileInfo)
  /-- the names in a directory, and whether each is a regular file -/
  list : String → m (Except Fault (List (String × Bool)))
  write : String → ByteArray → m (Except Fault Unit)
  protect : String → m (Except Fault Unit)
  makeDirectories : String → m (Except Fault Unit)
  remove : String → m (Except Fault Unit)

namespace Disk

def info (disk : Disk) (path : String) : Except Fault FileInfo := do
  let location ← disk.find path
  match disk.get? location with
  | some (.file file) => return ⟨true, file.bytes.size, file.modified⟩
  | _ => return ⟨false, 0, disk.clock⟩

/-- Anything that a path leads to opens, a directory too, but only a file can be read. -/
def openFile (disk : Disk) (path : String) : Except Fault Body := do
  let place ← disk.find path
  match disk.bytes? place with
  | some bytes => return .ok bytes
  | none => return .error .isDirectory

def change (step : Disk → Except Fault Disk) (disk : Disk) : Except Fault Unit × Disk :=
  match step disk with
  | .ok disk => (.ok (), disk)
  | .error fault => (.error fault, disk)

instance : Host (StateM Disk) where
  now disk := (disk.clock, disk)
  read path disk := (disk.read path, disk)
  openFile path disk := (disk.openFile path, disk)
  info path disk := (disk.info path, disk)
  list path disk := ((disk.list path).map (List.map fun (name, node) =>
    (name, match node with | .file _ => true | _ => false)), disk)
  write path bytes := change (·.write path bytes)
  protect path := change (·.update path ({ · with ownerOnly := true }))
  makeDirectories path disk := disk.makeDirectories path
  remove path := change (·.remove path)

end Disk

@[reducible] def Host.lifted {m n : Type → Type} [Host m] (lift : {α : Type} → m α → n α) :
    Host n where
  now := lift Host.now
  read path := lift (Host.read path)
  openFile path := lift (Host.openFile path)
  info path := lift (Host.info path)
  list path := lift (Host.list path)
  write path bytes := lift (Host.write path bytes)
  protect path := lift (Host.protect path)
  makeDirectories path := lift (Host.makeDirectories path)
  remove path := lift (Host.remove path)

instance {m : Type → Type} [Monad m] [Host m] {σ : Type} : Host (StateT σ m) := .lifted StateT.lift

instance {m : Type → Type} [Monad m] [Host m] {ε : Type} : Host (ExceptT ε m) :=
  .lifted ExceptT.lift

/-- An operation of the machine in a program that may fail, its fault named by what it was about. -/
def attempt {m : Type → Type} [Monad m] {ε α : Type} (name : Fault → ε)
    (operation : m (Except Fault α)) : ExceptT ε m α :=
  ExceptT.mk ((·.mapError name) <$> operation)

end Appliance
