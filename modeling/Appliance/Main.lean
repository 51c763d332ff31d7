import Appliance.Command.Run
import Std.Time.DateTime.Timestamp

/-! The program: its commands on the machine that it runs on. -/
namespace Appliance

def Fault.ofError : IO.Error → Fault
  | .noFileOrDirectory .. => .notFound
  | .alreadyExists .. => .alreadyExists
  | .inappropriateType _ 20 _ => .notDirectory
  | .inappropriateType _ 21 _ => .isDirectory
  | error => .other (toString error)

def faulty {α : Type} (operation : IO α) : IO (Except Fault α) := do
  match ← operation.toBaseIO with
  | .ok a => return .ok a
  | .error error => return .error (.ofError error)

instance : Host IO where
  now := do
    let timestamp ← Std.Time.Timestamp.now
    return ⟨timestamp.toNanosecondsSinceUnixEpoch.val⟩
  read path := faulty (IO.FS.readBinFile path)
  openFile path := faulty do
    let handle ← IO.FS.Handle.mk path .read
    faulty handle.readBinToEnd
  info path := faulty do
    let metadata ← (IO.FS.DirEntry.mk "." path).path.metadata
    return {
      isRegular := metadata.type matches .file
      length := metadata.byteSize.toNat
      modified := ⟨metadata.modified.sec * 1000000000 + metadata.modified.nsec.toNat⟩ }
  list path := faulty do
    let entries ← (IO.FS.DirEntry.mk "." path).path.readDir
    entries.toList.mapM fun entry => do
      let metadata ← entry.path.symlinkMetadata
      return (entry.fileName, metadata.type matches .file)
  write path bytes := faulty (IO.FS.writeBinFile path bytes)
  protect path :=
    faulty (IO.setAccessRights path ⟨⟨true, true, false⟩, ⟨false, false, false⟩, ⟨false, false, false⟩⟩)
  makeDirectories path := faulty (IO.FS.createDirAll path)
  remove path := faulty (IO.FS.removeFile path)

/-- No upload leaves this machine: it has no transport. -/
def noTransport (_ : Upload) : ExceptT RepositoryError IO Unit :=
  throw (.transport "no transport is available")

end Appliance

open Appliance in
def main (line : List String) : IO UInt32 := do
  let home := (← IO.getEnv "HOME").filter (· ≠ "")
  let report ← Command.runLine noTransport home line
  for message in report.messages do
    IO.eprintln message
  IO.print report.output
  return report.code.toUInt32
