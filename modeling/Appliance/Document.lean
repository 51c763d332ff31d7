import Appliance.Data.Ascending
import Appliance.Interface
import Appliance.Size
import Appliance.Time

/-! The description of an appliance. Every field may be absent; an absent text is empty, an absent
number zero, an absent switch off. -/
namespace Appliance

inductive Privilege where
  | root | superuser | user
  deriving DecidableEq, Repr

inductive Console where
  | standard | screen | serial | disabled
  deriving DecidableEq, Repr

inductive RootFs where
  | ext2 | xfs | fat
  deriving DecidableEq, Repr

structure Program where
  binary : String := ""
  args : String := ""
  env : List String := []
  cwd : String := ""
  stdout : String := ""
  stderr : String := ""
  bootstrap : List String := []
  logfiles : List String := []
  privilege : Option Privilege := none
  strace : Bool := false
  deriving DecidableEq

structure Settings where
  dns : List Entry := []
  ntp : List Entry := []
  hostname : String := ""
  maxFds : UInt32 := 0
  console : Option Console := none
  kernelArgs : String := ""
  rootFs : Option RootFs := none
  user : String := ""
  deriving DecidableEq

structure Package where
  name : String := ""
  author : String := ""
  summary : String := ""
  description : String := ""
  url : String := ""
  date : String := ""
  version : String := ""
  deriving DecidableEq

structure Machine where
  cpus : UInt32 := 0
  ram : Size := {}
  inodes : UInt64 := 0
  kernel : String := ""
  diskSize : Size := {}
  deriving DecidableEq

structure Mount where
  point : String := ""
  server : String := ""
  options : String := ""
  deriving DecidableEq

structure Route where
  interface : String := ""
  destination : String := ""
  gateway : String := ""
  deriving DecidableEq

structure LogSink where
  config : List String := []
  kind : String := ""
  deriving DecidableEq

instance : Inhabited Program := ⟨{}⟩
instance : Inhabited Settings := ⟨{}⟩
instance : Inhabited Package := ⟨{}⟩
instance : Inhabited Machine := ⟨{}⟩
instance : Inhabited Mount := ⟨{}⟩
instance : Inhabited Route := ⟨{}⟩
instance : Inhabited LogSink := ⟨{}⟩

structure Document where
  programs : List Program := []
  interfaces : List Interface := []
  settings : Settings := {}
  package : Package := {}
  machine : Machine := {}
  mounts : List Mount := []
  routes : List Route := []
  logs : List LogSink := []
  parameters : Parameters := .empty
  /-- when the content last changed; no part of the content -/
  changed : Option Time := none
  deriving DecidableEq

namespace Document

instance : Inhabited Document := ⟨{}⟩

def content (doc : Document) : Document := { doc with changed := none }

def sameContent (a b : Document) : Bool := a.content = b.content

end Document
end Appliance
