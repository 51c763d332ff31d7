import Appliance.Repository.KeyStore
import Appliance.Text.Cut

/-! Pushing packages to an app in a bucket of an organisation. A package is sent only when its key
is there and the package is a file. Its length is what the machine says of it before it is opened;
its bytes are read while it is sent. -/
namespace Appliance

structure Target where
  organisation : String
  bucket : String
  app : String
  deriving DecidableEq, Repr

namespace Target

def read (text : String) : Except RepositoryError Target :=
  match (Text.cut '/' text.toList).map String.ofList with
  | [organisation, bucket, app] =>
    if organisation ≠ "" ∧ bucket ≠ "" ∧ app ≠ "" then .ok ⟨organisation, bucket, app⟩
    else .error (.invalidTarget text)
  | _ => .error (.invalidTarget text)

def text (target : Target) : String :=
  target.organisation ++ "/" ++ target.bucket ++ "/" ++ target.app

def trimSlashes (repository : String) : String :=
  String.ofList (repository.toList.reverse.dropWhile (· = '/')).reverse

def url (repository : String) (target : Target) : String :=
  trimSlashes repository ++ "/organisations/" ++ target.organisation ++ "/buckets/" ++
    target.bucket ++ "/apps/" ++ target.app

end Target

/-- A package that is to be sent, with the length it is announced with. -/
structure Upload where
  url : String
  token : String
  body : Body
  length : Nat

structure Delivery where
  url : String
  token : String
  body : ByteArray

structure Reply where
  status : UInt16
  reason : String
  body : String

/-- Only one status means that the upload was taken. -/
def Reply.check (reply : Reply) : Except RepositoryError Unit :=
  if reply.status = 200 then .ok ()
  else
    let line := reply.status.toNat.repr ++ " " ++ reply.reason
    .error (.uploadFailed (String.ofList (Text.trimEnd line.toList)) reply.body)

structure Order where
  repository : String
  target : Target
  source : String
  /-- the name of the key; the default key if there is none -/
  key : Option String

structure Receipt where
  url : String
  bytes : Nat
  deriving DecidableEq

namespace Order

variable {m : Type → Type} [Monad m] [Host m]

/-- Looks up the key, then opens the package. -/
def prepare (store : KeyStore) (order : Order) : ExceptT RepositoryError m Upload := do
  let token ← store.resolve order.key
  match ← Host.info order.source with
  | .error .notFound => throw (.sourceMissing order.source)
  | .error fault => throw (.access order.source fault)
  | .ok info =>
    if !info.isRegular then throw (.sourceMissing order.source)
    let body ← attempt (.access order.source) (Host.openFile order.source)
    return ⟨order.target.url order.repository, token, body, info.length⟩

def push (store : KeyStore) (send : Upload → ExceptT RepositoryError m Unit) (order : Order) :
    ExceptT RepositoryError m Receipt := do
  let upload ← order.prepare store
  send upload
  return ⟨upload.url, upload.length⟩

end Order

structure Outbox where
  reply : Reply := ⟨200, "OK", ""⟩
  uploads : List Delivery := []

namespace Outbox

variable {m : Type → Type} [Monad m]

/-- Reads the body and keeps it, whatever the answer is; the announced length plays no part. -/
def send (upload : Upload) : ExceptT RepositoryError (StateT Outbox m) Unit := do
  let body ← upload.body.mapError fun fault => RepositoryError.transport fault.text
  modify fun outbox =>
    { outbox with uploads := outbox.uploads ++ [⟨upload.url, upload.token, body⟩] }
  (← get).reply.check

end Outbox

end Appliance
