import Appliance.Proofs.Files.Folder
import Appliance.Proofs.Files.Host
import Appliance.Repository.Push

/-! Pushes against a repository that keeps what it is sent. The key is looked up first and the
package second, and only with both is anything sent; so of a run of pushes the repository has
exactly the packages of those that found both, in order, and no file is changed. The length that a
receipt gives is told before the package is opened; in a file tree it is the number of the bytes
that arrive. -/
namespace Appliance

namespace Disk

theorem looks_read {τ ε : Type} (path : String) :
    Looks (Host.read path : ExceptT ε (StateT τ (StateM Disk)) (Except Fault ByteArray))
      (Host.read path) :=
  .lift fun _ => rfl

theorem looks_info {τ ε : Type} (path : String) :
    Looks (Host.info path : ExceptT ε (StateT τ (StateM Disk)) (Except Fault FileInfo))
      (Host.info path) :=
  .lift fun _ => rfl

def content? (disk : Disk) (path : String) : Option ByteArray :=
  (disk.find path).toOption.bind disk.bytes?

/-- Does a path lead to nothing, or to something that is no file? -/
def NoFile (disk : Disk) (path : String) : Prop :=
  disk.find path = .error .notFound ∨
    ∃ place, disk.find path = .ok place ∧ disk.bytes? place = none

section Found

variable {disk : Disk} {path : String} {place : Location} (led : disk.find path = .ok place)
include led

theorem info_of_find : disk.info path =
    match disk.get? place with
    | some (.file file) => .ok ⟨true, file.bytes.size, file.modified⟩
    | _ => .ok ⟨false, 0, disk.clock⟩ := by
  rw [info, led]
  rfl

theorem openFile_of_find : disk.openFile path =
    match disk.bytes? place with
    | some bytes => .ok (.ok bytes)
    | none => .ok (.error .isDirectory) := by
  rw [openFile, led]
  rfl

end Found

/-- What is told of a path without reading says whether it leads to a file, and how many bytes the
file has. -/
theorem info_cases (disk : Disk) (path : String) :
    (∃ bytes modified, disk.content? path = some bytes ∧
      disk.info path = .ok ⟨true, bytes.size, modified⟩ ∧ disk.openFile path = .ok (.ok bytes)) ∨
    disk.content? path = none ∧ ((∃ modified, disk.info path = .ok ⟨false, 0, modified⟩) ∨
      ∃ fault, disk.info path = .error fault ∧ (disk.NoFile path → fault = .notFound)) := by
  rcases led : disk.find path with fault | place
  · have failed : disk.info path = .error fault := by
      rw [info, led]
      rfl
    exact .inr ⟨by rw [content?, led]; rfl, .inr ⟨fault, failed, by simp [NoFile, led]⟩⟩
  · have content : disk.content? path = disk.bytes? place := by
      rw [content?, led]
      rfl
    rw [content, info_of_find led, openFile_of_find led, bytes?]
    rcases disk.get? place with _ | (_ | file | _)
    · exact .inr ⟨rfl, .inl ⟨_, rfl⟩⟩
    · exact .inr ⟨rfl, .inl ⟨_, rfl⟩⟩
    · exact .inl ⟨file.bytes, file.modified, rfl, rfl, rfl⟩
    · exact .inr ⟨rfl, .inl ⟨_, rfl⟩⟩

end Disk

namespace KeyStore

variable {τ : Type}

theorem looks_checkName (name : String) :
    Looks (checkName name : ExceptT RepositoryError (StateT τ (StateM Disk)) Unit)
      (checkName name) := by
  unfold checkName
  split
  · exact .pure _
  · exact .throw _

theorem looks_readToken (path : String) :
    Looks (readToken path : ExceptT RepositoryError (StateT τ (StateM Disk)) (Option String))
      (readToken path) := by
  have bytes : Looks
      (readIfPresent path :
        ExceptT RepositoryError (StateT τ (StateM Disk)) (Option ByteArray))
      (readIfPresent path) := by
    refine (Disk.looks_read path).bind fun read => ?_
    split
    · exact .pure _
    · exact .pure _
    · exact .throw _
  refine bytes.bind fun present => ?_
  split
  · exact .pure _
  · split
    · exact .pure _
    · exact .throw _

theorem looks_resolve (store : KeyStore) (key : Option String) :
    Looks (store.resolve key : ExceptT RepositoryError (StateT τ (StateM Disk)) String)
      (store.resolve key) := by
  cases key with
  | none =>
    refine (looks_readToken _).bind fun token => ?_
    split
    · exact .pure _
    · exact .throw _
  | some name =>
    refine (looks_checkName name).bind fun _ => (looks_readToken _).bind fun token => ?_
    split
    · exact .pure _
    · exact .throw _

end KeyStore

/-- The upload that a delivery comes of: its body can be read, and the announced length is right. -/
def Delivery.upload (delivery : Delivery) : Upload :=
  ⟨delivery.url, delivery.token, .ok delivery.body, delivery.body.size⟩

namespace Order

theorem looks_prepare {τ : Type} (store : KeyStore) (order : Order) :
    Looks (order.prepare store : ExceptT RepositoryError (StateT τ (StateM Disk)) Upload)
      (order.prepare store) := by
  have body : Looks (attempt (.access order.source) (Host.openFile order.source) :
      ExceptT RepositoryError (StateT τ (StateM Disk)) Body)
      (attempt (.access order.source) (Host.openFile order.source)) := .attempt (fun _ => rfl) _
  refine (store.looks_resolve order.key).bind fun token => (Disk.looks_info _).bind fun info => ?_
  split
  · exact .throw _
  · exact .throw _
  · dsimp only
    split
    · exact (Looks.throw _).bind fun _ => body.bind fun _ => .pure _
    · exact body.bind fun _ => .pure _

variable {store : KeyStore} {order : Order} {disk : Disk}

/-- What arrives of an order whose key can be resolved and whose package is a file. -/
def delivery? (disk : Disk) (store : KeyStore) (order : Order) : Option Delivery :=
  match outcome (store.resolve order.key) disk, disk.content? order.source with
  | .ok token, some bytes => some ⟨order.target.url order.repository, token, bytes⟩
  | _, _ => none

theorem outcome_prepare_of_error {error : RepositoryError}
    (failed : outcome (store.resolve order.key) disk = .error error) :
    outcome (order.prepare store) disk = .error error := by
  have first := (store.looks_resolve (τ := Unit) order.key).alone disk
  rw [outcome, prepare, run_bind, first, failed]

theorem outcome_prepare_of_ok {token : String}
    (resolved : outcome (store.resolve order.key) disk = .ok token) :
    (∃ bytes, disk.content? order.source = some bytes ∧ outcome (order.prepare store) disk =
      .ok (Delivery.upload ⟨order.target.url order.repository, token, bytes⟩)) ∨
    disk.content? order.source = none ∧ ∃ error, outcome (order.prepare store) disk = .error error ∧
      (disk.NoFile order.source → error = .sourceMissing order.source) := by
  have first := (store.looks_resolve (τ := Unit) order.key).alone disk
  have looked : (Host.info order.source : ExceptT RepositoryError (StateM Disk) _).run.run disk =
    (.ok (disk.info order.source), disk) := rfl
  rw [outcome, prepare, run_bind, first, resolved]
  simp only
  rw [run_bind, looked]
  -- The body can be read only where there is a file, and there the length is the right one.
  rcases disk.info_cases order.source with
    ⟨bytes, modified, content, regular, opens⟩ |
    ⟨content, ⟨modified, other⟩ | ⟨fault, failed, absent⟩⟩
  · have opened : (attempt (.access order.source) (Host.openFile order.source) :
        ExceptT RepositoryError (StateM Disk) Body).run.run disk = (.ok (.ok bytes), disk) := by
      show ((disk.openFile order.source).mapError _, disk) = _
      rw [opens]
      rfl
    refine .inl ⟨bytes, content, ?_⟩
    simp only [regular, Bool.not_true, Bool.false_eq_true, if_false]
    rw [run_bind, opened]
    rfl
  · refine .inr ⟨content, ?_⟩
    simp only [other]
    exact ⟨_, rfl, fun _ => rfl⟩
  · refine .inr ⟨content, ?_⟩
    simp only [failed]
    cases fault
    case notFound => exact ⟨_, rfl, fun _ => rfl⟩
    all_goals exact ⟨_, rfl, fun missing => Fault.noConfusion (absent missing)⟩

theorem outcome_prepare (store : KeyStore) (order : Order) (disk : Disk) :
    match order.delivery? disk store with
    | some delivery => outcome (order.prepare store) disk = .ok delivery.upload
    | none => ∃ error, outcome (order.prepare store) disk = .error error := by
  unfold delivery?
  cases resolved : outcome (store.resolve order.key) disk with
  | error error => exact ⟨error, outcome_prepare_of_error resolved⟩
  | ok token =>
    obtain ⟨bytes, content, prepared⟩ | ⟨content, error, failed, -⟩ :=
      outcome_prepare_of_ok resolved
    · simpa only [content] using prepared
    · simpa only [content] using ⟨error, failed⟩

/-- What a repository with a given reply answers to a push. Without the key it says so, whatever the
package is; without the package it fails, naming the package where there is no file; and what it is
sent it takes with one status only. -/
structure Answers (disk : Disk) (reply : Reply) (store : KeyStore) (order : Order)
    (answer : Except RepositoryError Receipt) : Prop where
  noKey : ∀ error, outcome (store.resolve order.key) disk = .error error → answer = .error error
  noPackage : ∀ token, outcome (store.resolve order.key) disk = .ok token →
    disk.content? order.source = none → (∃ error, answer = .error error) ∧
      (disk.NoFile order.source → answer = .error (.sourceMissing order.source))
  sent : ∀ delivery, order.delivery? disk store = some delivery →
    (answer = .ok ⟨delivery.url, delivery.body.size⟩ ↔ reply.status = 200) ∧
      (reply.status ≠ 200 → ∃ status, answer = .error (.uploadFailed status reply.body))

theorem answers_of_error {error : RepositoryError} {reply : Reply}
    (failed : outcome (order.prepare store) disk = .error error) :
    order.Answers disk reply store (.error error) where
  noKey _ unresolved := congrArg _ <| Except.error.inj <|
    failed.symm.trans (outcome_prepare_of_error unresolved)
  noPackage _ resolved noFile := by
    rcases outcome_prepare_of_ok resolved with ⟨_, content, -⟩ | ⟨-, other, same, named⟩
    · exact nomatch content.symm.trans noFile
    · obtain rfl := Except.error.inj (failed.symm.trans same)
      exact ⟨⟨error, rfl⟩, fun missing => congrArg _ (named missing)⟩
  sent _ found := by
    have prepared := outcome_prepare store order disk
    rw [found] at prepared
    exact nomatch failed.symm.trans prepared

theorem answers_of_ok {delivery : Delivery} (reply : Reply)
    (found : order.delivery? disk store = some delivery)
    (prepared : outcome (order.prepare store) disk = .ok delivery.upload) :
    order.Answers disk reply store
      (reply.check.map fun _ => ⟨delivery.url, delivery.body.size⟩) where
  noKey _ unresolved := nomatch prepared.symm.trans (outcome_prepare_of_error unresolved)
  noPackage _ resolved noFile := by
    rcases outcome_prepare_of_ok resolved with ⟨_, content, -⟩ | ⟨-, _, failed, -⟩
    · exact nomatch content.symm.trans noFile
    · exact nomatch prepared.symm.trans failed
  sent _ same := by
    obtain rfl := Option.some.inj (found.symm.trans same)
    unfold Reply.check
    by_cases taken : reply.status = 200
    · simp [taken, Except.map]
    · simp [taken, Except.map]

theorem run_send (delivery : Delivery) (outbox : Outbox) (disk : Disk) :
    ((Outbox.send delivery.upload :
        ExceptT RepositoryError (StateT Outbox (StateM Disk)) Unit).run.run outbox).run disk =
      ((outbox.reply.check, { outbox with uploads := outbox.uploads ++ [delivery] }), disk) := by
  show ((StateT.run (ExceptT.run (liftM outbox.reply.check :
    ExceptT RepositoryError (StateT Outbox (StateM Disk)) Unit)) _).run disk) = _
  cases outbox.reply.check <;> rfl

theorem run_push (order : Order) (store : KeyStore) (outbox : Outbox) (disk : Disk) :
    ∃ answer, order.Answers disk outbox.reply store answer ∧
      ((order.push store Outbox.send :
          ExceptT RepositoryError (StateT Outbox (StateM Disk)) Receipt).run.run outbox).run disk =
        ((answer, { outbox with
          uploads := outbox.uploads ++ (order.delivery? disk store).toList }), disk) := by
  have prepared := outcome_prepare store order disk
  rw [push, run_bind_beside, (looks_prepare store order).beside outbox disk]
  cases found : order.delivery? disk store with
  | none =>
    rw [found] at prepared
    obtain ⟨error, failed⟩ := prepared
    refine ⟨.error error, answers_of_error failed, ?_⟩
    simp only [failed, Option.toList, List.append_nil]
  | some delivery =>
    rw [found] at prepared
    refine ⟨_, answers_of_ok outbox.reply found prepared, ?_⟩
    simp only [prepared, Option.toList]
    rw [run_bind_beside, run_send]
    cases outbox.reply.check <;> rfl

end Order

/-! Runs. -/

def pushAll {m : Type → Type} [Monad m] [Host m] (pushes : List (KeyStore × Order)) :
    StateT Outbox m (List (Except RepositoryError Receipt)) :=
  pushes.mapM fun (store, order) => (order.push store Outbox.send).run

/-- Of a run of pushes each is answered, the repository keeps exactly what arrives of those that
found their key and their package, in order, and no file is changed. -/
theorem pushAll_keeps_uploads (pushes : List (KeyStore × Order)) (outbox : Outbox) (disk : Disk) :
    ∃ answers,
      List.Forall₂ (fun push answer => push.2.Answers disk outbox.reply push.1 answer)
        pushes answers ∧
      ((pushAll pushes : StateT Outbox (StateM Disk) _).run outbox).run disk =
        ((answers, { outbox with
          uploads := outbox.uploads ++
            pushes.filterMap (fun push => push.2.delivery? disk push.1) }), disk) := by
  induction pushes generalizing outbox with
  | nil =>
    refine ⟨[], .nil, ?_⟩
    rw [List.filterMap_nil, List.append_nil]
    rfl
  | cons push pushes ih =>
    obtain ⟨answer, answered, pushed⟩ := push.2.run_push push.1 outbox disk
    obtain ⟨answers, others, rest⟩ := ih { outbox with
      uploads := outbox.uploads ++ (push.2.delivery? disk push.1).toList }
    refine ⟨answer :: answers, .cons answered others, ?_⟩
    have kept : (push.2.delivery? disk push.1).toList ++
        pushes.filterMap (fun push => push.2.delivery? disk push.1) =
          (push :: pushes).filterMap fun push => push.2.delivery? disk push.1 := by
      rw [List.filterMap_cons]
      cases push.2.delivery? disk push.1 <;> rfl
    rw [pushAll, List.mapM_cons, StateT.run_bind, StateT.run_bind, pushed, ← kept,
      ← List.append_assoc]
    exact congrArg (fun reached => ((answer :: reached.1.1, reached.1.2), reached.2)) rest

end Appliance
