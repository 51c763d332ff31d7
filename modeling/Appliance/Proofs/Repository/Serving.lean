import Appliance.Proofs.Repository.KeyStore

/-! A key store is a ring of keys: whatever it is asked, it answers as the ring does, and its
directory holds the keys of the ring and nothing else. -/
namespace Appliance
namespace KeyStore

variable {store : KeyStore} {ring : KeyRing} {place : Location} {disk : Disk} {name : String}

/-- Does a program come to a result on a tree, and leave the keys of a ring to its store? If it
fails, it leaves all files as they are. -/
def Comes {α : Type} (store : KeyStore) (disk : Disk)
    (program : ExceptT RepositoryError (StateM Disk) α)
    (expected : Except RepositoryError α × KeyRing) : Prop :=
  ∃ after, program.run.run disk = (expected.1, after) ∧ store.Has expected.2 after ∧
    ∀ error, expected.1 = .error error → after.SameFiles disk

section

variable {α : Type} {program : ExceptT RepositoryError (StateM Disk) α} {after : Disk}

theorem comes_of_ok {a : α}
    (done : ∃ after, program.run.run disk = (.ok a, after) ∧ store.Holds ring place after) :
    store.Comes disk program (.ok a, ring) := by
  obtain ⟨after, ran, holds⟩ := done
  exact ⟨after, ran, .inl ⟨place, holds⟩, fun _ failed => nomatch failed⟩

theorem comes_of_error {error : RepositoryError}
    (ran : program.run.run disk = (.error error, after))
    (has : store.Has ring after) (same : after.SameFiles disk) :
    store.Comes disk program (.error error, ring) :=
  ⟨after, ran, has, fun _ _ => same⟩

end

namespace Has

variable (has : store.Has ring disk)
include has

theorem delete (main : ¬ store.Refuses defaultName)
    (allowed : ¬ KeyRing.Reserved name → ¬ store.Refuses name) :
    store.Comes disk (store.delete name) (ring.delete name) := by
  rw [KeyRing.delete]
  split
  next reserved =>
    refine comes_of_error ?_ has (.refl disk)
    rw [KeyStore.delete, run_checkName, if_pos reserved]
  next reserved =>
    have isName := isName_of_not_reserved reserved
    have found := has.run_readIfPresent isName (allowed reserved)
    rw [KeyRing.slot_of_ne (ne_default_of_not_reserved reserved)] at found
    split
    next none =>
      refine comes_of_error ?_ has (.refl disk)
      rw [KeyStore.delete, run_checkName, if_neg reserved, run_bind, found, none]
      rfl
    next token some =>
      have foundMain := has.run_readIfPresent isName_default main
      have same : (ring.default.map String.toUTF8).map ByteArray.data = .some token.toUTF8.data ↔
          ring.default = .some token := by
        cases ring.default with
        | none => simp
        | some other => simp [← ByteArray.ext_iff, String.toByteArray_inj]
      rw [KeyRing.slot_default] at foundMain
      have ne := ne_default_of_not_reserved reserved
      obtain ⟨place, holds⟩ := has.holds_of_lookup some
      have there : (ring.slot name).isSome := by rw [KeyRing.slot_of_ne ne, some]; rfl
      refine comes_of_ok (?_ : ∃ after, _ ∧ store.Holds _ place after)
      rw [KeyStore.delete, run_checkName, if_neg reserved, run_bind, found, some]
      simp only [Option.map_some]
      rw [run_bind, foundMain]
      simp only [same]
      by_cases isMain : ring.default = .some token
      · have dropped := holds.drop defaultName
        have first := holds.run_remove isName_default main
          (by rw [KeyRing.slot_default, isMain]; rfl) (.access (store.path defaultName))
        have second := dropped.run_remove isName (allowed reserved)
          (by rwa [KeyRing.slot_drop, if_neg ne]) (.access (store.path name))
        refine ⟨_, ?_, by simpa [KeyRing.drop, ne, isMain] using dropped.drop name⟩
        rw [if_pos isMain, run_bind, first]
        dsimp only
        rw [run_bind, second]
        rfl
      · have second := holds.run_remove isName (allowed reserved) there (.access (store.path name))
        refine ⟨_, ?_, by simpa [KeyRing.drop, ne, isMain] using holds.drop name⟩
        rw [if_neg isMain, run_bind, second]
        rfl

theorem create (main : ¬ store.Refuses defaultName) (token : String) (options : KeyOptions)
    (allowed : ¬ KeyRing.Reserved name → ¬ store.Refuses name) :
    store.Comes disk (store.create name token options) (ring.create name token options) := by
  rw [KeyRing.create]
  split
  next reserved =>
    refine comes_of_error ?_ has (.refl disk)
    rw [KeyStore.create, run_checkName, if_pos reserved]
  next reserved =>
    have isName := isName_of_not_reserved reserved
    have ne := ne_default_of_not_reserved reserved
    obtain ⟨made, place, ready, holds, same⟩ := has.make
    have inTheWay : options.force = false ∧ (made.info (store.path name)).isOk ↔
        name ∈ ring.tokens ∧ options.force = false := by
      rw [holds.isOk_info isName (allowed reserved), KeyRing.slot_of_ne ne, Finmap.lookup_isSome,
        and_comm]
    have ran := run_create_of_made reserved ready token options
    split
    next taken =>
      rw [if_pos (inTheWay.2 taken)] at ran
      exact comes_of_error ran (.inl ⟨place, holds⟩) same
    next free =>
      rw [if_neg fun there => free (inTheWay.1 there)] at ran
      obtain ⟨after, written, kept⟩ :=
        holds.run_writeSecrets isName (allowed reserved) main token options.makeDefault
      have both : (if options.makeDefault then (ring.keep name token).keep defaultName token
          else ring.keep name token) = {
            tokens := ring.tokens.insert name token
            default := if options.makeDefault then some token else ring.default } := by
        cases options.makeDefault <;> simp [KeyRing.keep, ne]
      exact comes_of_ok ⟨after, ran.trans written, both ▸ kept⟩

section Refused

variable (isKey : ¬ KeyRing.Reserved name) (refused : store.Refuses name)
include isKey refused

theorem token_of_refuses : ∃ error, store.Comes disk (store.token name) (.error error, ring) := by
  obtain ⟨fault, failed⟩ := has.read_of_refuses (isName_of_not_reserved isKey) refused
  have ran : ∃ error, (store.token name :
      ExceptT RepositoryError (StateM Disk) String).run.run disk = (.error error, disk) := by
    rw [KeyStore.token, run_checkName, if_neg isKey, run_bind, readToken, run_bind,
      KeyStore.run_readIfPresent, failed]
    cases fault <;> exact ⟨_, rfl⟩
  exact ran.imp fun _ ran => comes_of_error ran has (.refl disk)

theorem delete_of_refuses : ∃ error, store.Comes disk (store.delete name) (.error error, ring) := by
  obtain ⟨fault, failed⟩ := has.read_of_refuses (isName_of_not_reserved isKey) refused
  have ran : ∃ error, (store.delete name :
      ExceptT RepositoryError (StateM Disk) Bool).run.run disk = (.error error, disk) := by
    rw [KeyStore.delete, run_checkName, if_neg isKey, run_bind, KeyStore.run_readIfPresent, failed]
    cases fault <;> exact ⟨_, rfl⟩
  exact ran.imp fun _ ran => comes_of_error ran has (.refl disk)

theorem create_of_refuses (token : String) (options : KeyOptions) :
    ∃ error, store.Comes disk (store.create name token options) (.error error, ring) := by
  have isName := isName_of_not_reserved isKey
  obtain ⟨made, place, ready, holds, same⟩ := has.make
  obtain ⟨fault, unseen⟩ := holds.spot_of_refuses isName refused .node
  obtain ⟨stop, unwritten⟩ := holds.spot_of_refuses isName refused .write
  have ran := run_create_of_made isKey ready token options
  have free : (made.info (store.path name)).isOk = false := by
    rw [Disk.info_of_spot unseen]
    rfl
  rw [if_neg (by simp [free]), run_bind,
    run_writeSecret_of_unwritten (Disk.write_of_spot unwritten token.toUTF8)] at ran
  exact ⟨.access (store.path name) stop, comes_of_error ran (.inl ⟨place, holds⟩) same⟩

end Refused

end Has

/-! Calls. -/

def call (store : KeyStore) : KeyCall → ExceptT RepositoryError (StateM Disk) KeyAnswer
  | .create name token options => (fun _ => .done) <$> store.create name token options
  | .delete name => .deleted <$> store.delete name
  | .token name => .token <$> store.token name
  | .resolve key => .token <$> store.resolve key
  | .list => .names <$> store.list

def refusesCall (store : KeyStore) (call : KeyCall) : Bool :=
  call.name.any fun name => ¬ KeyRing.Reserved name ∧ store.Refuses name

theorem Comes.map {α β : Type} {program : ExceptT RepositoryError (StateM Disk) α} {f : α → β}
    {result : Except RepositoryError α} (comes : store.Comes disk program (result, ring)) :
    store.Comes disk (f <$> program) (result.map f, ring) := by
  obtain ⟨after, ran, has, same⟩ := comes
  refine ⟨after, by rw [run_map, ran], has, fun error failed => ?_⟩
  cases result with
  | error first => exact same first rfl
  | ok a => exact nomatch failed

theorem comes_about {α β : Type} {program : ExceptT RepositoryError (StateM Disk) α} {f : α → β}
    {result : Except RepositoryError α} {next : KeyRing}
    (fails : ¬ KeyRing.Reserved name → store.Refuses name →
      ∃ error, store.Comes disk program (.error error, ring))
    (works : (¬ KeyRing.Reserved name → ¬ store.Refuses name) →
      store.Comes disk program (result, next)) :
    if decide (¬ KeyRing.Reserved name ∧ store.Refuses name) then
      ∃ error, store.Comes disk (f <$> program) (.error error, ring)
    else store.Comes disk (f <$> program) (result.map f, next) := by
  split
  next refused =>
    obtain ⟨isKey, refused⟩ := of_decide_eq_true refused
    exact (fails isKey refused).imp fun _ comes => comes.map
  next allowed =>
    exact (works fun isKey refused => allowed (decide_eq_true ⟨isKey, refused⟩)).map

/-- One call is answered as the ring answers it. A call with a name that the machine refuses fails,
and the ring stays. -/
theorem Has.call (has : store.Has ring disk) (main : ¬ store.Refuses defaultName) (call : KeyCall) :
    if store.refusesCall call then
      ∃ error, store.Comes disk (store.call call) (.error error, ring)
    else store.Comes disk (store.call call) (ring.call call) := by
  have unchanged {α : Type} {program : ExceptT RepositoryError (StateM Disk) α}
      {result : Except RepositoryError α} (ran : program.run.run disk = (result, disk)) :
      store.Comes disk program (result, ring) :=
    ⟨disk, ran, has, fun _ _ => .refl disk⟩
  cases call with
  | create name token options =>
    exact comes_about (fun isKey refused => has.create_of_refuses isKey refused token options)
      (has.create main token options)
  | delete name => exact comes_about has.delete_of_refuses (has.delete main)
  | token name =>
    exact comes_about has.token_of_refuses fun allowed => unchanged (has.run_token allowed)
  | resolve key =>
    cases key with
    | some name =>
      exact comes_about has.token_of_refuses fun allowed => unchanged (has.run_token allowed)
    | none => exact (unchanged (has.run_resolve_none main)).map
  | list => exact (unchanged has.run_list).map

/-! Runs. -/

def Shows (store : KeyStore) (ring : KeyRing) (disk : Disk) : Prop :=
  ∀ name, Path.IsName name → ¬ store.Refuses name →
    disk.read (store.path name) =
      match ring.slot name with
      | some token => .ok token.toUTF8
      | none => .error .notFound

/-- Does a store answer one call after another as a ring does, with the keys of the ring in its
files? A call that fails leaves all files of the tree as they are, and so does one with a name that
the machine refuses, which always fails. -/
def Serves (store : KeyStore) (ring : KeyRing) (disk : Disk) : List KeyCall → Prop
  | [] => store.Shows ring disk
  | call :: calls =>
    store.Shows ring disk ∧ ∃ answer after,
      (store.call call).run.run disk = (answer, after) ∧
      (∀ error, answer = .error error → after.SameFiles disk) ∧
      if store.refusesCall call then
        (∃ error, answer = .error error) ∧ store.Serves ring after calls
      else answer = (ring.call call).1 ∧ store.Serves (ring.call call).2 after calls

theorem Has.serves (has : store.Has ring disk) (main : ¬ store.Refuses defaultName)
    (calls : List KeyCall) : store.Serves ring disk calls := by
  have shows {ring disk} (has : store.Has ring disk) : store.Shows ring disk :=
    fun _ isName allowed => has.read isName allowed
  -- After a call that fails the tree may have gained directories, but it has the same ring.
  induction calls generalizing ring disk with
  | nil => exact shows has
  | cons call calls ih =>
    have step := has.call main call
    by_cases refused : store.refusesCall call
    · rw [if_pos refused] at step
      obtain ⟨error, after, ran, next, same⟩ := step
      refine ⟨shows has, _, after, ran, same, ?_⟩
      rw [if_pos refused]
      exact ⟨⟨error, rfl⟩, ih next⟩
    · rw [if_neg refused] at step
      obtain ⟨after, ran, next, same⟩ := step
      refine ⟨shows has, _, after, ran, same, ?_⟩
      rw [if_neg refused]
      exact ⟨rfl, ih next⟩

/-! Where a store may start. -/

theorem holds_of_leadsToEmpty (leads : disk.LeadsToEmpty store.directory) :
    ∃ place, store.Holds {} place disk := by
  obtain ⟨place, leads, empty⟩ := leads
  have none := Disk.children_eq_nil empty
  refine ⟨place, ⟨leads, fun name node there => ?_⟩, fun name => ?_, ?_, ?_⟩
  · exact nomatch (empty name).symm.trans there
  · rw [Disk.bytes?, empty, KeyRing.slot_empty]
    rfl
  · simp [none]
  · exact Finmap.notMem_empty

theorem has_of_clear (clear : disk.Clear store.directory) : store.Has {} disk := by
  rcases clear with leads | ⟨missing, made, ran, leads⟩
  · exact .inl (holds_of_leadsToEmpty leads)
  · obtain ⟨place, holds⟩ := holds_of_leadsToEmpty leads
    exact .inr ⟨rfl, missing, made, place, ran, holds⟩

/-- A store whose directory is empty, or is to be made and empty then, serves as a ring of keys from
the empty ring on, whatever it is asked. A directory can be made at every path of proper names that
has nothing or directories at them; the path of the default key has to be one that the machine
takes. -/
theorem serves_as_ring (main : (store.path defaultName).utf8ByteSize < 4096)
    (start : disk.Clear store.directory ∨ disk.Plain store.directory ∧ ∀ name,
      disk.get? (disk.start store.directory ++ Path.names store.directory ++ [name]) = none)
    (calls : List KeyCall) : store.Serves {} disk calls := by
  have clear : disk.Clear store.directory := start.elim id fun ⟨plain, empty⟩ => plain.clear empty
  have allowed : ¬ store.Refuses defaultName := by
    rintro (long | zero | long)
    · exact absurd long (by decide)
    · exact absurd zero (by decide)
    · exact absurd long (Nat.not_le.2 main)
  exact (has_of_clear clear).serves allowed calls

/-- The first keys below a directory that is not there yet. -/
theorem serves_first_keys :
    (KeyStore.path ⟨"/keys"⟩ defaultName).utf8ByteSize < 4096 ∧ Disk.Plain {} "/keys" ∧
      (∀ name, Disk.get? {} (Disk.start {} "/keys" ++ Path.names "/keys" ++ [name]) = none) ∧
      Serves ⟨"/keys"⟩ {} {} [.create "alpha" "tok\n" { makeDefault := true }, .token "alpha",
        .create "beta" "other" {}, .create "alpha" "again" {}, .list, .delete "alpha",
        .resolve none] := by
  have names : Path.names "/keys" = ["keys"] := by cbv
  have starts : Disk.start {} "/keys" = [] := by cbv
  have plain : Disk.Plain {} "/keys" := by
    refine ⟨Disk.checkPath_eq_ok.2 (by decide), ?_, ?_, ?_⟩
    · rw [names]
      decide
    · rw [starts]
      rfl
    · rw [names, starts]
      intro above shorter
      rw [← List.mem_inits] at shorter
      revert above
      decide
  have empty : ∀ name,
      Disk.get? {} (Disk.start {} "/keys" ++ Path.names "/keys" ++ [name]) = none := by
    intro name
    simp [Disk.get?]
  exact ⟨by decide, plain, empty, serves_as_ring (by decide) (.inr ⟨plain, empty⟩) _⟩

/-! Where a store is no ring: directories that cannot be made, and paths too long for a key. -/

theorem run_resolve_none_of_long (long : 4096 ≤ (store.path defaultName).utf8ByteSize)
    (clean : '\x00' ∉ (store.path defaultName).toList) :
    (store.resolve none : ExceptT RepositoryError (StateM Disk) String).run.run disk =
      (.error (.access (store.path defaultName) .nameTooLong), disk) := by
  have refused : Disk.checkPath (store.path defaultName) = .error .nameTooLong := by
    have filled : store.path defaultName ≠ "" := by
      rintro none
      simp [none] at long
    simp [Disk.checkPath, clean, filled, long]
  rw [KeyStore.resolve, run_bind, readToken, run_bind, run_readIfPresent,
    Disk.read_of_spot (Disk.spot_of_checkPath refused)]

section Slashes

variable {count : Nat}

theorem slashes_ne_empty (count : Nat) : "k" ++ String.ofList (List.replicate count '/') ≠ "" := by
  simp

theorem utf8ByteSize_slashes (count : Nat) :
    ("k" ++ String.ofList (List.replicate count '/')).utf8ByteSize = 1 + count := by
  rw [String.utf8ByteSize_append, Path.utf8ByteSize_slashes]
  rfl

theorem find_slashes (short : count < 4095) :
    Disk.find {} ("k" ++ String.ofList (List.replicate count '/')) = .error .notFound := by
  have names : Path.names ("k" ++ String.ofList (List.replicate count '/')) = ["k"] := by
    rw [Path.names_append_slashes]
    cbv
  have starts : Disk.start {} ("k" ++ String.ofList (List.replicate count '/')) = [] := by
    rw [Disk.start]
    split <;> rfl
  rw [Disk.find_eq_notFound (slashes_ne_empty count), Disk.checkPath_eq_ok, names,
    utf8ByteSize_slashes, starts]
  exact ⟨⟨by simp, slashes_ne_empty count, by omega⟩, .inr ⟨[], "k", rfl⟩⟩

theorem run_resolve_none_slashes (long : 4088 ≤ count) :
    (resolve ⟨"k" ++ String.ofList (List.replicate count '/')⟩ none :
      ExceptT RepositoryError (StateM Disk) String).run.run disk =
      (.error (.access (path ⟨"k" ++ String.ofList (List.replicate count '/')⟩ defaultName)
        .nameTooLong), disk) := by
  have filled := slashes_ne_empty count
  apply run_resolve_none_of_long
  · have size := Path.utf8ByteSize_join filled isName_default
    rw [utf8ByteSize_slashes] at size
    exact le_trans (show 4096 ≤ 1 + count + 7 by omega) size
  · rw [path, Path.mem_join filled isName_default (by decide)]
    simp [defaultName]

end Slashes

/-- A directory that is missing below nothing but directories is not enough. Nothing can be kept
where the path ends in a dot, because directories are not made at such a path; and where the path
is so long that the machine takes none with the default key's name, that key is not just missing. -/
theorem exists_store_that_is_no_ring :
    (∃ (store : KeyStore) (disk : Disk) (name token : String),
      store.directory ≠ "" ∧ disk.find store.directory = .error .notFound ∧
      (∀ place node, disk.get? place = some node → node = .directory) ∧
      ¬ KeyRing.Reserved name ∧ ¬ store.Refuses name ∧
      ((store.create name token {} : ExceptT RepositoryError (StateM Disk) Unit).run.run disk).1 =
        .error (.access store.directory .notFound) ∧
      (({} : KeyRing).create name token {}).1 = .ok ()) ∧
    ∃ (store : KeyStore) (disk : Disk),
      store.directory ≠ "" ∧ disk.find store.directory = .error .notFound ∧
      (∀ place node, disk.get? place = some node → node = .directory) ∧
      ((store.resolve none : ExceptT RepositoryError (StateM Disk) String).run.run disk).1 =
        .error (.access (store.path defaultName) .nameTooLong) ∧
      ({} : KeyRing).resolve none = .error .noDefaultKey := by
  have bare : ∀ place node, Disk.get? {} place = some node → node = .directory := by
    intro place node there
    by_cases root : place = [] <;> simp_all [Disk.get?]
  have names : Path.names "d/." = ["d", "."] := by cbv
  have missing : Disk.find {} "d/." = .error .notFound := by
    rw [Disk.find_eq_notFound (by decide), names]
    exact ⟨rfl, .inl rfl⟩
  have unmade := Disk.makeDirectories_of_dot names (by decide) missing
  refine ⟨⟨⟨"d/."⟩, {}, "k", "t", by decide, missing, bare, by decide, by decide, ?_, by decide⟩,
    ⟨"k" ++ String.ofList (List.replicate 4090 '/')⟩, {}, slashes_ne_empty 4090,
    find_slashes (by decide), bare, ?_, rfl⟩
  · rw [run_create_of_unmade (by decide) unmade]
  · rw [run_resolve_none_slashes (by decide)]

end KeyStore
end Appliance
