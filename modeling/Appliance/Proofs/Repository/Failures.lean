import Appliance.Proofs.Files.Siblings
import Appliance.Proofs.Files.Written
import Appliance.Proofs.Repository.KeyStore

/-! What a key store leaves behind when it fails. Deleting reads both files before it takes one
away, and what can be read can be taken away, so a deletion that fails has done nothing. Creating
stores the key before the default one; where only the default cannot be stored, the key stays. -/
namespace Appliance
namespace KeyStore

variable {store : KeyStore} {disk after : Disk} {name : String}

/-! Paths of a store. -/

theorem path_ne_directory (isName : Path.IsName name) : store.directory ≠ store.path name := by
  intro same
  have names := congrArg Path.names same
  rw [path, Path.names_join _ isName] at names
  simp at names

theorem path_ne_path {other : String} (isName : Path.IsName name) (isOther : Path.IsName other)
    (differs : name ≠ other) : store.path name ≠ store.path other := by
  intro same
  have names := congrArg Path.names same
  rw [path, path, Path.names_join _ isName, Path.names_join _ isOther] at names
  exact differs (by simpa using names)

/-! Writing a secret. -/

theorem run_writeSecret (path token : String) (disk : Disk) :
    (∃ fault, (writeSecret path token :
      ExceptT RepositoryError (StateM Disk) Unit).run.run disk =
        (.error (.access path fault), disk)) ∨
    ∃ made place file, (writeSecret path token :
      ExceptT RepositoryError (StateM Disk) Unit).run.run disk = (.ok (), made) ∧
        made.file path = .ok (place, file) ∧ file.bytes = token.toUTF8 ∧
        ∀ other, other ≠ place → made.get? other = disk.get? other := by
  rcases written : disk.write path token.toUTF8 with fault | half
  · exact .inl ⟨fault, run_writeSecret_of_unwritten written⟩
  · obtain ⟨made, place, file, closed, led, same, frame⟩ :=
      Disk.exists_update_of_write written ({ · with ownerOnly := true })
    exact .inr ⟨made, place, _, run_writeSecret_of_written written closed, led, same, frame⟩

/-! Creating. -/

/-- A creation fails before it stores a key, or it stores the key as it does without making it the
default, and only then makes it that if this is asked for. -/
theorem run_create (store : KeyStore) (name token : String) (options : KeyOptions) (disk : Disk) :
    (∃ error made, (store.create name token options :
        ExceptT RepositoryError (StateM Disk) Unit).run.run disk = (.error error, made) ∧
      disk.GainsDirectories made ∧ ∀ fault, error ≠ .access (store.path defaultName) fault) ∨
    ∃ made, (store.create name token { options with makeDefault := false } :
        ExceptT RepositoryError (StateM Disk) Unit).run.run disk = (.ok (), made) ∧
      disk.GainsFile (store.path name) token.toUTF8 made ∧
      (store.create name token options :
        ExceptT RepositoryError (StateM Disk) Unit).run.run disk =
          (if options.makeDefault then writeSecret (store.path defaultName) token else pure () :
            ExceptT RepositoryError (StateM Disk) Unit).run.run made := by
  by_cases reserved : KeyRing.Reserved name
  · refine .inl ⟨.invalidName name, disk, ?_, .refl disk, by simp⟩
    rw [create, run_checkName, if_pos reserved]
  have isName := isName_of_not_reserved reserved
  have gains := disk.makeDirectories_gainsDirectories store.directory
  rcases ready : disk.makeDirectories store.directory with ⟨fault | _, half⟩ <;> rw [ready] at gains
  · refine .inl ⟨_, half, run_create_of_unmade reserved ready token options, gains,
      fun _ same => ?_⟩
    exact path_ne_directory isName_default (RepositoryError.access.inj same).1
  have ran := run_create_of_made reserved ready token options
  have alone := run_create_of_made reserved ready token { options with makeDefault := false }
  by_cases taken : options.force = false ∧ (half.info (store.path name)).isOk
  · rw [if_pos taken] at ran
    exact .inl ⟨_, half, ran, gains, by simp⟩
  rw [if_neg taken, run_bind] at ran alone
  rcases run_writeSecret (store.path name) token half with
    ⟨fault, failed⟩ | ⟨made, place, file, stored, led, same, frame⟩
  · rw [failed] at ran
    refine .inl ⟨_, half, ran, gains, fun _ same => ?_⟩
    exact path_ne_path isName isName_default (ne_default_of_not_reserved reserved)
      (RepositoryError.access.inj same).1
  · rw [stored] at ran alone
    refine .inr ⟨made, alone, ⟨place, file, led, same, fun other away => ?_⟩, ran⟩
    rw [frame other away]
    exact gains other

/-! Deleting. -/

theorem run_remove_of_shut (store : KeyStore) {place : Location} (isName : Path.IsName name)
    (shut : disk.Shut store.directory name place) (err : Fault → RepositoryError) :
    (attempt err (Host.remove (store.path name)) :
      ExceptT RepositoryError (StateM Disk) Unit).run.run disk =
        (.ok (), disk.erase (place ++ [name])) :=
  run_change_ok err (shut.remove isName)

theorem run_remove_both {bytes held : ByteArray} (isKey : ¬ KeyRing.Reserved name)
    (key : disk.read (store.path name) = .ok bytes)
    (main : disk.read (store.path defaultName) = .ok held) (err err' : Fault → RepositoryError) :
    ∃ after, (do
      attempt err (Host.remove (store.path defaultName))
      attempt err' (Host.remove (store.path name)) :
        ExceptT RepositoryError (StateM Disk) Unit).run.run disk = (.ok (), after) := by
  have isName := isName_of_not_reserved isKey
  obtain ⟨place, shut⟩ := Disk.exists_shut_of_read isName key
  obtain ⟨other, gone⟩ := Disk.exists_shut_of_read isName_default main
  obtain rfl := shut.reaches.unique gone.reaches
  refine ⟨(disk.erase (place ++ [defaultName])).erase (place ++ [name]), ?_⟩
  rw [run_bind, run_remove_of_shut store isName_default gone]
  exact run_change_ok err' (gone.remove_erase shut isName (ne_default_of_not_reserved isKey))

theorem run_delete (store : KeyStore) (name : String) (disk : Disk) :
    (∃ error, (store.delete name : ExceptT RepositoryError (StateM Disk) Bool).run.run disk =
        (.error error, disk)) ∨
      ∃ isDefault after, (store.delete name :
        ExceptT RepositoryError (StateM Disk) Bool).run.run disk = (.ok isDefault, after) := by
  rw [delete, run_checkName]
  split
  next => exact .inl ⟨_, rfl⟩
  next isKey =>
  have isName := isName_of_not_reserved isKey
  rw [run_bind, run_readIfPresent]
  rcases key : disk.read (store.path name) with fault | bytes
  · cases fault <;> exact .inl ⟨_, rfl⟩
  simp only
  rw [run_bind, run_readIfPresent]
  obtain ⟨place, shut⟩ := Disk.exists_shut_of_read isName key
  have alone := run_remove_of_shut store isName shut (.access (store.path name))
  rcases main : disk.read (store.path defaultName) with fault | held
  · cases fault with
    | notFound =>
      refine .inr ⟨false, disk.erase (place ++ [name]), ?_⟩
      simp only [Option.map_none, reduceCtorEq, if_false, decide_false]
      rw [run_bind, alone]
      rfl
    | _ => exact .inl ⟨_, rfl⟩
  · refine .inr ⟨decide (some held.data = some bytes.data), ?_⟩
    simp only [Option.map_some]
    split
    · obtain ⟨after, both⟩ := run_remove_both isKey key main (.access (store.path defaultName))
        (.access (store.path name))
      refine ⟨after, ?_⟩
      rw [← bind_assoc, run_bind, both]
      rfl
    · refine ⟨disk.erase (place ++ [name]), ?_⟩
      rw [run_bind, alone]
      rfl

/-! Failures. -/

/-- A deletion that fails leaves the tree as it was, and so does a creation, but for directories
that were made. Only where the default key cannot be written has the key been stored, just as it is
without being made the default. -/
theorem fails_all_or_key_only (store : KeyStore) (name : String) (disk after : Disk)
    (error : RepositoryError) :
    ((store.delete name : ExceptT RepositoryError (StateM Disk) Bool).run.run disk =
        (.error error, after) → after = disk) ∧
      ∀ token options, (store.create name token options :
          ExceptT RepositoryError (StateM Disk) Unit).run.run disk = (.error error, after) →
        (disk.GainsDirectories after ∧ ∀ fault, error ≠ .access (store.path defaultName) fault) ∨
          (∃ fault, error = .access (store.path defaultName) fault) ∧ options.makeDefault = true ∧
            (store.create name token { options with makeDefault := false } :
              ExceptT RepositoryError (StateM Disk) Unit).run.run disk = (.ok (), after) ∧
            disk.GainsFile (store.path name) token.toUTF8 after := by
  constructor
  · intro failed
    rcases store.run_delete name disk with ⟨_, kept⟩ | ⟨_, _, done⟩
    · exact congrArg Prod.snd (failed.symm.trans kept)
    · exact nomatch failed.symm.trans done
  · intro token options failed
    rcases store.run_create name token options disk with
      ⟨_, _, stopped, gains, own⟩ | ⟨made, stored, gains, goesOn⟩
    · cases stopped.symm.trans failed
      exact .inl ⟨gains, own⟩
    · rw [goesOn] at failed
      split at failed
      next asked =>
        rcases run_writeSecret (store.path defaultName) token made with
          ⟨fault, unwritten⟩ | ⟨_, _, _, written, -⟩
        · cases unwritten.symm.trans failed
          exact .inr ⟨⟨fault, rfl⟩, asked, stored, gains⟩
        · exact nomatch written.symm.trans failed
      next => exact nomatch failed

/-- A tree with a directory where the default key of a store belongs. -/
def blocked : Disk := { nodes := [(["keys"], .directory), (["keys", "default"], .directory)] }

def keyed : Disk := blocked.put ["keys", "k"] (.file ⟨"t".toUTF8, blocked.clock, true⟩)

theorem fails_with_directory_as_default :
    (create ⟨"keys"⟩ "k" "t" { makeDefault := true } :
      ExceptT RepositoryError (StateM Disk) Unit).run.run blocked =
        (.error (.access "keys/default" .isDirectory), keyed) ∧
    (create ⟨"keys"⟩ "k" "t" {} : ExceptT RepositoryError (StateM Disk) Unit).run.run blocked =
      (.ok (), keyed) ∧
    blocked.GainsFile (path ⟨"keys"⟩ "k") "t".toUTF8 keyed ∧
    ∃ after, (delete ⟨"keys"⟩ "k" : ExceptT RepositoryError (StateM Disk) Bool).run.run keyed =
      (.error (.access "keys/default" .isDirectory), after) ∧ after = keyed := by
  have created := (fails_all_or_key_only ⟨"keys"⟩ "k" blocked keyed _).2 "t"
    { makeDefault := true } rfl
  obtain ⟨-, -, stored, gains⟩ := created.resolve_left fun other => other.2 .isDirectory rfl
  exact ⟨rfl, stored, gains, keyed, rfl, (fails_all_or_key_only ⟨"keys"⟩ "k" keyed keyed _).1 rfl⟩

/-- Files are not all as they were after a failure: the key is there, which was not. -/
theorem exists_failure_that_changes_files :
    ¬ ∀ (store : KeyStore) (name : String) (disk after : Disk) (error : RepositoryError),
      ((store.delete name : ExceptT RepositoryError (StateM Disk) Bool).run.run disk =
        (.error error, after) → ∀ place, after.bytes? place = disk.bytes? place) ∧
      ∀ token options, (store.create name token options :
        ExceptT RepositoryError (StateM Disk) Unit).run.run disk = (.error error, after) →
          ∀ place, after.bytes? place = disk.bytes? place := by
  intro kept
  have same := (kept ⟨"keys"⟩ "k" blocked keyed _).2 "t" { makeDefault := true } rfl ["keys", "k"]
  exact nomatch congrArg Option.isSome same

end KeyStore
end Appliance
