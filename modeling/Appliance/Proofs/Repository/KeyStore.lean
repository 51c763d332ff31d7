import Appliance.Proofs.Files.Host
import Appliance.Proofs.Files.Making
import Appliance.Proofs.Repository.KeyRing

/-! The directory of a key store: which names the machine takes in it, what each step of a program
does there, and when it holds the keys of a ring. -/
namespace Appliance
namespace KeyStore

variable {store : KeyStore} {ring : KeyRing} {place : Location} {disk : Disk} {name token : String}

/-! Names. -/

theorem validName_iff : validName name = true ↔ ¬ KeyRing.Reserved name := by
  simp only [validName, KeyRing.Reserved, Bool.and_eq_true, decide_eq_true_eq, Bool.not_eq_true',
    List.contains_eq_mem, decide_eq_false_iff_not, List.mem_cons, List.not_mem_nil, or_false,
    not_or]
  rw [defaultName]
  tauto

theorem isName_of_not_reserved (h : ¬ KeyRing.Reserved name) : Path.IsName name := by
  simp only [KeyRing.Reserved, List.mem_cons, List.not_mem_nil, or_false, not_or] at h
  exact ⟨h.1.1, h.1.2.1, h.1.2.2.1, h.2.1⟩

theorem ne_default_of_not_reserved (h : ¬ KeyRing.Reserved name) : name ≠ defaultName := by
  rintro rfl
  exact h (by decide)

theorem isName_default : Path.IsName defaultName := by
  unfold Path.IsName
  decide

/-- Has the machine no file of a name in the directory of a store? -/
def Refuses (store : KeyStore) (name : String) : Prop :=
  255 < name.utf8ByteSize ∨ '\x00' ∈ name.toList ∨ 4096 ≤ (store.path name).utf8ByteSize

instance : Decidable (store.Refuses name) := inferInstanceAs (Decidable (_ ∨ _ ∨ _))

theorem refuses_iff (fits : Disk.checkPath store.directory = .ok ()) (isName : Path.IsName name) :
    store.Refuses name ↔
      255 < name.utf8ByteSize ∨ Disk.checkPath (store.path name) ≠ .ok () := by
  obtain ⟨clean, filled, -⟩ := Disk.checkPath_eq_ok.1 fits
  have zero : '\x00' ∈ (store.path name).toList ↔ '\x00' ∈ name.toList :=
    (Path.mem_join filled isName (by decide)).trans (or_iff_right clean)
  rw [Refuses, Ne, Disk.checkPath_eq_ok, zero]
  simp only [path, Path.join_ne_empty filled isName, ne_eq, not_false_eq_true, true_and, not_and_or,
    not_not, Nat.not_lt]

/-! Steps of the programs, on a tree. -/

section Steps

theorem run_checkName {α : Type} (next : Unit → ExceptT RepositoryError (StateM Disk) α) :
    (checkName name >>= next).run.run disk =
      if KeyRing.Reserved name then (.error (.invalidName name), disk)
      else (next ()).run.run disk := by
  by_cases h : KeyRing.Reserved name
  · have bad : ¬ validName name := fun valid => validName_iff.1 valid h
    rw [checkName, if_neg bad, if_pos h]
    rfl
  · rw [checkName, if_pos (validName_iff.2 h), if_neg h]
    rfl

theorem run_readIfPresent (path : String) :
    (readIfPresent path : ExceptT RepositoryError (StateM Disk) (Option ByteArray)).run.run disk =
      (match disk.read path with
        | .ok bytes => .ok (some bytes)
        | .error .notFound => .ok none
        | .error fault => .error (.access path fault), disk) := by
  have first : (Host.read path : ExceptT RepositoryError (StateM Disk) _).run.run disk =
      (.ok (disk.read path), disk) := rfl
  rw [readIfPresent, run_bind, first]
  rcases disk.read path with fault | bytes
  · cases fault <;> rfl
  · rfl

theorem run_attempt_makeDirectories {ε : Type} (name : Fault → ε) (path : String) :
    (attempt name (Host.makeDirectories path) : ExceptT ε (StateM Disk) Unit).run.run disk =
      ((disk.makeDirectories path).1.mapError name, (disk.makeDirectories path).2) := rfl

theorem run_writeSecret_of_unwritten {path : String} {fault : Fault}
    (unwritten : disk.write path token.toUTF8 = .error fault) :
    (writeSecret path token : ExceptT RepositoryError (StateM Disk) Unit).run.run disk =
      (.error (.access path fault), disk) := by
  have first : (attempt (.access path) (Host.write path token.toUTF8) :
      ExceptT RepositoryError (StateM Disk) Unit).run.run disk =
        (.error (.access path fault), disk) := run_change_error _ unwritten
  rw [writeSecret, run_bind, first]

theorem run_writeSecret_of_written {path : String} {half after : Disk}
    (written : disk.write path token.toUTF8 = .ok half)
    (closed : half.update path ({ · with ownerOnly := true }) = .ok after) :
    (writeSecret path token : ExceptT RepositoryError (StateM Disk) Unit).run.run disk =
      (.ok (), after) := by
  have first : (attempt (.access path) (Host.write path token.toUTF8) :
      ExceptT RepositoryError (StateM Disk) Unit).run.run disk = (.ok (), half) :=
    run_change_ok _ written
  rw [writeSecret, run_bind, first]
  exact run_change_ok _ closed

section Create

variable (isKey : ¬ KeyRing.Reserved name)
include isKey

theorem run_create_of_unmade {after : Disk} {fault : Fault}
    (unmade : disk.makeDirectories store.directory = (.error fault, after)) (token : String)
    (options : KeyOptions) :
    (store.create name token options : ExceptT RepositoryError (StateM Disk) Unit).run.run disk =
      (.error (.access store.directory fault), after) := by
  have first : (attempt (.access store.directory) (Host.makeDirectories store.directory) :
      ExceptT RepositoryError (StateM Disk) Unit).run.run disk =
        (.error (.access store.directory fault), after) := by
    rw [run_attempt_makeDirectories, unmade]
    rfl
  rw [create, run_checkName, if_neg isKey, run_bind, first]

theorem run_create_of_made {made : Disk}
    (ready : disk.makeDirectories store.directory = (.ok (), made)) (token : String)
    (options : KeyOptions) :
    (store.create name token options : ExceptT RepositoryError (StateM Disk) Unit).run.run disk =
      if options.force = false ∧ (made.info (store.path name)).isOk then
        (.error (.keyExists name), made)
      else (do
        writeSecret (store.path name) token
        if options.makeDefault then writeSecret (store.path defaultName) token :
          ExceptT RepositoryError (StateM Disk) Unit).run.run made := by
  have first : (attempt (.access store.directory) (Host.makeDirectories store.directory) :
      ExceptT RepositoryError (StateM Disk) Unit).run.run disk = (.ok (), made) := by
    rw [run_attempt_makeDirectories, ready]
    rfl
  have seen : (reaches (store.path name) : ExceptT RepositoryError (StateM Disk) Bool).run.run
    made = (.ok (made.info (store.path name)).isOk, made) := rfl
  rw [create, run_checkName, if_neg isKey, run_bind, first]
  cases options.force with
  | true => simp
  | false =>
    simp only [Bool.not_false, if_true, true_and]
    rw [run_bind, seen]
    cases (made.info (store.path name)).isOk <;> rfl

end Create

end Steps

/-! The directory of a store and the ring in it. -/

/-- Does a directory hold the keys of a ring, and nothing else? -/
structure Holds (store : KeyStore) (ring : KeyRing) (place : Location) (disk : Disk) : Prop where
  folder : disk.Folder store.directory place
  slot : ∀ name, disk.bytes? (place ++ [name]) = (ring.slot name).map String.toUTF8
  once : ((disk.children place).map (·.1)).Nodup
  own : defaultName ∉ ring.tokens

namespace Holds

theorem keep (holds : store.Holds ring place disk) (name : String) {file : File}
    (bytes : file.bytes = token.toUTF8) :
    store.Holds (ring.keep name token) place (disk.put (place ++ [name]) (.file file)) where
  folder := holds.folder.put name file
  slot other := by
    have before := holds.slot other
    rw [Disk.bytes?] at before ⊢
    rw [Disk.get?_put (by simp), KeyRing.slot_keep]
    by_cases same : other = name
    · simp [same, bytes]
    · simpa [same] using before
  once := by
    rw [Disk.children_put, List.map_cons, List.nodup_cons]
    refine ⟨?_, (holds.once.sublist (List.filter_sublist.map _))⟩
    simp
  own := by
    by_cases main : name = defaultName
    · simpa [KeyRing.keep, main] using holds.own
    · simpa [KeyRing.keep, main, Ne.symm main] using holds.own

theorem drop (holds : store.Holds ring place disk) (name : String) :
    store.Holds (ring.drop name) place (disk.erase (place ++ [name])) where
  folder := holds.folder.erase name
  slot other := by
    have before := holds.slot other
    rw [Disk.bytes?] at before ⊢
    rw [Disk.get?_erase (by simp), KeyRing.slot_drop]
    by_cases same : other = name
    · simp [same]
    · simpa [same] using before
  once := by
    rw [Disk.children_erase]
    exact holds.once.sublist (List.filter_sublist.map _)
  own := by
    by_cases main : name = defaultName
    · simpa [KeyRing.drop, main] using holds.own
    · have own := holds.own
      simp only [KeyRing.drop, main, if_false]
      exact fun mem => own (Finmap.mem_erase.1 mem).2

section Operations

variable (holds : store.Holds ring place disk) (isName : Path.IsName name)
  (allowed : ¬ store.Refuses name)
include holds isName allowed

theorem fits : name.utf8ByteSize ≤ 255 ∧ Disk.checkPath (store.path name) = .ok () := by
  rw [refuses_iff holds.folder.leads.checkPath isName] at allowed
  simpa using allowed

theorem read : disk.read (store.path name) =
    match ring.slot name with
    | some token => .ok token.toUTF8
    | none => .error .notFound := by
  obtain ⟨short, fits⟩ := holds.fits isName allowed
  rw [path, holds.folder.read_join isName short fits, holds.slot]
  cases ring.slot name <;> rfl

theorem isOk_info : (disk.info (store.path name)).isOk = (ring.slot name).isSome := by
  obtain ⟨short, fits⟩ := holds.fits isName allowed
  rw [path, holds.folder.isOk_info_join isName short fits, holds.slot, Option.isSome_map]

theorem run_writeSecret (token : String) : ∃ after,
    (writeSecret (store.path name) token :
      ExceptT RepositoryError (StateM Disk) Unit).run.run disk = (.ok (), after) ∧
        store.Holds (ring.keep name token) place after := by
  obtain ⟨short, fits⟩ := holds.fits isName allowed
  obtain ⟨ownerOnly, written⟩ := holds.folder.write_join isName short fits token.toUTF8
  generalize new : (⟨token.toUTF8, disk.clock, ownerOnly⟩ : File) = file at written
  have bytes : file.bytes = token.toUTF8 := new ▸ rfl
  have kept := holds.keep name bytes
  have there : (disk.put (place ++ [name]) (.file file)).get? (place ++ [name]) =
      some (.file file) := by
    rw [Disk.get?_put (by simp), if_pos rfl]
  have closed := kept.folder.update_join isName short fits there ({ · with ownerOnly := true })
  -- Closing the file to others keeps its bytes, so the token is kept a second time.
  have keptAgain := kept.keep name (show File.bytes { file with ownerOnly := true } = _ from bytes)
  refine ⟨_, ?_, KeyRing.keep_keep ▸ keptAgain⟩
  exact run_writeSecret_of_written written closed

theorem run_writeSecrets (main : ¬ store.Refuses defaultName) (token : String)
    (makeDefault : Bool) : ∃ after, (do
        writeSecret (store.path name) token
        if makeDefault = true then writeSecret (store.path defaultName) token else pure () :
          ExceptT RepositoryError (StateM Disk) Unit).run.run disk = (.ok (), after) ∧
      store.Holds (if makeDefault then (ring.keep name token).keep defaultName token
        else ring.keep name token) place after := by
  obtain ⟨half, first, kept⟩ := holds.run_writeSecret isName allowed token
  cases makeDefault with
  | false =>
    refine ⟨half, ?_, kept⟩
    rw [run_bind, first]
    rfl
  | true =>
    obtain ⟨after, second, keptBoth⟩ := kept.run_writeSecret isName_default main token
    refine ⟨after, ?_, keptBoth⟩
    rw [run_bind, first]
    exact second

theorem run_remove (some : (ring.slot name).isSome) (err : Fault → RepositoryError) :
    (attempt err (Host.remove (store.path name)) :
      ExceptT RepositoryError (StateM Disk) Unit).run.run disk =
        (.ok (), disk.erase (place ++ [name])) := by
  obtain ⟨short, fits⟩ := holds.fits isName allowed
  exact run_change_ok err <|
    holds.folder.remove_join isName short fits (by rwa [holds.slot, Option.isSome_map])

end Operations

theorem spot_of_refuses (holds : store.Holds ring place disk) (isName : Path.IsName name)
    (refused : store.Refuses name) (aim : Disk.Aim) :
    ∃ fault, disk.spot aim (store.path name) (Path.steps (store.path name)) = .error fault := by
  rcases (refuses_iff holds.folder.leads.checkPath isName).1 refused with long | unfit
  · exact holds.folder.leads.reaches.spot_join_of_long isName long
  · rcases same : Disk.checkPath (store.path name) with fault | _
    · exact ⟨fault, Disk.spot_of_checkPath same⟩
    · exact absurd same unfit

theorem exists_file_iff (holds : store.Holds ring place disk) :
    ((∃ file, (name, .file file) ∈ disk.children place) ∧ name ≠ defaultName) ↔
      name ∈ ring.tokens := by
  have slot := holds.slot name
  have there : (∃ file, (name, .file file) ∈ disk.children place) ↔ (ring.slot name).isSome := by
    rw [← Option.isSome_map (f := String.toUTF8), ← slot, Disk.bytes?]
    simp only [Disk.mem_children_iff holds.once]
    rcases disk.get? (place ++ [name]) with _ | _ | _ | _ <;> simp
  rw [there]
  by_cases main : name = defaultName
  · simp [main, holds.own]
  · rw [KeyRing.slot_of_ne main, Finmap.lookup_isSome]
    simp [main]

theorem mergeSort_names (holds : store.Holds ring place disk) :
    (((((disk.children place).map fun (name, node) =>
      (name, match node with | .file _ => true | _ => false)).filter
        fun (name, regular) => regular ∧ name ≠ defaultName).map (·.1)).mergeSort
          fun a b => a ≤ b) = ring.list := by
  refine KeyRing.mergeSort_eq_list ?_ fun name => ?_
  · refine List.Nodup.sublist (List.filter_sublist.map _) ?_
    simpa [Function.comp_def] using holds.once
  · simp only [List.mem_map, List.mem_filter, Prod.exists, decide_eq_true_eq]
    rw [← holds.exists_file_iff]
    constructor
    · rintro ⟨_, regular, ⟨⟨_, node, mem, same⟩, isFile, ne⟩, rfl⟩
      cases same
      rcases node with _ | file | _
      · exact nomatch isFile
      · exact ⟨⟨file, mem⟩, ne⟩
      · exact nomatch isFile
    · rintro ⟨⟨file, mem⟩, ne⟩
      exact ⟨name, true, ⟨⟨name, .file file, mem, rfl⟩, rfl, ne⟩, rfl⟩

end Holds

/-- Is a ring what a store has on a tree? The directory holds it, or it is empty and the directory
is still to be made. -/
def Has (store : KeyStore) (ring : KeyRing) (disk : Disk) : Prop :=
  (∃ place, store.Holds ring place disk) ∨
    ring = {} ∧ disk.find store.directory = .error .notFound ∧
      ∃ made place, disk.makeDirectories store.directory = (.ok (), made) ∧
        store.Holds {} place made

namespace Has

variable (has : store.Has ring disk)
include has

theorem make : ∃ made place, disk.makeDirectories store.directory = (.ok (), made) ∧
    store.Holds ring place made ∧ made.SameFiles disk := by
  have same := disk.makeDirectories_sameFiles store.directory
  rcases has with ⟨place, holds⟩ | ⟨rfl, -, made, place, ran, holds⟩
  · have ran := Disk.makeDirectories_of_leads holds.folder.leads
    rw [ran] at same
    exact ⟨disk, place, ran, holds, same⟩
  · rw [ran] at same
    exact ⟨made, place, ran, holds, same⟩

theorem checkPath : Disk.checkPath store.directory = .ok () := by
  obtain ⟨made, place, -, holds, -⟩ := has.make
  exact holds.folder.leads.checkPath

theorem read (isName : Path.IsName name) (allowed : ¬ store.Refuses name) :
    disk.read (store.path name) =
      match ring.slot name with
      | some token => .ok token.toUTF8
      | none => .error .notFound := by
  have fits := has.checkPath
  rcases has with ⟨place, holds⟩ | ⟨rfl, missing, -⟩
  · exact holds.read isName allowed
  · have some := (Disk.checkPath_eq_ok.1 fits).2.1
    rw [refuses_iff fits isName] at allowed
    rw [KeyRing.slot_empty]
    exact Disk.read_of_spot <|
      Disk.spot_join_of_missing missing some isName (not_not.1 (not_or.1 allowed).2)

theorem read_of_refuses (isName : Path.IsName name) (refused : store.Refuses name) :
    ∃ fault, disk.read (store.path name) = .error fault := by
  have fits := has.checkPath
  rcases has with ⟨place, holds⟩ | ⟨rfl, missing, -⟩
  · obtain ⟨fault, stops⟩ := holds.spot_of_refuses isName refused .node
    exact ⟨fault, Disk.read_of_spot stops⟩
  · rcases same : Disk.checkPath (store.path name) with fault | _
    · exact ⟨fault, Disk.read_of_spot (Disk.spot_of_checkPath same)⟩
    · have some := (Disk.checkPath_eq_ok.1 fits).2.1
      exact ⟨_, Disk.read_of_spot (Disk.spot_join_of_missing missing some isName same)⟩

theorem run_list : (store.list : ExceptT RepositoryError (StateM Disk) (List String)).run.run disk =
    (.ok ring.list, disk) := by
  have first : (Host.list store.directory : ExceptT RepositoryError (StateM Disk) _).run.run disk =
    (.ok ((disk.list store.directory).map (List.map fun (name, node) =>
      (name, match node with | .file _ => true | _ => false))), disk) := rfl
  rw [KeyStore.list, run_bind, first]
  rcases has with ⟨place, holds⟩ | ⟨rfl, missing, -⟩
  · rw [holds.folder.list]
    exact congrArg (fun names => (Except.ok names, disk)) (holds.mergeSort_names)
  · have none : disk.list store.directory = .error .notFound := by
      rw [Disk.list, missing]
      rfl
    rw [none, KeyRing.list_empty]
    rfl

theorem run_readIfPresent (isName : Path.IsName name) (allowed : ¬ store.Refuses name) :
    (readIfPresent (store.path name) :
      ExceptT RepositoryError (StateM Disk) (Option ByteArray)).run.run disk =
      (.ok ((ring.slot name).map String.toUTF8), disk) := by
  rw [KeyStore.run_readIfPresent, has.read isName allowed]
  cases ring.slot name <;> rfl

theorem run_readToken (isName : Path.IsName name) (allowed : ¬ store.Refuses name) :
    (readToken (store.path name) :
      ExceptT RepositoryError (StateM Disk) (Option String)).run.run disk =
      (.ok ((ring.slot name).map KeyRing.trimmed), disk) := by
  rw [readToken, run_bind, has.run_readIfPresent isName allowed]
  cases ring.slot name with
  | none => rfl
  | some token =>
    simp only [Option.map_some, fromUTF8?_toUTF8]
    rfl

theorem run_token (allowed : ¬ KeyRing.Reserved name → ¬ store.Refuses name) :
    (store.token name : ExceptT RepositoryError (StateM Disk) String).run.run disk =
      (ring.token name, disk) := by
  rw [KeyStore.token, run_checkName, KeyRing.token]
  split
  next => rfl
  next reserved =>
    rw [run_bind, has.run_readToken (isName_of_not_reserved reserved) (allowed reserved),
      KeyRing.slot_of_ne (ne_default_of_not_reserved reserved)]
    cases ring.tokens.lookup name <;> rfl

theorem run_resolve_none (main : ¬ store.Refuses defaultName) :
    (store.resolve none : ExceptT RepositoryError (StateM Disk) String).run.run disk =
      (ring.resolve none, disk) := by
  rw [KeyStore.resolve, run_bind, has.run_readToken isName_default main, KeyRing.slot_default,
    KeyRing.resolve]
  cases ring.default <;> rfl

theorem holds_of_lookup (some : ring.tokens.lookup name = some token) :
    ∃ place, store.Holds ring place disk := by
  rcases has with holds | ⟨rfl, -⟩
  · exact holds
  · simp at some

end Has

end KeyStore
end Appliance
