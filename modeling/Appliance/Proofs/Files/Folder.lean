import Appliance.Files.Host
import Appliance.Proofs.Data.Except
import Appliance.Proofs.Files.Walk

/-! A directory that holds files only, and the operations on the names in it. -/
namespace Appliance.Disk

variable {disk other : Disk} {aim : Aim} {directory name : String} {place : Location}

theorem spot_eq_ok {names : List String} {found : Spot} :
    disk.spot aim directory names = .ok found ↔ checkPath directory = .ok () ∧
      disk.walk aim maxLinks (disk.start directory) names = .ok found := by
  rw [spot, Except.bind_eq_ok_iff]
  exact ⟨fun ⟨_, h⟩ => h, fun h => ⟨(), h⟩⟩

theorem find_eq_ok : disk.find directory = .ok place ↔ checkPath directory = .ok () ∧
    disk.walk .node maxLinks (disk.start directory) (Path.steps directory) =
      .ok (.present place) := by
  rw [find, Except.bind_eq_ok_iff, ← spot_eq_ok]
  constructor
  · rintro ⟨_ | _, found, same⟩
    · cases same
      exact found
    · exact nomatch same
  · exact fun found => ⟨_, found, rfl⟩

section Fails

variable {fault : Fault}

theorem spot_of_checkPath {names : List String} (h : checkPath directory = .error fault) :
    disk.spot aim directory names = .error fault := by
  rw [spot, h]
  rfl

theorem read_of_spot (h : disk.spot .node directory (Path.steps directory) = .error fault) :
    disk.read directory = .error fault := by
  rw [read, file, find, h]
  rfl

theorem info_of_spot (h : disk.spot .node directory (Path.steps directory) = .error fault) :
    disk.info directory = .error fault := by
  rw [info, find, h]
  rfl

theorem write_of_spot (h : disk.spot .write directory (Path.steps directory) = .error fault)
    (bytes : ByteArray) : disk.write directory bytes = .error fault := by
  rw [write, h]
  rfl

end Fails

theorem endsNowhere_steps (links : Nat) (path : String) :
    EndsNowhere (disk.walk .node links place (Path.steps path)) ↔
      EndsNowhere (disk.walk .node links place (Path.names path)) := by
  rw [walk_steps]
  split
  · rcases disk.walk .node links place (Path.names path) with _ | reached | _
    · rfl
    · by_cases there : disk.get? reached = some .directory <;> simp [EndsNowhere, there]
    · simp [EndsNowhere]
  · rfl

theorem find_eq_notFound (filled : directory ≠ "") : disk.find directory = .error .notFound ↔
    checkPath directory = .ok () ∧ EndsNowhere
      (disk.walk .node maxLinks (disk.start directory) (Path.names directory)) := by
  have checked : checkPath directory ≠ .error .notFound := by
    rw [checkPath]
    split_ifs <;> simp
  rw [find, spot, ← endsNowhere_steps]
  rcases result : checkPath directory with fault | _
  · simpa [bind, Except.bind, result] using checked
  · rcases disk.walk .node maxLinks (disk.start directory) (Path.steps directory) with _ | _ | _ <;>
      simp [bind, Except.bind, EndsNowhere]

def Leads (disk : Disk) (directory : String) (place : Location) : Prop :=
  disk.find directory = .ok place ∧ disk.get? place = some .directory

namespace Leads

theorem checkPath (leads : disk.Leads directory place) : checkPath directory = .ok () :=
  (find_eq_ok.1 leads.1).1

theorem ne_empty (leads : disk.Leads directory place) : directory ≠ "" :=
  (checkPath_eq_ok.1 leads.checkPath).2.1

theorem walk (leads : disk.Leads directory place) :
    disk.walk .node maxLinks (disk.start directory) (Path.names directory) =
      .ok (.present place) := by
  have steps := (find_eq_ok.1 leads.1).2
  rw [walk_steps] at steps
  split at steps
  · rcases found : disk.walk .node maxLinks (disk.start directory) (Path.names directory) with
      _ | reached | _ <;> rw [found] at steps
    · exact nomatch steps
    · exact (ite_eq_iff.1 steps).elim And.right fun no => nomatch no.2
    · exact nomatch steps
  · exact steps

theorem of_walk (fits : Disk.checkPath directory = .ok ())
    (there : disk.get? place = some .directory)
    (h : disk.walk .node maxLinks (disk.start directory) (Path.names directory) =
      .ok (.present place)) : disk.Leads directory place := by
  refine ⟨find_eq_ok.2 ⟨fits, ?_⟩, there⟩
  rw [walk_steps, h]
  simp [there]

theorem keeps (leads : disk.Leads directory place) (keeps : disk.Keeps other) :
    other.Leads directory place := by
  obtain ⟨checked, steps⟩ := find_eq_ok.1 leads.1
  refine ⟨find_eq_ok.2 ⟨checked, ?_⟩, keeps.node _ _ leads.2 nofun⟩
  rw [start, keeps.here]
  exact keeps.ways.walk steps leads.2

end Leads

/-- Do the names of a path lead to a directory at a place? Those of the empty path do, which is none
that can be looked up. -/
structure Reaches (disk : Disk) (directory : String) (place : Location) : Prop where
  walk : disk.walk .node maxLinks (disk.start directory) (Path.names directory) =
    .ok (.present place)
  there : disk.get? place = some .directory

theorem Leads.reaches (leads : disk.Leads directory place) : disk.Reaches directory place :=
  ⟨leads.walk, leads.2⟩

namespace Reaches

theorem walk_join (reaches : disk.Reaches directory place) (isName : Path.IsName name) (aim : Aim) :
    ∃ left, disk.walk aim maxLinks (disk.start (Path.join directory name))
      (Path.steps (Path.join directory name)) = disk.walk aim left place [name] := by
  rw [start, Path.isAbsolute_join _ isName, Path.steps_join _ isName]
  exact walk_concat_of_present isName.1 reaches.walk aim

theorem spot_join (reaches : disk.Reaches directory place) (isName : Path.IsName name)
    (short : name.utf8ByteSize ≤ 255) (fits : Disk.checkPath (Path.join directory name) = .ok ())
    (final : aim = .last ∨ ∀ target, disk.get? (place ++ [name]) ≠ some (.link target)) :
    disk.spot aim (Path.join directory name) (Path.steps (Path.join directory name)) =
      .ok (if (disk.get? (place ++ [name])).isSome then .present (place ++ [name])
        else .absent place name) := by
  obtain ⟨left, same⟩ := reaches.walk_join isName aim
  rw [spot, fits, same, walk_name isName short reaches.there left final]
  rfl

theorem spot_join_of_long (reaches : disk.Reaches directory place) (isName : Path.IsName name)
    (long : 255 < name.utf8ByteSize) :
    ∃ fault, disk.spot aim (Path.join directory name) (Path.steps (Path.join directory name)) =
      .error fault := by
  obtain ⟨left, same⟩ := reaches.walk_join isName aim
  obtain ⟨some, here, up, -⟩ := isName
  have stops : disk.advance aim place [name] = .error .nameTooLong := by
    rw [advance.eq_2, if_neg (not_not.2 reaches.there), if_neg (by simp [some, here]), if_neg up,
      if_neg (by simp), if_pos long]
  rw [spot, same, walk.eq_def, stops]
  rcases Disk.checkPath (Path.join directory name) with fault | _
  · exact ⟨fault, rfl⟩
  · exact ⟨_, rfl⟩

end Reaches

theorem spot_join_of_missing (missing : disk.find directory = .error .notFound)
    (filled : directory ≠ "") (isName : Path.IsName name)
    (fits : checkPath (Path.join directory name) = .ok ()) :
    disk.spot aim (Path.join directory name) (Path.steps (Path.join directory name)) =
      .error .notFound := by
  obtain ⟨-, nowhere⟩ := (find_eq_notFound filled).1 missing
  rw [spot, fits, start, Path.isAbsolute_join _ isName, Path.steps_join _ isName]
  exact walk_concat_of_nowhere isName.1 nowhere aim

/-- Does a path lead to a directory with nothing but files in it? -/
structure Folder (disk : Disk) (directory : String) (place : Location) : Prop where
  leads : disk.Leads directory place
  file : ∀ name node, disk.get? (place ++ [name]) = some node → ∃ file, node = .file file

namespace Folder

theorem keeps_of_same (folder : disk.Folder directory place) (name : String)
    (here : other.here = disk.here)
    (same : ∀ location ≠ place ++ [name], other.get? location = disk.get? location) :
    disk.Keeps other where
  here := here
  node location node there noFile := by
    by_cases changed : location = place ++ [name]
    · obtain ⟨file, same⟩ := folder.file name node (changed ▸ there)
      exact absurd same (noFile file)
    · rwa [same location changed]

theorem put (folder : disk.Folder directory place) (name : String) (file : File) :
    (disk.put (place ++ [name]) (.file file)).Folder directory place where
  leads := folder.leads.keeps <| folder.keeps_of_same name rfl fun location away => by
    rw [get?_put (by simp), if_neg away]
  file other node there := by
    rw [get?_put (by simp)] at there
    split at there
    · exact ⟨file, (Option.some.inj there).symm⟩
    · exact folder.file other node there

theorem erase (folder : disk.Folder directory place) (name : String) :
    (disk.erase (place ++ [name])).Folder directory place where
  leads := folder.leads.keeps <| folder.keeps_of_same name rfl fun location away => by
    rw [get?_erase (by simp), if_neg away]
  file other node there := by
    rw [get?_erase (by simp)] at there
    split at there
    · exact nomatch there
    · exact folder.file other node there

section Operations

variable (folder : disk.Folder directory place) (isName : Path.IsName name)
  (short : name.utf8ByteSize ≤ 255) (fits : checkPath (Path.join directory name) = .ok ())
include folder isName short fits

theorem spot_join (aim : Aim) :
    disk.spot aim (Path.join directory name) (Path.steps (Path.join directory name)) =
      .ok (if (disk.get? (place ++ [name])).isSome then .present (place ++ [name])
        else .absent place name) :=
  folder.leads.reaches.spot_join isName short fits <| .inr fun _ there =>
    nomatch (folder.file name _ there).choose_spec

theorem file_join : disk.file (Path.join directory name) =
    match disk.get? (place ++ [name]) with
    | some (.file file) => .ok (place ++ [name], file)
    | _ => .error .notFound := by
  have spot := folder.spot_join isName short fits .node
  rw [Disk.file, find, spot]
  rcases there : disk.get? (place ++ [name]) with _ | node
  · rfl
  · obtain ⟨file, rfl⟩ := folder.file name node there
    simp [bind, Except.bind, there]

theorem read_join : disk.read (Path.join directory name) =
    match disk.bytes? (place ++ [name]) with
    | some bytes => .ok bytes
    | none => .error .notFound := by
  rw [read, folder.file_join isName short fits, bytes?]
  rcases disk.get? (place ++ [name]) with _ | _ | _ | _ <;> rfl

theorem isOk_info_join : (disk.info (Path.join directory name)).isOk =
    (disk.bytes? (place ++ [name])).isSome := by
  have spot := folder.spot_join isName short fits .node
  rw [info, find, spot, bytes?]
  rcases there : disk.get? (place ++ [name]) with _ | node
  · rfl
  · obtain ⟨file, rfl⟩ := folder.file name node there
    simp [bind, Except.bind, there, Except.isOk, Except.toBool, pure, Except.pure]

theorem write_join (bytes : ByteArray) : ∃ ownerOnly,
    disk.write (Path.join directory name) bytes =
      .ok (disk.put (place ++ [name]) (.file ⟨bytes, disk.clock, ownerOnly⟩)) := by
  have spot := folder.spot_join isName short fits .write
  rw [write, spot]
  rcases there : disk.get? (place ++ [name]) with _ | node
  · exact ⟨false, rfl⟩
  · obtain ⟨file, rfl⟩ := folder.file name node there
    exact ⟨file.ownerOnly, by simp [bind, Except.bind, there, pure, Except.pure]⟩

theorem update_join {file : File} (there : disk.get? (place ++ [name]) = some (.file file))
    (change : File → File) : disk.update (Path.join directory name) change =
      .ok (disk.put (place ++ [name]) (.file (change file))) := by
  rw [update, folder.file_join isName short fits, there]
  rfl

theorem remove_join (there : (disk.bytes? (place ++ [name])).isSome) :
    disk.remove (Path.join directory name) = .ok (disk.erase (place ++ [name])) := by
  have spot := folder.spot_join isName short fits .last
  rw [remove, spot]
  rcases same : disk.get? (place ++ [name]) with _ | node
  · simp [bytes?, same] at there
  · obtain ⟨file, rfl⟩ := folder.file name node same
    simp [bind, Except.bind, same, pure, Except.pure]

end Operations

theorem list (folder : disk.Folder directory place) :
    disk.list directory = .ok (disk.children place) := by
  simp [Disk.list, folder.leads.1, folder.leads.2, bind, Except.bind]
  rfl

end Folder
end Appliance.Disk
