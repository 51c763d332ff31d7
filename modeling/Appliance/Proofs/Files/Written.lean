import Appliance.Proofs.Files.Making

/-! What is written is read again. The path under which a file was written, be it a new one or one
behind links, leads to that file, since the writing touches no directory and no link. -/
namespace Appliance.Disk

def Stop.place? : Stop → Option Location
  | .present place => some place
  | .absent directory name => some (directory ++ [name])
  | .link _ _ _ => none

def Stop.filled : Stop → Stop
  | .absent directory name => .present (directory ++ [name])
  | stop => stop

def Spot.place : Spot → Location
  | .present place => place
  | .absent directory name => directory ++ [name]

variable {disk made other : Disk} {place : Location} {names : List String} {path : String}

/-- Where a writer comes to a file, or makes one, a reader comes to it. -/
theorem Keeps.advance_written (keeps : disk.Keeps other) {stop : Stop}
    (h : disk.advance .write place names = .ok stop)
    (filed : ∀ place ∈ stop.place?, ∃ file, other.get? place = some (.file file)) :
    other.advance .node place names = .ok stop.filled := by
  induction names generalizing place with
  | nil =>
    cases h
    rfl
  | cons first rest ih =>
    rw [advance.eq_2] at h ⊢
    by_cases directory : disk.get? place = some .directory
    · rw [if_neg (not_not.2 directory)] at h
      rw [if_neg (not_not.2 (keeps.node _ _ directory (by simp)))]
      by_cases same : first = "" ∨ first = "."
      · rw [if_pos same] at h ⊢
        exact ih h
      rw [if_neg same] at h ⊢
      by_cases up : first = ".."
      · rw [if_pos up] at h ⊢
        exact ih h
      rw [if_neg up] at h ⊢
      by_cases slash : Aim.write = .write ∧ rest = [""]
      · rw [if_pos slash] at h
        cases h
      rw [if_neg slash] at h
      rw [if_neg (show ¬(Aim.node = .write ∧ rest = [""]) by simp)]
      by_cases long : 255 < first.utf8ByteSize
      · rw [if_pos long] at h
        cases h
      rw [if_neg long] at h ⊢
      -- Directories and links are in the other tree too; a file can only stand at the end.
      rcases entry : disk.get? (place ++ [first]) with _ | _ | file | target <;> rw [entry] at h
      case none =>
        cases rest with
        | nil =>
          cases h
          obtain ⟨file, there⟩ := filed _ rfl
          rw [there]
          rfl
        | cons => cases h
      case some.directory =>
        rw [keeps.node _ _ entry (by simp)]
        exact ih h
      case some.file =>
        cases rest with
        | nil =>
          cases h
          obtain ⟨file, there⟩ := filed _ rfl
          rw [there]
          rfl
        | cons => simp [Disk.advance, entry] at h
      case some.link =>
        rw [keeps.node _ _ entry (by simp)]
        simp only [reduceCtorEq, and_false, if_false] at h ⊢
        cases h
        rfl
    · simp [directory] at h

theorem Keeps.walk_written (keeps : disk.Keeps other) {links : Nat} {spot : Spot}
    (h : disk.walk .write links place names = .ok spot)
    (filed : ∃ file, other.get? spot.place = some (.file file)) :
    other.walk .node links place names = .ok (.present spot.place) := by
  fun_induction disk.walk .write links place names with
  | case1 | case4 => cases h
  | case2 links place names ended stop =>
    cases h
    rw [walk.eq_def, keeps.advance_written stop fun place same => Option.some.inj same ▸ filed]
    rfl
  | case3 links place names directory last stop =>
    cases h
    rw [walk.eq_def, keeps.advance_written stop fun place same => Option.some.inj same ▸ filed]
    rfl
  | case5 place names above target rest stop links ih =>
    rw [walk.eq_def, keeps.advance_written stop (by simp [Stop.place?])]
    exact ih h

theorem exists_of_write {bytes : ByteArray} (written : disk.write path bytes = .ok made) :
    ∃ (spot : Spot) (file : File), disk.spot .write path (Path.steps path) = .ok spot ∧
      made = disk.put spot.place (.file file) ∧ file.bytes = bytes ∧
      ∀ node, disk.get? spot.place = some node → ∃ old, node = .file old := by
  obtain ⟨spot, found, written⟩ := Except.bind_eq_ok_iff.1 written
  refine ⟨spot, ?_⟩
  rcases spot with place | ⟨directory, name⟩
  · dsimp only at written
    split at written
    · next old there =>
      refine ⟨_, found, (Except.ok.inj written).symm, rfl, fun node same => ⟨old, ?_⟩⟩
      exact Option.some.inj (same.symm.trans there)
    · exact nomatch written
  · have empty := get?_of_walk_absent (spot_eq_ok.1 found).2
    refine ⟨_, found, (Except.ok.inj written).symm, rfl, fun node same => ?_⟩
    exact nomatch empty.symm.trans same

section Put

variable {file : File} (free : ∀ node, disk.get? place = some node → ∃ old, node = .file old)
include free

theorem ne_root_of_free : place ≠ [] := by
  rintro rfl
  obtain ⟨_, no⟩ := free .directory (get?_root disk)
  exact nomatch no

theorem keeps_put_file : disk.Keeps (disk.put place (.file file)) where
  here := rfl
  node other node before noFile := by
    rw [get?_put (ne_root_of_free free), if_neg]
    · exact before
    · rintro rfl
      obtain ⟨old, rfl⟩ := free node before
      exact noFile old rfl

end Put

theorem file_of_spot {spot : Spot} {file : File}
    (found : disk.spot .write path (Path.steps path) = .ok spot) (keeps : disk.Keeps other)
    (there : other.get? spot.place = some (.file file)) :
    other.file path = .ok (spot.place, file) := by
  have ⟨checked, walked⟩ := spot_eq_ok.1 found
  have leads : other.find path = .ok spot.place := by
    refine find_eq_ok.2 ⟨checked, ?_⟩
    rw [start, keeps.here]
    exact keeps.walk_written walked ⟨file, there⟩
  rw [Disk.file, leads]
  simp [bind, Except.bind, there]

section Write

variable {bytes : ByteArray} (written : disk.write path bytes = .ok made)
include written

theorem file_of_write :
    ∃ place file, made.file path = .ok (place, file) ∧ file.bytes = bytes := by
  obtain ⟨spot, file, found, rfl, same, free⟩ := exists_of_write written
  refine ⟨spot.place, file, file_of_spot found (keeps_put_file free) ?_, same⟩
  rw [get?_put (ne_root_of_free free), if_pos rfl]

theorem read_of_write : made.read path = .ok bytes ∧ ∃ info, made.info path = .ok info := by
  obtain ⟨place, file, found, same⟩ := file_of_write written
  constructor
  · rw [read, found, ← same]
    rfl
  · obtain ⟨reached, leads, -⟩ := Except.bind_eq_ok_iff.1 found
    rw [info, leads]
    simp only [bind, Except.bind]
    split <;> exact ⟨_, rfl⟩

theorem exists_update_of_write (change : File → File) :
    ∃ after place file, made.update path change = .ok after ∧
      after.file path = .ok (place, change file) ∧ file.bytes = bytes ∧
      ∀ other, other ≠ place → after.get? other = disk.get? other := by
  obtain ⟨spot, file, found, rfl, same, free⟩ := exists_of_write written
  have inTree := ne_root_of_free free
  have there : (disk.put spot.place (.file file)).get? spot.place = some (.file file) := by
    rw [get?_put inTree, if_pos rfl]
  have led := file_of_spot found (keeps_put_file free) there
  refine ⟨(disk.put spot.place (.file file)).put spot.place (.file (change file)), spot.place, file,
    by rw [update, led]; rfl, ?_, same, fun other away => ?_⟩
  · have keeps : disk.Keeps
        ((disk.put spot.place (.file file)).put spot.place (.file (change file))) :=
      (keeps_put_file free).trans <|
        keeps_put_file fun node old => ⟨file, Option.some.inj (old.symm.trans there)⟩
    refine file_of_spot found keeps ?_
    rw [get?_put inTree, if_pos rfl]
  · rw [get?_put inTree, if_neg away, get?_put inTree, if_neg away]

end Write

/-- Does a path lead to a file with some bytes now, and is everything else as it was but for
directories where nothing was? -/
def GainsFile (disk : Disk) (path : String) (bytes : ByteArray) (after : Disk) : Prop :=
  ∃ place file, after.file path = .ok (place, file) ∧ file.bytes = bytes ∧
    ∀ other, other ≠ place → after.get? other = disk.get? other ∨
      disk.get? other = none ∧ after.get? other = some .directory

end Appliance.Disk
