import Appliance.Proofs.Files.Folder

/-! Two files in one directory. A name that can be read leads to a file, so no way to a directory
passes it. When it is taken away, the directory is reached as before, and another name in it can be
taken away as well. -/
namespace Appliance.Disk

variable {disk : Disk} {aim : Aim} {place reached : Location} {names : List String}
  {directory name other : String} {links : Nat}

theorem walk_more {spot : Spot} (h : disk.walk aim links place names = .ok spot) (more : Nat) :
    disk.walk aim (links + more) place names = .ok spot := by
  fun_induction disk.walk aim links place names with
  | case1 | case4 => cases h
  | case2 links place names ended stop => rwa [walk.eq_def, stop]
  | case3 links place names above last stop => rwa [walk.eq_def, stop]
  | case5 place names above target rest stop links ih =>
    rw [Nat.succ_add, walk.eq_def, stop]
    exact ih h

theorem walk_unique {first second : Spot} {others : Nat}
    (h : disk.walk aim links place names = .ok first)
    (h' : disk.walk aim others place names = .ok second) : first = second := by
  have same := walk_more h' links
  rw [Nat.add_comm, walk_more h others] at same
  exact Except.ok.inj same

theorem walk_link (isName : Path.IsName name) (short : name.utf8ByteSize ≤ 255)
    (directory : disk.get? place = some .directory) {target : String}
    (link : disk.get? (place ++ [name]) = some (.link target)) (links : Nat) :
    disk.walk .node links place [name] =
      match links with
      | 0 => .error .tooManyLinks
      | left + 1 =>
        disk.walk .node left (if Path.isAbsolute target then [] else place)
          (Path.steps target) := by
  obtain ⟨some, here, up, -⟩ := isName
  have stop : disk.advance .node place [name] = .ok (.link place target []) := by
    rw [advance.eq_2, if_neg (not_not.2 directory), if_neg (by simp [some, here]), if_neg up,
      if_neg (by simp), if_neg (Nat.not_lt.2 short), link]
    simp
  rw [walk.eq_def, stop]
  cases links <;> simp

/-- No way passes a name that leads to a file. -/
theorem not_passable_of_walk (isName : Path.IsName name)
    (h : disk.walk .node links place [name] = .ok (.present reached))
    (notDirectory : disk.get? reached ≠ some .directory) : ¬ disk.Passable (place ++ [name]) := by
  obtain ⟨start, short, -⟩ := of_walk_name isName h
  rintro (directory | ⟨target, others, passed, link, led, directory⟩)
  · rw [walk_name isName short start links (.inr (by simp [directory])), directory] at h
    cases h
    exact notDirectory directory
  · rw [walk_link isName short start link] at h
    rw [List.dropLast_concat] at led
    cases links with
    | zero => exact nomatch h
    | succ left =>
      cases walk_unique h led
      exact notDirectory directory

/-- Does a name in the directory of a path stand for something that no way passes? -/
structure Shut (disk : Disk) (directory name : String) (place : Location) : Prop where
  reaches : disk.Reaches directory place
  short : name.utf8ByteSize ≤ 255
  fits : checkPath (Path.join directory name) = .ok ()
  there : (disk.get? (place ++ [name])).isSome
  impassable : ¬ disk.Passable (place ++ [name])

theorem exists_shut_of_read (isName : Path.IsName name) {bytes : ByteArray}
    (read : disk.read (Path.join directory name) = .ok bytes) :
    ∃ place, disk.Shut directory name place := by
  obtain ⟨⟨_, _⟩, file, -⟩ := Except.bind_eq_ok_iff.1 read
  obtain ⟨reached, found, content⟩ := Except.bind_eq_ok_iff.1 file
  have notDirectory : disk.get? reached ≠ some .directory := by
    intro directory
    rw [directory] at content
    cases content
  obtain ⟨fits, walked⟩ := find_eq_ok.1 found
  rw [start, Path.isAbsolute_join _ isName, Path.steps_join _ isName] at walked
  obtain ⟨left, same⟩ := disk.walk_concat (fun _ : Aim.node = .write => isName.1) maxLinks
    (disk.start directory) (Path.names directory)
  rw [start, walked] at same
  rcases led : disk.walk .node maxLinks (disk.start directory) (Path.names directory) with
    _ | place | _ <;> rw [start] at led <;> rw [led] at same
  · cases same
  · obtain ⟨there, short, some⟩ := of_walk_name isName same.symm
    exact ⟨place, ⟨led, there⟩, short, fits, some,
      not_passable_of_walk isName same.symm notDirectory⟩
  · cases same

theorem Reaches.unique {first second : Location} (h : disk.Reaches directory first)
    (h' : disk.Reaches directory second) : first = second :=
  Spot.present.inj (Except.ok.inj (h.walk.symm.trans h'.walk))

theorem Reaches.remove_join (reaches : disk.Reaches directory place) (isName : Path.IsName name)
    (short : name.utf8ByteSize ≤ 255) (fits : checkPath (Path.join directory name) = .ok ())
    (there : (disk.get? (place ++ [name])).isSome)
    (notDirectory : disk.get? (place ++ [name]) ≠ some .directory) :
    disk.remove (Path.join directory name) = .ok (disk.erase (place ++ [name])) := by
  have spot := reaches.spot_join isName short fits (.inl (rfl : Aim.last = .last))
  rw [Disk.remove, spot, there]
  simp [bind, Except.bind, notDirectory, pure, Except.pure]

namespace Shut

theorem not_directory (shut : disk.Shut directory name place) :
    disk.get? (place ++ [name]) ≠ some .directory :=
  fun directory => shut.impassable (.inl directory)

theorem remove (shut : disk.Shut directory name place) (isName : Path.IsName name) :
    disk.remove (Path.join directory name) = .ok (disk.erase (place ++ [name])) :=
  shut.reaches.remove_join isName shut.short shut.fits shut.there shut.not_directory

theorem remove_erase (gone : disk.Shut directory other place)
    (shut : disk.Shut directory name place) (isName : Path.IsName name) (differs : name ≠ other) :
    (disk.erase (place ++ [other])).remove (Path.join directory name) =
      .ok ((disk.erase (place ++ [other])).erase (place ++ [name])) := by
  have away (location : Location) (h : location ≠ place ++ [other]) :
      (disk.erase (place ++ [other])).get? location = disk.get? location := by
    rw [get?_erase (by simp), if_neg h]
  have keeps : disk.KeepsWays (disk.erase (place ++ [other])) :=
    ⟨rfl, fun location passable => away location fun same => gone.impassable (same ▸ passable)⟩
  have reaches : (disk.erase (place ++ [other])).Reaches directory place :=
    ⟨keeps.walk shut.reaches.walk shut.reaches.there, keeps.directory shut.reaches.there⟩
  have same := away (place ++ [name]) (by simpa using differs)
  exact reaches.remove_join isName shut.short shut.fits (same ▸ shut.there)
    (same ▸ shut.not_directory)

end Shut
end Appliance.Disk
