import Appliance.Proofs.Files.Path
import Appliance.Proofs.Files.Tree
import Mathlib.Data.List.Induction

/-! Following paths. A path with one more name leads where a step with that name leads from the end
of the path before it. A path that leads to a directory passes directories and links to directories
only, so it leads there as long as those stay. -/
namespace Appliance.Disk

variable {disk other : Disk} {aim : Aim} {place : Location} {names : List String} {name : String}

/-- One more name after some: the way goes on from where they led, if it led there. -/
theorem advance_concat (named : aim = .write → name ≠ "") (place : Location) (names : List String) :
    disk.advance aim place (names ++ [name]) =
      match disk.advance .node place names with
      | .error fault => .error fault
      | .ok (.present reached) => disk.advance aim reached [name]
      | .ok (.absent _ _) => .error .notFound
      | .ok (.link directory target rest) => .ok (.link directory target (rest ++ [name])) := by
  induction names generalizing place with
  | nil => rfl
  | cons first rest ih =>
    have slash : ¬(aim = .write ∧ rest ++ [name] = [""]) := by
      rintro ⟨write, same⟩
      cases rest with
      | nil => exact named write (by simpa using same)
      | cons => simp at same
    have more : (rest ++ [name]).isEmpty = false := by cases rest <;> rfl
    rw [List.cons_append, advance.eq_2 disk aim, advance.eq_2 disk .node]
    simp only [slash, more, reduceCtorEq, false_and, and_false, if_false, Bool.false_eq_true]
    by_cases directory : disk.get? place ≠ some .directory
    · rw [if_pos directory, if_pos directory]
    rw [if_neg directory, if_neg directory]
    by_cases same : first = "" ∨ first = "."
    · rw [if_pos same, if_pos same]
      exact ih place
    rw [if_neg same, if_neg same]
    by_cases up : first = ".."
    · rw [if_pos up, if_pos up]
      exact ih place.dropLast
    rw [if_neg up, if_neg up]
    by_cases long : 255 < first.utf8ByteSize
    · rw [if_pos long, if_pos long]
    rw [if_neg long, if_neg long]
    -- At a file the way goes on as well: it is the next step that fails there.
    rcases disk.get? (place ++ [first]) with _ | _ | _ | target
    · cases rest <;> rfl
    · exact ih (place ++ [first])
    · exact ih (place ++ [first])
    · rfl

theorem walk_concat (disk : Disk) (named : aim = .write → name ≠ "") (links : Nat)
    (place : Location) (names : List String) :
    ∃ left, disk.walk aim links place (names ++ [name]) =
      match disk.walk .node links place names with
      | .error fault => .error fault
      | .ok (.present reached) => disk.walk aim left reached [name]
      | .ok (.absent _ _) => .error .notFound := by
  -- On the links left to follow; what the first names use up is not left for the last one.
  induction links generalizing place names with
  | zero =>
    refine ⟨0, ?_⟩
    rw [walk, walk, advance_concat named]
    rcases disk.advance .node place names with _ | reached | _ | _ <;> try rfl
    exact (walk.eq_def disk aim 0 reached [name]).symm
  | succ links ih =>
    rw [walk, walk, advance_concat named]
    rcases disk.advance .node place names with _ | reached | _ | ⟨directory, target, rest⟩
    · exact ⟨0, rfl⟩
    · exact ⟨links + 1, (walk.eq_def disk aim (links + 1) reached [name]).symm⟩
    · exact ⟨0, rfl⟩
    · simpa only [List.append_assoc] using
        ih (if Path.isAbsolute target then [] else directory) (Path.steps target ++ rest)

def EndsNowhere (found : Except Fault Spot) : Prop :=
  found = .error .notFound ∨ ∃ above last, found = .ok (.absent above last)

section Concat

variable {links : Nat} (filled : name ≠ "")
include filled

theorem walk_concat_of_present {above : Location}
    (reached : disk.walk .node links place names = .ok (.present above)) (aim : Aim) :
    ∃ left, disk.walk aim links place (names ++ [name]) = disk.walk aim left above [name] := by
  obtain ⟨left, same⟩ := disk.walk_concat (fun _ : aim = .write => filled) links place names
  exact ⟨left, by rw [same, reached]⟩

theorem walk_concat_of_nowhere (nowhere : EndsNowhere (disk.walk .node links place names))
    (aim : Aim) : disk.walk aim links place (names ++ [name]) = .error .notFound := by
  obtain ⟨left, same⟩ := disk.walk_concat (fun _ : aim = .write => filled) links place names
  rcases nowhere with none | ⟨_, _, none⟩ <;> rw [same, none]

end Concat

theorem walk_here (h : name = "" ∨ name = ".") (links : Nat) (place : Location) :
    disk.walk .node links place [name] =
      if disk.get? place = some .directory then .ok (.present place) else .error .notDirectory := by
  rw [walk.eq_def, advance.eq_2]
  by_cases there : disk.get? place = some .directory <;> simp [advance, there, h]

theorem walk_steps (links : Nat) (place : Location) (path : String) :
    disk.walk .node links place (Path.steps path) =
      if Path.endsInSlash path then
        match disk.walk .node links place (Path.names path) with
        | .error fault => .error fault
        | .ok (.present reached) =>
          if disk.get? reached = some .directory then .ok (.present reached)
          else .error .notDirectory
        | .ok (.absent _ _) => .error .notFound
      else disk.walk .node links place (Path.names path) := by
  rw [Path.steps]
  split
  · have same := walk_concat disk (show Aim.node = .write → "" ≠ "" by simp) links place
      (Path.names path)
    simpa only [walk_here (.inl rfl), exists_const] using same
  · rfl

theorem walk_name (isName : Path.IsName name) (short : name.utf8ByteSize ≤ 255)
    (directory : disk.get? place = some .directory) (links : Nat)
    (final : aim = .last ∨ ∀ target, disk.get? (place ++ [name]) ≠ some (.link target)) :
    disk.walk aim links place [name] = .ok (if (disk.get? (place ++ [name])).isSome then
      .present (place ++ [name]) else .absent place name) := by
  obtain ⟨some, here, up, -⟩ := isName
  have reached : disk.advance aim place [name] = .ok (if (disk.get? (place ++ [name])).isSome then
      .present (place ++ [name]) else .absent place name) := by
    rw [advance.eq_2, if_neg (not_not.2 directory), if_neg (by simp [some, here]), if_neg up,
      if_neg (by simp), if_neg (Nat.not_lt.2 short)]
    rcases h : disk.get? (place ++ [name]) with _ | _ | _ | target
    · rfl
    · rfl
    · rfl
    · have last := final.resolve_right fun never => never target h
      simp [last]
  rw [walk.eq_def, reached]
  cases (disk.get? (place ++ [name])).isSome <;> rfl

theorem directory_of_walk {links : Nat} {rest : List String} {spot : Spot}
    (h : disk.walk aim links place (name :: rest) = .ok spot) :
    disk.get? place = some .directory := by
  by_contra other
  rw [walk.eq_def, advance.eq_2, if_pos other] at h
  exact nomatch h

theorem of_walk_name (isName : Path.IsName name) {links : Nat} {reached : Location}
    (h : disk.walk .node links place [name] = .ok (.present reached)) :
    disk.get? place = some .directory ∧ name.utf8ByteSize ≤ 255 ∧
      (disk.get? (place ++ [name])).isSome := by
  have directory := directory_of_walk h
  obtain ⟨some, here, up, -⟩ := isName
  rw [walk.eq_def, advance.eq_2, if_neg (not_not.2 directory), if_neg (by simp [some, here]),
    if_neg up, if_neg (by simp)] at h
  by_cases long : 255 < name.utf8ByteSize
  · rw [if_pos long] at h
    exact nomatch h
  · refine ⟨directory, Nat.not_lt.1 long, ?_⟩
    rcases there : disk.get? (place ++ [name]) with _ | _
    · simp [long, there] at h
    · rfl

theorem exists_of_walk_append {links : Nat} {more : List String} {reached : Location}
    (h : disk.walk .node links place (names ++ more) = .ok (.present reached))
    (directory : disk.get? reached = some .directory) :
    ∃ between, disk.walk .node links place names = .ok (.present between) ∧
      disk.get? between = some .directory := by
  induction more using List.reverseRecOn generalizing reached with
  | nil => exact ⟨reached, by simpa using h, directory⟩
  | append_singleton more last ih =>
    obtain ⟨left, same⟩ := disk.walk_concat (show Aim.node = .write → last ≠ "" from nofun) links
      place (names ++ more)
    rw [← List.append_assoc, same] at h
    rcases found : disk.walk .node links place (names ++ more) with _ | above | _ <;>
      rw [found] at h
    · exact nomatch h
    · exact ih found (directory_of_walk h)
    · exact nomatch h

structure Keeps (disk other : Disk) : Prop where
  here : other.here = disk.here
  node : ∀ place node, disk.get? place = some node → (∀ file, node ≠ .file file) →
    other.get? place = some node

theorem Keeps.trans {third : Disk} (first : disk.Keeps other) (second : other.Keeps third) :
    disk.Keeps third where
  here := second.here.trans first.here
  node _ _ there noFile := second.node _ _ (first.node _ _ there noFile) noFile

/-- Can a way go on past a place? It can from a directory, and through a link that leads to one. -/
def Passable (disk : Disk) (place : Location) : Prop :=
  disk.get? place = some .directory ∨ ∃ target links reached,
    disk.get? place = some (.link target) ∧
    disk.walk .node links (if Path.isAbsolute target then [] else place.dropLast)
      (Path.steps target) = .ok (.present reached) ∧
    disk.get? reached = some .directory

structure KeepsWays (disk other : Disk) : Prop where
  here : other.here = disk.here
  node : ∀ place, disk.Passable place → other.get? place = disk.get? place

theorem Keeps.ways (keeps : disk.Keeps other) : disk.KeepsWays other where
  here := keeps.here
  node place := by
    rintro (directory | ⟨target, _, _, link, -⟩)
    · rw [keeps.node _ _ directory nofun, directory]
    · rw [keeps.node _ _ link nofun, link]

theorem KeepsWays.directory (keeps : disk.KeepsWays other)
    (h : disk.get? place = some .directory) : other.get? place = some .directory :=
  (keeps.node place (.inl h)).trans h

theorem KeepsWays.advance (keeps : disk.KeepsWays other) {stop : Stop}
    (h : disk.advance .node place names = .ok stop)
    (ends : (∃ reached, stop = .present reached ∧ disk.get? reached = some .directory) ∨
      ∃ above target rest links reached, stop = .link above target rest ∧
        disk.walk .node links (if Path.isAbsolute target then [] else above) (Path.steps target) =
          .ok (.present reached) ∧ disk.get? reached = some .directory) :
    other.advance .node place names = .ok stop := by
  induction names generalizing place with
  | nil => exact h
  | cons first rest ih =>
    have past : ¬(Aim.node = .write ∧ rest = [""]) := fun same => nomatch same.1
    rw [advance.eq_2, if_neg past] at h ⊢
    by_cases directory : disk.get? place = some .directory
    · rw [if_neg (not_not.2 directory)] at h
      rw [if_neg (not_not.2 (keeps.directory directory))]
      by_cases same : first = "" ∨ first = "."
      · rw [if_pos same] at h ⊢
        exact ih h
      rw [if_neg same] at h ⊢
      by_cases up : first = ".."
      · rw [if_pos up] at h ⊢
        exact ih h
      rw [if_neg up] at h ⊢
      by_cases long : 255 < first.utf8ByteSize
      · rw [if_pos long] at h
        exact nomatch h
      rw [if_neg long] at h ⊢
      rcases entry : disk.get? (place ++ [first]) with _ | _ | file | target <;> rw [entry] at h
      · cases rest <;> simp at h
        rw [← h] at ends
        simp at ends
      · rw [keeps.directory entry]
        exact ih h
      · cases rest with
        | nil =>
          cases h
          simp [entry] at ends
        | cons => simp [Disk.advance, entry] at h
      · simp only [reduceCtorEq, and_false, if_false] at h
        obtain ⟨_, there, -⟩ | ⟨_, _, _, links, reached, there, led, onward⟩ := ends
        · exact nomatch (Except.ok.inj h).trans there
        cases h
        cases there
        have passable : disk.Passable (place ++ [first]) :=
          .inr ⟨target, links, reached, entry, by simpa using led, onward⟩
        rw [keeps.node _ passable, entry]
        simp
    · simp [directory] at h

/-- A path that leads to a directory leads there as long as what it passes stays. -/
theorem KeepsWays.walk (keeps : disk.KeepsWays other) {links : Nat} {reached : Location}
    (h : disk.walk .node links place names = .ok (.present reached))
    (directory : disk.get? reached = some .directory) :
    other.walk .node links place names = .ok (.present reached) := by
  fun_induction disk.walk .node links place names with
  | case1 | case3 | case4 => exact nomatch h
  | case2 links place names ended stop =>
    cases h
    rw [walk.eq_def, keeps.advance stop (.inl ⟨_, rfl, directory⟩)]
  | case5 place names above target rest stop links ih =>
    obtain ⟨between, led, onward⟩ := exists_of_walk_append h directory
    rw [walk.eq_def, keeps.advance stop (.inr ⟨_, _, _, _, _, rfl, led, onward⟩)]
    exact ih h

end Appliance.Disk
