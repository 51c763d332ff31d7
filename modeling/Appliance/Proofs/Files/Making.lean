import Appliance.Proofs.Files.Folder

/-! Making directories: no file is touched by it, where there is a directory nothing happens, and a
path of proper names gets all the directories that it lacks. -/
namespace Appliance.Disk

variable {disk other made : Disk} {aim : Aim} {path name : String} {place above : Location}
  {names : List String}

/-! A place where a walk finds nothing is empty. -/

theorem get?_of_advance_absent (h : disk.advance aim place names = .ok (.absent above name)) :
    disk.get? (above ++ [name]) = none := by
  fun_induction disk.advance aim place names with
  | case7 location first rest directory here up slash short entry ends =>
    cases h
    exact entry
  | _ => simp_all

theorem get?_of_walk_absent {links : Nat}
    (h : disk.walk aim links place names = .ok (.absent above name)) :
    disk.get? (above ++ [name]) = none := by
  fun_induction disk.walk aim links place names with
  | case1 | case2 | case4 => cases h
  | case3 links place names directory last stop =>
    cases h
    exact get?_of_advance_absent stop
  | case5 _ _ _ _ _ _ _ ih => exact ih h

/-! Files stay. -/

def SameFiles (disk other : Disk) : Prop :=
  ∀ place file, disk.get? place = some (.file file) ↔ other.get? place = some (.file file)

theorem SameFiles.refl (disk : Disk) : disk.SameFiles disk := fun _ _ => .rfl

theorem exists_of_makeDirectory (h : disk.makeDirectory path = .ok made) :
    ∃ above name, disk.get? (above ++ [name]) = none ∧
      made = disk.put (above ++ [name]) .directory := by
  simp only [makeDirectory] at h
  split at h
  · obtain ⟨_, _, failed⟩ := Except.bind_eq_ok_iff.1 h
    exact nomatch failed
  · obtain ⟨found, walked, last⟩ := Except.bind_eq_ok_iff.1 h
    rcases found with _ | ⟨above, name⟩
    · exact nomatch last
    · exact ⟨above, name, get?_of_walk_absent (spot_eq_ok.1 walked).2, (Except.ok.inj last).symm⟩

def GainsDirectories (disk after : Disk) : Prop :=
  ∀ place, after.get? place = disk.get? place ∨
    disk.get? place = none ∧ after.get? place = some .directory

theorem GainsDirectories.refl (disk : Disk) : disk.GainsDirectories disk := fun _ => .inl rfl

theorem GainsDirectories.trans {after : Disk} (first : disk.GainsDirectories made)
    (second : made.GainsDirectories after) : disk.GainsDirectories after := by
  intro place
  rcases first place with same | ⟨empty, gained⟩
  · rw [← same]
    exact second place
  · rcases second place with same | ⟨none, -⟩
    · exact .inr ⟨empty, same.trans gained⟩
    · exact nomatch none.symm.trans gained

theorem GainsDirectories.sameFiles (gains : disk.GainsDirectories made) : made.SameFiles disk := by
  intro place file
  rcases gains place with same | ⟨empty, gained⟩
  · rw [same]
  · simp [empty, gained]

theorem gainsDirectories_of_makeDirectory (h : disk.makeDirectory path = .ok made) :
    disk.GainsDirectories made := by
  obtain ⟨above, name, empty, rfl⟩ := exists_of_makeDirectory h
  intro place
  rw [get?_put (by simp)]
  split
  next same => exact .inr ⟨same ▸ empty, rfl⟩
  · exact .inl rfl

theorem makeOrFind_gainsDirectories (disk : Disk) (path : String) :
    disk.GainsDirectories (disk.makeOrFind path).2 := by
  rw [makeOrFind]
  split
  next made => exact gainsDirectories_of_makeDirectory made
  · exact .refl disk

theorem makeChain_gainsDirectories (disk : Disk) (absolute : Bool) (path : String)
    (above : List String) : disk.GainsDirectories (disk.makeChain absolute path above).2 := by
  fun_induction disk.makeChain absolute path above with
  | case1 path => exact disk.makeOrFind_gainsDirectories path
  | case2 path name higher missing made same ih =>
    rw [same] at ih
    exact ih.trans (made.makeOrFind_gainsDirectories path)
  | case3 path name higher missing fault made same ih => rwa [same] at ih
  | case4 path => exact disk.makeOrFind_gainsDirectories path

theorem makeDirectories_gainsDirectories (disk : Disk) (path : String) :
    disk.GainsDirectories (disk.makeDirectories path).2 := by
  rw [makeDirectories]
  split
  · exact .refl disk
  · exact makeChain_gainsDirectories disk _ _ _

theorem makeDirectories_sameFiles (disk : Disk) (path : String) :
    (disk.makeDirectories path).2.SameFiles disk :=
  (disk.makeDirectories_gainsDirectories path).sameFiles

/-! One directory more. -/

theorem keeps_put (node : Node) (free : disk.get? (above ++ [name]) = none) :
    disk.Keeps (disk.put (above ++ [name]) node) where
  here := rfl
  node place other there _ := by
    rw [get?_put (by simp), if_neg, there]
    rintro rfl
    exact nomatch free.symm.trans there

theorem makeDirectory_eq {init : List String} {last : String}
    (cut : Path.names path = init ++ [last]) (isName : Path.IsName last) :
    disk.makeDirectory path =
      match disk.spot .last path (init ++ [last]) with
      | .error fault => .error fault
      | .ok (.present _) => .error .alreadyExists
      | .ok (.absent above name) => .ok (disk.put (above ++ [name]) .directory) := by
  have proper : ¬(Path.names path).getLast?.all (fun last => last = "." || last = "..") := by
    simp [cut, isName.2.1, isName.2.2.1]
  simp only [makeDirectory]
  rw [if_neg proper, cut]
  rcases disk.spot .last path (init ++ [last]) with _ | _ | _ <;> rfl

theorem makeDirectory_of_nowhere {init : List String} {last : String}
    (cut : Path.names path = init ++ [last]) (fits : checkPath path = .ok ())
    (isName : Path.IsName last)
    (nowhere : EndsNowhere (disk.walk .node maxLinks (disk.start path) init)) :
    disk.makeDirectory path = .error .notFound := by
  rw [makeDirectory_eq cut isName, spot, fits]
  have missing := walk_concat_of_nowhere isName.1 nowhere .last
  simp only [bind, Except.bind, missing]

section Last

variable {init : List String} {last : String} (cut : Path.names path = init ++ [last])
  (fits : checkPath path = .ok ()) (isName : Path.IsName last) (short : last.utf8ByteSize ≤ 255)
  (reached : disk.walk .node maxLinks (disk.start path) init = .ok (.present above))
  (directory : disk.get? above = some .directory)
include cut fits isName short reached directory

theorem makeDirectory_last : disk.makeDirectory path =
    if (disk.get? (above ++ [last])).isSome then .error .alreadyExists
    else .ok (disk.put (above ++ [last]) .directory) := by
  have found : disk.spot .last path (init ++ [last]) =
      .ok (if (disk.get? (above ++ [last])).isSome then .present (above ++ [last])
        else .absent above last) := by
    obtain ⟨left, same⟩ := walk_concat_of_present isName.1 reached .last
    rw [spot_eq_ok, same]
    exact ⟨fits, walk_name isName short directory left (.inl rfl)⟩
  rw [makeDirectory_eq cut isName, found]
  cases (disk.get? (above ++ [last])).isSome <;> rfl

theorem leads_last (there : disk.get? (above ++ [last]) = some .directory) :
    disk.Leads path (above ++ [last]) := by
  refine .of_walk fits there ?_
  obtain ⟨left, same⟩ := walk_concat_of_present isName.1 reached .node
  rw [cut, same]
  refine (walk_name isName short directory left (.inr ?_)).trans ?_
  · simp [there]
  · simp [there]

theorem makeOrFind_last
    (free : disk.get? (above ++ [last]) = none ∨ disk.get? (above ++ [last]) = some .directory) :
    ∃ made, disk.makeOrFind path = (.ok (), made) ∧ made.Leads path (above ++ [last]) ∧
      made.here = disk.here ∧ ∀ place ≠ above ++ [last], made.get? place = disk.get? place := by
  have result := makeDirectory_last cut fits isName short reached directory
  rcases free with none | there
  · simp only [none, Option.isSome_none, Bool.false_eq_true, if_false] at result
    have keeps := keeps_put .directory none
    have there : (disk.put (above ++ [last]) .directory).get? (above ++ [last]) =
        some .directory := by
      rw [get?_put (by simp), if_pos rfl]
    refine ⟨disk.put (above ++ [last]) .directory, ?_, ?_, rfl, fun place other => ?_⟩
    · simp only [makeOrFind, result]
    · exact leads_last cut fits isName short (keeps.ways.walk reached directory)
        (keeps.node _ _ directory nofun) there
    · rw [get?_put (by simp), if_neg other]
  · simp only [there, Option.isSome_some, if_true] at result
    have leads := leads_last cut fits isName short reached directory there
    refine ⟨disk, ?_, leads, rfl, fun _ _ => rfl⟩
    simp only [makeOrFind, result, isDirectory, leads.1, there]
    rfl

end Last

theorem makeDirectory_of_leads (leads : disk.Leads path place) :
    disk.makeDirectory path = .error .alreadyExists := by
  have reached := leads.walk
  by_cases dots : (Path.names path).getLast?.all fun last => last = "." || last = ".."
  · have found : disk.spot .node path (Path.names path ++ ["."]) = .ok (.present place) := by
      obtain ⟨left, same⟩ := walk_concat_of_present (show "." ≠ "" by decide) reached .node
      rw [spot_eq_ok, same]
      exact ⟨leads.checkPath, by simp [walk_here, leads.2]⟩
    simp only [makeDirectory]
    rw [if_pos dots, found]
    rfl
  · obtain ⟨init, last, cut⟩ : ∃ init last, Path.names path = init ++ [last] := by
      refine (List.eq_nil_or_concat' _).resolve_left fun none => dots ?_
      simp [none]
    have isName : Path.IsName last := by
      have ⟨filled, clean⟩ := Path.clean_of_mem_names (show last ∈ Path.names path by simp [cut])
      simp only [cut, List.getLast?_concat, Option.all_some, Bool.or_eq_true, decide_eq_true_eq,
        not_or] at dots
      exact ⟨filled, dots.1, dots.2, clean⟩
    obtain ⟨left, same⟩ := walk_concat disk (fun _ : Aim.node = .write => isName.1) maxLinks
      (disk.start path) init
    rw [← cut, reached] at same
    generalize found : disk.walk .node maxLinks (disk.start path) init = walked at same
    rcases walked with _ | above | _
    · exact nomatch same
    · obtain ⟨directory, short, there⟩ := of_walk_name isName same.symm
      rw [makeDirectory_last cut leads.checkPath isName short found directory, if_pos there]
    · exact nomatch same

theorem makeChain_of_leads (leads : disk.Leads path place) (absolute : Bool) (above : List String) :
    disk.makeChain absolute path above = (.ok (), disk) := by
  have there : disk.makeOrFind path = (.ok (), disk) := by
    simp only [makeOrFind, makeDirectory_of_leads leads, isDirectory, leads.1, leads.2]
    rfl
  cases above with
  | nil => exact there
  | cons => simp only [makeChain, makeDirectory_of_leads leads, there]

theorem makeDirectories_of_leads (leads : disk.Leads path place) :
    disk.makeDirectories path = (.ok (), disk) := by
  rw [makeDirectories, if_neg leads.ne_empty]
  exact makeChain_of_leads leads _ _

/-- A dot at the end of a path asks for a directory before the dot, and none is made there. -/
theorem makeDirectories_of_dot (cut : Path.names path = [name, "."]) (filled : path ≠ "")
    (missing : disk.find path = .error .notFound) :
    disk.makeDirectories path = (.error .notFound, disk) := by
  obtain ⟨fits, nowhere⟩ := (find_eq_notFound filled).1 missing
  have below := walk_concat_of_nowhere (show "." ≠ "" by decide) nowhere .node
  have unmade : disk.makeDirectory path = .error .notFound := by
    simp only [makeDirectory]
    rw [if_pos (by simp [cut]), spot, fits, below]
    rfl
  have first : ((Path.names path).filter (· ≠ ".")).dropLast.reverse = [] := by
    by_cases dot : name = "." <;> simp [cut, dot]
  simp only [makeDirectories, if_neg filled, first, makeChain, makeOrFind, unmade, isDirectory,
    missing]
  rfl

/-! All directories of a path. -/

/-- Is a path one of proper names, with nothing or a directory at each of them? -/
structure Plain (disk : Disk) (path : String) : Prop where
  fits : checkPath path = .ok ()
  name : ∀ name ∈ Path.names path, name ≠ "." ∧ name ≠ ".." ∧ name.utf8ByteSize ≤ 255
  start : disk.get? (disk.start path) = some .directory
  above : ∀ above, above <+: Path.names path → disk.get? (disk.start path ++ above) = none ∨
    disk.get? (disk.start path ++ above) = some .directory

structure HasMade (disk : Disk) (path : String) (made : Disk) : Prop where
  leads : made.Leads path (disk.start path ++ Path.names path)
  here : made.here = disk.here
  frame : ∀ place, made.get? place = disk.get? place ∨ place <+: disk.start path ++ Path.names path

theorem advance_plain {names : List String}
    (isName : ∀ name ∈ names, Path.IsName name ∧ name.utf8ByteSize ≤ 255)
    (directory : disk.get? place = some .directory)
    (free : ∀ above, above <+: names → disk.get? (place ++ above) = none ∨
      disk.get? (place ++ above) = some .directory) :
    (disk.advance .node place names = .ok (.present (place ++ names)) ∧
      disk.get? (place ++ names) = some .directory) ∨
      disk.advance .node place names = .error .notFound ∨
        ∃ above last, disk.advance .node place names = .ok (.absent above last) := by
  induction names generalizing place with
  | nil => exact .inl ⟨by simp [advance], by simpa using directory⟩
  | cons first rest ih =>
    obtain ⟨⟨filled, here, up, -⟩, short⟩ := isName first List.mem_cons_self
    rw [advance.eq_2, if_neg (not_not.2 directory), if_neg (by simp [filled, here]), if_neg up,
      if_neg (by simp), if_neg (Nat.not_lt.2 short)]
    rcases free [first] (by simp) with none | there
    · rw [none]
      cases rest
      · exact .inr (.inr ⟨place, first, rfl⟩)
      · exact .inr (.inl rfl)
    · have onward := ih (fun name mem => isName name (List.mem_cons_of_mem _ mem)) there
        fun above h => by simpa using free (first :: above) (by simpa using h)
      rw [List.append_assoc, List.singleton_append] at onward
      rw [there]
      exact onward

namespace Plain

variable (plain : disk.Plain path)
include plain

theorem isName {name : String} (h : name ∈ Path.names path) :
    Path.IsName name ∧ name.utf8ByteSize ≤ 255 := by
  obtain ⟨filled, clean⟩ := Path.clean_of_mem_names h
  obtain ⟨here, up, short⟩ := plain.name name h
  exact ⟨⟨filled, here, up, clean⟩, short⟩

theorem walk {names : List String} (h : names <+: Path.names path) (links : Nat) :
    (disk.walk .node links (disk.start path) names = .ok (.present (disk.start path ++ names)) ∧
      disk.get? (disk.start path ++ names) = some .directory) ∨
      EndsNowhere (disk.walk .node links (disk.start path) names) := by
  rw [Disk.walk.eq_def]
  rcases advance_plain (fun name mem => plain.isName (h.mem mem)) plain.start
    (fun above shorter => plain.above above (shorter.trans h)) with
    ⟨led, there⟩ | none | ⟨_, _, none⟩
  · exact .inl ⟨by rw [led], there⟩
  · exact .inr (.inl (by rw [none]))
  · exact .inr (.inr ⟨_, _, by rw [none]⟩)

theorem pathOf {names : List String} (h : names <+: Path.names path) (filled : names ≠ []) :
    disk.Plain (pathOf (Path.isAbsolute path) names) ∧
      Path.names (Disk.pathOf (Path.isAbsolute path) names) = names ∧
      Path.isAbsolute (Disk.pathOf (Path.isAbsolute path) names) = Path.isAbsolute path := by
  have clean : ∀ name ∈ names, name ≠ "" ∧ '/' ∉ name.toList :=
    fun name mem => Path.clean_of_mem_names (h.mem mem)
  have same := names_pathOf (Path.isAbsolute path) names clean
  have starts := isAbsolute_pathOf (Path.isAbsolute path) names clean
  refine ⟨⟨checkPath_pathOf plain.fits h.sublist filled, ?_, ?_, ?_⟩, same, starts⟩
  · rw [same]
    exact fun name mem => plain.name name (h.mem mem)
  · rw [Disk.start, starts]
    exact plain.start
  · rw [same, Disk.start, starts]
    exact fun above shorter => plain.above above (shorter.trans h)

theorem makeOrFind {half : Disk} {init : List String} {last : String}
    (cut : Path.names path = init ++ [last]) (here : half.here = disk.here)
    (reached : half.walk .node maxLinks (disk.start path) init =
      .ok (.present (disk.start path ++ init)))
    (directory : half.get? (disk.start path ++ init) = some .directory)
    (frame : ∀ place, half.get? place = disk.get? place ∨ place <+: disk.start path ++ init) :
    ∃ made, half.makeOrFind path = (.ok (), made) ∧ disk.HasMade path made := by
  obtain ⟨isName, short⟩ := plain.isName (show last ∈ Path.names path by simp [cut])
  have starts : half.start path = disk.start path := by rw [Disk.start, here, Disk.start]
  have whole : disk.start path ++ init ++ [last] = disk.start path ++ Path.names path := by
    rw [cut, List.append_assoc]
  have free : half.get? (disk.start path ++ init ++ [last]) = none ∨
      half.get? (disk.start path ++ init ++ [last]) = some .directory := by
    rcases frame (disk.start path ++ init ++ [last]) with same | longer
    · rw [same, whole]
      exact plain.above _ (List.prefix_refl _)
    · simpa using longer.length_le
  obtain ⟨made, ran, leads, here', frame'⟩ :=
    makeOrFind_last cut plain.fits isName short (starts ▸ reached) directory free
  refine ⟨made, ran, whole ▸ leads, here'.trans here, fun place => ?_⟩
  by_cases same : place = disk.start path ++ init ++ [last]
  · exact .inr (same ▸ whole ▸ List.prefix_refl _)
  · refine (frame place).imp (frame' place same).trans fun above => ?_
    exact above.trans (whole ▸ List.prefix_append _ _)

theorem makeChain {above : List String} {last : String}
    (cut : Path.names path = above.reverse ++ [last]) :
    ∃ made, disk.makeChain (Path.isAbsolute path) path above = (.ok (), made) ∧
      disk.HasMade path made := by
  -- On the directories above, innermost first: the chain is climbed until one can be made.
  induction above generalizing path last with
  | nil =>
    exact plain.makeOrFind cut rfl (by rw [Disk.walk.eq_def]; simp [advance])
      (by simpa using plain.start) fun _ => .inl rfl
  | cons name higher ih =>
    have shorter : (name :: higher).reverse <+: Path.names path := cut ▸ List.prefix_append _ _
    obtain ⟨isName, short⟩ := plain.isName (show last ∈ Path.names path by simp [cut])
    rcases plain.walk shorter maxLinks with ⟨reached, directory⟩ | nowhere
    · have found : disk.makeDirectory path ≠ .error .notFound := by
        rw [makeDirectory_last cut plain.fits isName short reached directory]
        split <;> simp
      have once : disk.makeChain (Path.isAbsolute path) path (name :: higher) =
          disk.makeOrFind path := by
        rw [Disk.makeChain]
        split
        next missing => exact absurd missing found
        · rfl
      rw [once]
      exact plain.makeOrFind cut rfl reached directory fun _ => .inl rfl
    · have missing := makeDirectory_of_nowhere cut plain.fits isName nowhere
      obtain ⟨abovePlain, named, starts⟩ := plain.pathOf shorter (by simp)
      obtain ⟨half, ran, halfMade⟩ := ih abovePlain (named.trans List.reverse_cons)
      obtain ⟨leads, here, frame⟩ := halfMade
      rw [starts] at ran
      have same : disk.start (Disk.pathOf (Path.isAbsolute path) (name :: higher).reverse) =
          disk.start path := by rw [Disk.start, starts, Disk.start]
      rw [same, named] at leads frame
      have reached := leads.walk
      rw [Disk.start, starts, here, named] at reached
      simp only [Disk.makeChain, missing, ran]
      exact plain.makeOrFind cut here reached leads.2 frame

theorem makeDirectories : (disk.Leads path (disk.start path ++ Path.names path)) ∨
    disk.find path = .error .notFound ∧
      ∃ made, disk.makeDirectories path = (.ok (), made) ∧ disk.HasMade path made := by
  rcases plain.walk (List.prefix_refl _) maxLinks with ⟨reached, directory⟩ | nowhere
  · exact .inl (.of_walk plain.fits directory reached)
  · have filled : path ≠ "" := (checkPath_eq_ok.1 plain.fits).2.1
    refine .inr ⟨(find_eq_notFound filled).2 ⟨plain.fits, nowhere⟩, ?_⟩
    rcases List.eq_nil_or_concat' (Path.names path) with none | ⟨init, last, cut⟩
    · rw [none, Disk.walk.eq_def] at nowhere
      simp [advance, EndsNowhere] at nowhere
    · have proper : (Path.names path).filter (· ≠ ".") = Path.names path :=
        List.filter_eq_self.2 fun name mem => by simpa using (plain.name name mem).1
      rw [Disk.makeDirectories, if_neg filled, proper]
      have back : Path.names path = (Path.names path).dropLast.reverse.reverse ++ [last] := by
        simp [cut]
      exact plain.makeChain back

end Plain

def LeadsToEmpty (disk : Disk) (path : String) : Prop :=
  ∃ place, disk.Leads path place ∧ ∀ name, disk.get? (place ++ [name]) = none

/-- Does a path lead to an empty directory, or nowhere until the directories of it are made and to
an empty one then? -/
def Clear (disk : Disk) (path : String) : Prop :=
  disk.LeadsToEmpty path ∨ disk.find path = .error .notFound ∧
    ∃ made, disk.makeDirectories path = (.ok (), made) ∧ made.LeadsToEmpty path

theorem Plain.clear (plain : disk.Plain path)
    (empty : ∀ name, disk.get? (disk.start path ++ Path.names path ++ [name]) = none) :
    disk.Clear path := by
  rcases plain.makeDirectories with leads | ⟨missing, made, ran, hasMade⟩
  · exact .inl ⟨_, leads, empty⟩
  · refine .inr ⟨missing, made, ran, _, hasMade.leads, fun name => ?_⟩
    rcases hasMade.frame (disk.start path ++ Path.names path ++ [name]) with same | above
    · rw [same, empty]
    · simpa using above.length_le

end Appliance.Disk
