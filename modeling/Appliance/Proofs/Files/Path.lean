import Appliance.Files.Disk
import Appliance.Proofs.Text.Cut
import Mathlib.Data.String.Basic

/-! Paths and the names in them: what a name below a directory makes of the path, and the path that
names make. -/
namespace Appliance

namespace Path

/-- Is a text the name of one thing in a directory? -/
def IsName (name : String) : Prop := name ≠ "" ∧ name ≠ "." ∧ name ≠ ".." ∧ '/' ∉ name.toList

variable {path directory name : String}

theorem IsName.not_isAbsolute (h : IsName name) : isAbsolute name = false := by
  simp only [isAbsolute, decide_eq_false_iff_not]
  exact fun first => h.2.2.2 (List.mem_of_head? first)

theorem IsName.not_endsInSlash (h : IsName name) : endsInSlash name = false := by
  simp only [endsInSlash, decide_eq_false_iff_not]
  exact fun last => h.2.2.2 (List.mem_of_getLast? last)

theorem clean_of_mem_names (h : name ∈ names path) : name ≠ "" ∧ '/' ∉ name.toList := by
  simp only [names, List.mem_map, List.mem_filter] at h
  obtain ⟨piece, ⟨mem, some⟩, rfl⟩ := h
  exact ⟨by simpa using some, by simpa using Text.not_mem_of_mem_cut mem⟩

theorem exists_toList_join (hd : directory ≠ "") (h : IsName name) :
    ∃ stem, (join directory name).toList = stem ++ '/' :: name.toList ∧
      (Text.cut '/' stem).filter (!·.isEmpty) =
        (Text.cut '/' directory.toList).filter (!·.isEmpty) := by
  rw [join, if_neg (by simp [h.not_isAbsolute, hd])]
  split
  next slash =>
    obtain ⟨stem, same⟩ := List.getLast?_eq_some_iff.1 (of_decide_eq_true slash)
    exact ⟨stem, by simp [same], by simp [same, Text.cut_append, Text.cut]⟩
  · exact ⟨directory.toList, by simp, rfl⟩

theorem join_ne_empty (hd : directory ≠ "") (h : IsName name) : join directory name ≠ "" := by
  obtain ⟨stem, same, -⟩ := exists_toList_join hd h
  intro none
  simp [none] at same

theorem join_empty (name : String) : join "" name = name := if_pos (.inr rfl)

theorem names_join (directory : String) (h : IsName name) :
    names (join directory name) = names directory ++ [name] := by
  by_cases empty : directory = ""
  · rw [empty, join_empty]
    simp [names, Text.cut_of_not_mem h.2.2.2, h.1, Text.cut]
  · obtain ⟨stem, join, same⟩ := exists_toList_join empty h
    simp [names, join, Text.cut_append, Text.cut_of_not_mem h.2.2.2, same, h.1]

theorem endsInSlash_join (directory : String) (h : IsName name) :
    endsInSlash (join directory name) = false := by
  by_cases empty : directory = ""
  · rw [empty, join_empty, h.not_endsInSlash]
  · obtain ⟨stem, join, -⟩ := exists_toList_join empty h
    have some : name.toList ≠ [] := by simp [h.1]
    rw [endsInSlash, join, List.getLast?_append_of_ne_nil _ (List.cons_ne_nil _ _),
      List.getLast?_cons_of_ne_nil some]
    exact h.not_endsInSlash

theorem steps_join (directory : String) (h : IsName name) :
    steps (join directory name) = names directory ++ [name] := by
  rw [steps, endsInSlash_join directory h, if_neg Bool.false_ne_true, names_join directory h]

theorem isAbsolute_join (directory : String) (h : IsName name) :
    isAbsolute (join directory name) = isAbsolute directory := by
  by_cases empty : directory = ""
  · rw [empty, join_empty, h.not_isAbsolute]
    rfl
  · have some : directory.toList ≠ [] := by simp [empty]
    rw [join, if_neg (by simp [h.not_isAbsolute, empty])]
    split <;> simp only [isAbsolute, String.toList_append, List.append_assoc,
      List.head?_append_of_ne_nil _ some]

theorem mem_join (hd : directory ≠ "") (h : IsName name) {c : Char} (hc : c ≠ '/') :
    c ∈ (join directory name).toList ↔ c ∈ directory.toList ∨ c ∈ name.toList := by
  rw [join, if_neg (by simp [h.not_isAbsolute, hd])]
  split <;> simp [hc]

theorem utf8ByteSize_join (hd : directory ≠ "") (h : IsName name) :
    directory.utf8ByteSize + name.utf8ByteSize ≤ (join directory name).utf8ByteSize := by
  rw [join, if_neg (by simp [h.not_isAbsolute, hd])]
  split
  · rw [String.utf8ByteSize_append]
  · rw [String.utf8ByteSize_append, String.utf8ByteSize_append]
    omega

theorem names_append_slashes (path : String) (count : Nat) :
    names (path ++ String.ofList (List.replicate count '/')) = names path := by
  have only (count : Nat) : (Text.cut '/' (List.replicate count '/')).filter (!·.isEmpty) = [] := by
    induction count with
    | zero => rfl
    | succ count ih => simpa [List.replicate_succ, Text.cut] using ih
  cases count with
  | zero => simp
  | succ count =>
    simp only [names, String.toList_append, String.toList_ofList, List.replicate_succ,
      Text.cut_append, List.filter_append, only, List.append_nil]

theorem utf8ByteSize_slashes (count : Nat) :
    (String.ofList (List.replicate count '/')).utf8ByteSize = count := by
  rw [String.utf8ByteSize_ofList]
  induction count with
  | zero => rfl
  | succ count ih => rw [List.replicate_succ, String.utf8Len_cons, ih]; rfl

end Path

namespace Disk

open Appliance.Path

variable {path : String} {some : List String}

theorem toList_pathOf (absolute : Bool) (some : List String) :
    (pathOf absolute some).toList =
      (if absolute then ['/'] else []) ++ ['/'].intercalate (some.map String.toList) := by
  rw [pathOf, String.toList_append, String.toList_intercalate]
  split <;> rfl

theorem pathOf_sublist (h : some.Sublist (names path)) :
    (pathOf (isAbsolute path) some).toList.Sublist path.toList := by
  have fewer : (some.map String.toList).Sublist
      ((Text.cut '/' path.toList).filter (!·.isEmpty)) := by
    simpa [names, Function.comp_def] using h.map String.toList
  rw [toList_pathOf]
  split
  next absolute =>
    obtain ⟨rest, same⟩ := List.head?_eq_some_iff.1 (of_decide_eq_true absolute)
    rw [same, show Text.cut '/' ('/' :: rest) = [] :: Text.cut '/' rest from rfl,
      List.filter_cons_of_neg (by simp)] at fewer
    have inside := Text.intercalate_sublist ['/']
      (fewer.trans List.filter_sublist)
    rw [← Text.join_eq_intercalate _ (Text.cut _ _), Text.join_cut] at inside
    simpa [same] using inside
  · have inside := Text.intercalate_sublist ['/'] (fewer.trans List.filter_sublist)
    rwa [← Text.join_eq_intercalate _ (Text.cut _ _), Text.join_cut] at inside

theorem names_pathOf (absolute : Bool) (some : List String)
    (clean : ∀ name ∈ some, name ≠ "" ∧ '/' ∉ name.toList) :
    names (pathOf absolute some) = some := by
  rcases some with _ | ⟨name, rest⟩
  · cases absolute <;> rfl
  have kept : ((name :: rest).map String.toList).filter (!·.isEmpty) =
      (name :: rest).map String.toList :=
    List.filter_eq_self.2 fun piece h => by
      obtain ⟨n, mem, rfl⟩ := List.mem_map.1 h
      simpa using (clean n mem).1
  have pieces : Text.cut '/' (['/'].intercalate ((name :: rest).map String.toList)) =
      (name :: rest).map String.toList :=
    Text.cut_intercalate (by simp) fun piece h => by
      obtain ⟨n, mem, rfl⟩ := List.mem_map.1 h
      exact (clean n mem).2
  have whole : (Text.cut '/' (pathOf absolute (name :: rest)).toList).filter (!·.isEmpty) =
      (name :: rest).map String.toList := by
    rw [toList_pathOf]
    split
    · rw [List.singleton_append, Text.cut, if_pos rfl, pieces, List.filter_cons_of_neg (by simp),
        kept]
    · rw [List.nil_append, pieces, kept]
  rw [names, whole, List.map_map]
  exact (List.map_congr_left fun n _ => String.ofList_toList).trans (List.map_id _)

theorem isAbsolute_pathOf (absolute : Bool) (some : List String)
    (clean : ∀ name ∈ some, name ≠ "" ∧ '/' ∉ name.toList) :
    isAbsolute (pathOf absolute some) = absolute := by
  rcases some with _ | ⟨name, rest⟩
  · cases absolute <;> rfl
  obtain ⟨first, noSlash⟩ := clean name List.mem_cons_self
  have some : name.toList ≠ [] := by simp [first]
  have start : (['/'].intercalate ((name :: rest).map String.toList)).head? =
      name.toList.head? := by
    cases rest with
    | nil => simp
    | cons next rest =>
      simp only [List.map_cons, List.intercalate_cons_cons, List.append_assoc,
        List.head?_append_of_ne_nil _ some]
  rw [isAbsolute, toList_pathOf]
  cases absolute with
  | true => simp
  | false =>
    rw [if_neg Bool.false_ne_true, List.nil_append, start]
    exact decide_eq_false fun same => noSlash (List.mem_of_head? same)

theorem checkPath_eq_ok : checkPath path = .ok () ↔
    '\x00' ∉ path.toList ∧ path ≠ "" ∧ path.utf8ByteSize < 4096 := by
  simp only [checkPath, List.contains_iff_mem]
  split_ifs <;> simp_all

theorem checkPath_pathOf (fits : checkPath path = .ok ()) (h : some.Sublist (names path))
    (ne : some ≠ []) : checkPath (pathOf (isAbsolute path) some) = .ok () := by
  have less := pathOf_sublist h
  rw [checkPath_eq_ok] at fits ⊢
  refine ⟨fun nul => fits.1 (less.subset nul), fun none => ?_, ?_⟩
  · have same := names_pathOf (isAbsolute path) some fun n hn => clean_of_mem_names (h.subset hn)
    rw [none] at same
    exact ne same.symm
  · rw [← String.utf8Len_toList] at fits ⊢
    exact (String.utf8Len_le_of_sublist less).trans_lt fits.2.2

end Disk
end Appliance
