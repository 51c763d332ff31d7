import Appliance.Proofs.Toml.Assembly
import Appliance.Proofs.Toml.Line

/-! Printing a table and reading the text gives the table back, and there is a text unless an
integer is too large. -/
namespace Appliance.Toml

theorem exists_writeAll {values : List (String × Value)}
    (isInline : ∀ m ∈ values, m.2.IsInline limit) :
    ∃ text, writeAll (assignmentsOf (.table values)) = some text ∧
      Reads text ((assignmentsOf (.table values)).map .assign) := by
  have each : ∀ a ∈ assignmentsOf (.table values), ∃ line, a.write = some line ∧
      Reads line [.assign a] := by
    intro a ha
    obtain ⟨m, mem, rfl⟩ := List.mem_map.1 ha
    obtain ⟨line, written, isLine⟩ := exists_line m.1 (isInline m mem)
    exact ⟨_, written, isLine.toReads⟩
  obtain ⟨lines, all, reads⟩ := exists_mapM each
  refine ⟨lines.flatten, by simp [writeAll, all], ?_⟩
  have parts : ((assignmentsOf (.table values)).map fun a => [Statement.assign a]).flatten =
      (assignmentsOf (.table values)).map .assign := by
    rw [← List.flatMap_def, ← List.map_eq_flatMap]
  rw [← parts]
  exact .flatten (List.forall₂_map_right_iff.2 reads)

theorem reads_write_table (name : String) :
    Reads (Header.table [name]).write [.header (.table [name])] := by
  have line := (line_table name).toReads
  rwa [List.cons_append, List.append_assoc] at line

theorem reads_write_next (name : String) :
    Reads (Header.next [name]).write [.header (.next [name])] := by
  have line := (line_next name).toReads
  rwa [List.cons_append, List.cons_append, List.append_assoc] at line

theorem exists_write_section {header : Header} (reads : Reads header.write [.header header])
    {values : List (String × Value)} (flat : Value.IsFlat limit values) :
    ∃ text, (Section.mk header (assignmentsOf (.table values))).write = some text ∧
      Reads text (Section.mk header (assignmentsOf (.table values))).statements := by
  obtain ⟨text, written, body⟩ := exists_writeAll flat.isInline
  exact ⟨header.write ++ text, by simp [Section.write, written], reads.append body⟩

theorem exists_write_of_mem_sectionsOf {m : String × Value} (block : m.2.IsBlock limit)
    {part : Section}
    (h : part ∈ sectionsOf m) :
    ∃ text, part.write = some text ∧ Reads text part.statements := by
  obtain ⟨name, value⟩ := m
  cases value with
  | table values =>
    obtain rfl := List.mem_singleton.1 h
    exact exists_write_section (reads_write_table name) block
  | tables items =>
    obtain ⟨item, mem, rfl⟩ := List.mem_map.1 h
    obtain ⟨values, rfl, flat⟩ := block.2 item mem
    exact exists_write_section (reads_write_next name) flat
  | null | boolean | integer | float | string | datetime | array => exact block.elim

theorem isSimple_of_isInline {value : Value} (h : value.IsInline limit) :
    isSimple value = true := by
  cases value with
  | tables | table => rcases h with h | ⟨_, same, _⟩ <;> simp_all [Value.IsScalar]
  | _ => rfl

theorem isSimple_of_isBlock {value : Value} (h : value.IsBlock limit) : isSimple value = false := by
  cases value with
  | tables | table => rfl
  | _ => exact h.elim

theorem flatMap_sectionsOf (members : List (String × Value)) :
    members.flatMap sectionsOf = (members.filter (!isSimple ·.2)).flatMap sectionsOf := by
  induction members with
  | nil => rfl
  | cons m members ih =>
    obtain ⟨name, value⟩ := m
    cases value with
    | tables | table => simp [isSimple, ih]
    | _ => simpa [isSimple, sectionsOf] using ih

/-- What is printed is read again as the same table, in which inline values come first. -/
theorem exists_print {members : List (String × Value)} (distinct : (members.map (·.1)).Nodup)
    (kinds : ∀ m ∈ members, m.2.IsInline limit ∨ m.2.IsBlock limit) :
    ∃ text, print members = some text ∧
      read text = some (.table
        (members.filter (isSimple ·.2) ++ members.filter (!isSimple ·.2))) := by
  have isInline : ∀ m ∈ members.filter (isSimple ·.2), m.2.IsInline limit := by
    intro m hm
    have ⟨mem, simple⟩ := List.mem_filter.1 hm
    exact (kinds m mem).resolve_right fun block => by simp [isSimple_of_isBlock block] at simple
  have isBlock : ∀ m ∈ members.filter (!isSimple ·.2), m.2.IsBlock limit := by
    intro m hm
    have ⟨mem, notSimple⟩ := List.mem_filter.1 hm
    exact (kinds m mem).resolve_left fun inline => by
      simp [isSimple_of_isInline inline] at notSimple
  have names :
      ((members.filter (isSimple ·.2) ++ members.filter (!isSimple ·.2)).map (·.1)).Nodup :=
    ((List.filter_append_perm _ _).map _).nodup_iff.2 distinct
  obtain ⟨top, writtenTop, readsTop⟩ := exists_writeAll isInline
  have each : ∀ part ∈ members.flatMap sectionsOf, ∃ text, part.write = some text ∧
      Reads text part.statements := by
    intro part h
    rw [flatMap_sectionsOf] at h
    obtain ⟨m, hm, mem⟩ := List.mem_flatMap.1 h
    exact exists_write_of_mem_sectionsOf (isBlock m hm) mem
  obtain ⟨parts, writtenParts, readsParts⟩ := exists_mapM each
  have readsParts := List.forall₂_map_right_iff.2 readsParts
  -- No blank line stands before the first section where no assignments come first.
  have readsAll : Reads (['\n'].intercalate (if top.isEmpty then parts else top :: parts))
      ((assignmentsOf (.table (members.filter (isSimple ·.2)))).map .assign ++
        ((members.flatMap sectionsOf).map Section.statements).flatten) := by
    split_ifs with empty
    · obtain rfl : top = [] := by simpa using empty
      exact readsTop.append (.intercalate readsParts)
    · exact .intercalate (.cons readsTop readsParts)
  have printed : print members =
      some (String.ofList (['\n'].intercalate (if top.isEmpty then parts else top :: parts))) := by
    simp [print, writtenTop, writtenParts]
  refine ⟨_, printed, ?_⟩
  rw [read, String.toList_ofList, readsAll.eq_some, Option.bind_some, ← List.flatMap_def,
    flatMap_sectionsOf, assemble_statements names isBlock]

theorem mapM_eq_none {α β : Type} {f : α → Option β} {xs : List α} {x : α} (mem : x ∈ xs)
    (fails : f x = none) : xs.mapM f = none := by
  induction xs with
  | nil => simp at mem
  | cons y xs ih =>
    rw [List.mapM_cons]
    rcases List.mem_cons.1 mem with rfl | mem
    · rw [fails]
      rfl
    · rw [ih mem]
      cases f y <;> rfl

theorem print_eq_none {members values : List (String × Value)} {name key : String} {n : Int}
    (table : (name, .table values) ∈ members) (integer : (key, .integer n) ∈ values)
    (large : 0x8000000000000000 ≤ n) : print members = none := by
  have assignment : (⟨[key], .integer n⟩ : Assignment) ∈ assignmentsOf (.table values) :=
    List.mem_map.2 ⟨_, integer, rfl⟩
  have noAssignment : Assignment.write ⟨[key], .integer n⟩ = none := by
    simp [Assignment.write, writeValue, writeSimple, Int.not_lt.2 large]
  have part : Section.mk (.table [name]) (assignmentsOf (.table values)) ∈
      members.flatMap sectionsOf :=
    List.mem_flatMap.2 ⟨_, table, List.mem_singleton_self _⟩
  have noPart : (Section.mk (.table [name]) (assignmentsOf (.table values))).write = none := by
    simp [Section.write, writeAll, mapM_eq_none assignment noAssignment]
  rw [print, mapM_eq_none part noPart]
  cases writeAll (assignmentsOf (.table (members.filter (isSimple ·.2)))) <;> rfl

end Appliance.Toml
