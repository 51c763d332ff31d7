import Appliance.Proofs.Toml.Value

/-! Reading back lines, and texts made of them. A text stands for statements if it is read as these
statements, whatever text comes after it, followed by those of the other text. -/
namespace Appliance.Toml

/-- Does the text stand for the statements? It has no mark of the byte order in front. -/
structure Reads (text : List Char) (statements : List Statement) : Prop where
  reads : ∀ rest, readStatements (text ++ rest) = (readStatements rest).map (statements ++ ·)
  unmarked : text.head? ≠ some '\uFEFF'

namespace Reads

theorem nil : Reads [] [] := ⟨fun _ => Option.map_id'.symm, by simp⟩

theorem append {front rest : List Char} {first more : List Statement} (hf : Reads front first)
    (hr : Reads rest more) : Reads (front ++ rest) (first ++ more) := by
  refine ⟨fun after => ?_, ?_⟩
  · rw [List.append_assoc, hf.reads, hr.reads, Option.map_map]
    cases readStatements after <;> simp
  · cases front with
    | nil => exact hr.unmarked
    | cons c front => exact hf.unmarked

theorem newline : Reads ['\n'] [] := by
  refine ⟨fun rest => ?_, by decide⟩
  have line : endLine? ('\n' :: rest) = some rest := rfl
  rw [List.singleton_append, readStatements]
  simp only [List.isEmpty_cons, Bool.false_eq_true, if_false, line]
  cases readStatements rest <;> simp

theorem eq_some {text : List Char} {statements : List Statement} (h : Reads text statements) :
    readStatements (dropMark text) = some statements := by
  have noMark : dropMark text = text := by
    unfold dropMark
    split
    · exact absurd rfl h.unmarked
    · rfl
  have whole := h.reads []
  rw [List.append_nil] at whole
  rw [noMark, whole, readStatements]
  simp

theorem flatten {texts : List (List Char)} {parts : List (List Statement)}
    (h : List.Forall₂ Reads texts parts) : Reads texts.flatten parts.flatten := by
  induction h with
  | nil => exact nil
  | cons first _ ih => exact first.append ih

theorem intercalate {texts : List (List Char)} {parts : List (List Statement)}
    (h : List.Forall₂ Reads texts parts) : Reads (['\n'].intercalate texts) parts.flatten := by
  induction h with
  | nil => exact nil
  | @cons text part texts parts first _ ih =>
    cases texts with
    | nil => simpa using first.append ih
    | cons next texts =>
      rw [List.intercalate_cons_cons, List.flatten_cons]
      rw [← List.append_nil part]
      exact (first.append newline).append ih

end Reads

structure Line (text : List Char) (statement : Statement) : Prop where
  opens : ∃ c more, text = c :: more ∧ Opens c
  reads : ∀ rest, readStatement (text ++ '\n' :: rest) = some (statement, '\n' :: rest)

theorem Line.toReads {text : List Char} {statement : Statement} (h : Line text statement) :
    Reads (text ++ ['\n']) [statement] := by
  obtain ⟨c, more, rfl, opens⟩ := h.opens
  refine ⟨fun rest => ?_, by simpa using opens.2.2.2.2⟩
  have reads := h.reads rest
  have lineEnds : endLine? ('\n' :: rest) = some rest := rfl
  have shorter : rest.length < (c :: more ++ '\n' :: rest).length := by
    simp
    omega
  rw [List.append_assoc, List.singleton_append]
  rw [List.cons_append] at reads shorter ⊢
  rw [readStatements, endLine?_of_opens opens, skip_of_opens opens, reads]
  simp only [List.isEmpty_cons, Bool.false_eq_true, if_false, lineEnds, dif_pos shorter]
  rfl

section Statements

variable (name : String)

theorem writeKey_singleton : writeKey [name] = writeName name.toList := by
  simp [writeKey]

theorem readHeader_writeKey (close rest : List Char) :
    readHeader (']' :: close) (writeKey [name] ++ (']' :: close ++ rest)) =
      some ([name], rest) := by
  have noSkip : skip (']' :: close ++ rest) = ']' :: close ++ rest := skip_of_opens (by decide) _
  have other : ∀ c ∈ (']' :: close ++ rest).head?, isBare c = false := by simp [isBare]
  have last : (skip (']' :: close ++ rest)).head? ≠ some '.' := by
    rw [noSkip]
    simp
  have key := readKey_writeName name.toList other last
  rw [noSkip, String.ofList_toList] at key
  rw [readHeader, writeKey_singleton, key]
  simp

theorem line_table : Line ('[' :: (writeKey [name] ++ [']'])) (.header (.table [name])) := by
  refine ⟨⟨_, _, rfl, by decide⟩, fun rest => ?_⟩
  obtain ⟨c, more, start, -, notBracket⟩ := exists_writeName_eq_cons name.toList
  have reads := readHeader_writeKey name [] ('\n' :: rest)
  have text : '[' :: (writeKey [name] ++ [']']) ++ '\n' :: rest =
      '[' :: (writeKey [name] ++ ([']'] ++ '\n' :: rest)) := by simp
  rw [text]
  unfold readStatement
  split
  · next same =>
    rw [writeKey_singleton, start] at same
    simp at same
    exact absurd same.1 notBracket
  · next same =>
    rw [← (List.cons.inj same).2, reads]
    rfl
  · next notTable => exact absurd rfl (notTable _)

theorem line_next : Line ('[' :: '[' :: (writeKey [name] ++ [']', ']']))
    (.header (.next [name])) := by
  refine ⟨⟨_, _, rfl, by decide⟩, fun rest => ?_⟩
  have reads := readHeader_writeKey name [']'] ('\n' :: rest)
  have text : '[' :: '[' :: (writeKey [name] ++ [']', ']']) ++ '\n' :: rest =
      '[' :: '[' :: (writeKey [name] ++ ([']', ']'] ++ '\n' :: rest)) := by simp
  rw [text, readStatement, reads]
  rfl

theorem readAssignment_append {depth : Nat} {text : List Char} {value : Value}
    (shown : Shows depth text value) (rest : List Char) :
    readAssignment (readValue depth)
      (writeKey [name] ++ ' ' :: '=' :: ' ' :: (text ++ '\n' :: rest)) =
      some (⟨[name], value⟩, '\n' :: rest) := by
  obtain ⟨d, more, start, opens, -⟩ := shown.opens
  have ends : Ends ('\n' :: rest) := by simp [Ends]
  have spaced : skip (' ' :: '=' :: ' ' :: (text ++ '\n' :: rest)) =
      '=' :: ' ' :: (text ++ '\n' :: rest) := rfl
  have other : ∀ c ∈ (' ' :: '=' :: ' ' :: (text ++ '\n' :: rest)).head?, isBare c = false := by
    simp [isBare]
  have last : (skip (' ' :: '=' :: ' ' :: (text ++ '\n' :: rest))).head? ≠ some '.' := by
    rw [spaced]
    simp
  have noSkip : skip (' ' :: (text ++ '\n' :: rest)) = text ++ '\n' :: rest := by
    rw [start]
    exact skip_of_opens opens _
  have key := readKey_writeName name.toList other last
  rw [spaced, String.ofList_toList] at key
  rw [readAssignment, writeKey_singleton, key]
  simp only [Option.bind_eq_bind, Option.bind_some, noSkip]
  rw [shown.reads _ ends]
  rfl

theorem exists_line {value : Value} (h : value.IsInline limit) :
    ∃ text, Assignment.write ⟨[name], value⟩ = some (text ++ ['\n']) ∧
      Line text (.assign ⟨[name], value⟩) := by
  obtain ⟨text, written, shown⟩ := exists_shows h 78
  obtain ⟨c, more, start, opens, notBracket⟩ := exists_writeName_eq_cons name.toList
  rw [← writeKey_singleton] at start
  refine ⟨writeKey [name] ++ (" = ".toList ++ text), by simp [Assignment.write, written], ?_, ?_⟩
  · rw [start]
    exact ⟨_, _, rfl, opens⟩
  · intro rest
    have equals : " = ".toList ++ (text ++ '\n' :: rest) =
        ' ' :: '=' :: ' ' :: (text ++ '\n' :: rest) := rfl
    have assignment := readAssignment_append name shown rest
    rw [List.append_assoc, List.append_assoc, equals]
    rw [start, List.cons_append] at assignment ⊢
    unfold readStatement
    split
    · next same => exact absurd (List.cons.inj same).1 notBracket
    · next same => exact absurd (List.cons.inj same).1 notBracket
    · rw [maxDepth, assignment]
      rfl

end Statements

end Appliance.Toml
