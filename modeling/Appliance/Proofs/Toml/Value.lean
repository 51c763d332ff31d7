import Appliance.Proofs.Data.Value
import Appliance.Proofs.Toml.Number
import Appliance.Proofs.Toml.Quoted
import Mathlib.Data.List.Forall2

/-! Reading back names and values. What stands for a value is read as the value whatever ends it, so
a value is read back inside an array as it is at the end of a line. -/
namespace Appliance.Toml

/-- Can something start with the character? It is no blank, starts no comment and no line, and is
not the mark of the byte order. -/
def Opens (c : Char) : Prop :=
  isBlank c = false ∧ c ≠ '#' ∧ c ≠ '\n' ∧ c ≠ '\r' ∧ c ≠ '\uFEFF'

instance (c : Char) : Decidable (Opens c) := inferInstanceAs (Decidable (_ ∧ _))

section Lines

variable {c : Char} (opens : Opens c) (s : List Char)
include opens

theorem skip_of_opens : skip (c :: s) = c :: s := List.dropWhile_cons_of_neg (by simp [opens.1])

theorem skipComment_of_opens : skipComment (skip (c :: s)) = c :: s := by
  rw [skip_of_opens opens]
  unfold skipComment
  split
  · next same => exact absurd (List.cons.inj same).1 opens.2.1
  · rfl

theorem newline?_of_opens : newline? (skipComment (skip (c :: s))) = none := by
  rw [skipComment_of_opens opens, newline?_cons opens.2.2.1 opens.2.2.2.1]

theorem endLine?_of_opens : endLine? (c :: s) = none := by
  rw [endLine?, skipComment_of_opens opens]
  exact newline?_cons opens.2.2.1 opens.2.2.2.1 s

theorem skipLines_of_opens : skipLines (c :: s) = c :: s := by
  rw [skipLines]
  split
  · next line => simp [newline?_of_opens opens s] at line
  · exact skip_of_opens opens s

end Lines

theorem skipLines_newline (s : List Char) : skipLines ('\n' :: s) = skipLines s := by
  have line : newline? (skipComment (skip ('\n' :: s))) = some s := rfl
  rw [skipLines]
  split
  · next rest same =>
    rw [line] at same
    rw [Option.some.inj same]
  · next none => simp [line] at none

theorem skipLines_blank {c : Char} (blank : isBlank c = true) (s : List Char) :
    skipLines (c :: s) = skipLines s := by
  have same : skip (c :: s) = skip s := List.dropWhile_cons_of_pos blank
  rw [skipLines, skipLines, same]

section Names

theorem opens_of_isBare {c : Char} (h : isBare c = true) : Opens c := by
  refine ⟨?_, ?_, ?_, ?_, ?_⟩
  · by_contra blank
    simp only [isBlank, Bool.not_eq_false, Bool.or_eq_true, decide_eq_true_eq] at blank
    rcases blank with rfl | rfl <;> exact absurd h (by decide)
  all_goals
    rintro rfl
    exact absurd h (by decide)

theorem readName_of_isBare {c : Char} (h : isBare c = true) (s : List Char) :
    readName (c :: s) = some (String.ofList (c :: s.takeWhile isBare), s.dropWhile isBare) := by
  unfold readName
  split
  · next same =>
    obtain rfl := (List.cons.inj same).1
    exact absurd h (by decide)
  · next same =>
    obtain rfl := (List.cons.inj same).1
    exact absurd h (by decide)
  · simp [h]

theorem readName_quoted {c : Char} (isMark : c = '"' ∨ c = '\'') (s : List Char) :
    readName (c :: s) =
      (readQuoted ⟨c, false⟩ s).map fun (name, rest) => (String.ofList name, rest) := by
  rcases isMark with rfl | rfl <;> rfl

theorem mark_ofName (s : List Char) :
    (Quote.ofName s).mark = '"' ∨ (Quote.ofName s).mark = '\'' := by
  unfold Quote.ofName
  dsimp only
  split_ifs
  · exact Or.inl rfl
  · exact Or.inr rfl
  · exact Or.inl rfl

theorem short_ofName (s : List Char) :
    (⟨(Quote.ofName s).mark, false⟩ : Quote) = Quote.ofName s := by
  rw [← (Encodes.ofName s).2]

theorem writeName_eq (s : List Char) :
    (s ≠ [] ∧ (∀ c ∈ s, isBare c = true) ∧ writeName s = s) ∨
      writeName s = (Quote.ofName s).mark ::
        ((Quote.ofName s).body s ++ [(Quote.ofName s).mark]) := by
  unfold writeName
  split_ifs with bare
  · exact Or.inl ⟨by simpa using bare.1, by simpa using bare.2, rfl⟩
  · have short := (Encodes.ofName s).2
    exact Or.inr (by simp [Quote.write_eq, Quote.marks, short])

theorem readName_writeName (s : List Char) {rest : List Char}
    (other : ∀ c ∈ rest.head?, isBare c = false) :
    readName (writeName s ++ rest) = some (String.ofList s, rest) := by
  rcases writeName_eq s with ⟨filled, bare, same⟩ | same
  · rw [same]
    cases s with
    | nil => exact absurd rfl filled
    | cons c s =>
      have ⟨first, others⟩ := List.forall_mem_cons.1 bare
      rw [List.cons_append, readName_of_isBare first, Text.takeWhile_append others other,
        Text.dropWhile_append others other]
  · have encodes := Encodes.ofName s
    have reads : readQuoted (.ofName s)
        ((Quote.ofName s).body s ++ ((Quote.ofName s).marks ++ rest)) =
        some (s, rest) :=
      encodes.1.readQuoted_append fun long => by simp [encodes.2] at long
    have marks : (Quote.ofName s).marks = [(Quote.ofName s).mark] := by
      simp [Quote.marks, encodes.2]
    rw [marks] at reads
    rw [same, List.cons_append, readName_quoted (mark_ofName s), short_ofName, List.append_assoc,
      reads]
    rfl

theorem exists_writeName_eq_cons (s : List Char) :
    ∃ c more, writeName s = c :: more ∧ Opens c ∧ c ≠ '[' := by
  rcases writeName_eq s with ⟨filled, bare, same⟩ | same
  · obtain ⟨c, more, rfl⟩ := List.exists_cons_of_ne_nil filled
    have isBare := bare c List.mem_cons_self
    refine ⟨c, more, same, opens_of_isBare isBare, ?_⟩
    rintro rfl
    exact absurd isBare (by decide)
  · refine ⟨_, _, same, ?_⟩
    rcases mark_ofName s with mark | mark <;> rw [mark] <;> decide

theorem readKey_writeName (s : List Char) {rest : List Char}
    (other : ∀ c ∈ rest.head?, isBare c = false) (last : (skip rest).head? ≠ some '.') :
    readKey (writeName s ++ rest) = some ([String.ofList s], skip rest) := by
  obtain ⟨c, more, start, opens, -⟩ := exists_writeName_eq_cons s
  have reads := readName_writeName s other
  have noSkip : skip (writeName s ++ rest) = writeName s ++ rest := by
    rw [start]
    exact skip_of_opens opens _
  have names : readNames (writeName s ++ rest) = some ([String.ofList s], skip rest) := by
    rw [readNames, noSkip, reads]
    dsimp only
    split
    · next same => simp [same] at last
    · rfl
  simp [readKey, names, maxNames]

end Names

section Values

abbrev limit : Nat := 0x8000000000000000

/-- Does the text stand for the value, with so many brackets left to open? -/
structure Shows (depth : Nat) (text : List Char) (value : Value) : Prop where
  opens : ∃ c more, text = c :: more ∧ Opens c ∧ c ≠ ']'
  reads : ∀ rest, Ends rest → readValue depth (text ++ rest) = some (value, rest)

variable {depth : Nat}

theorem readValue_cons {c : Char} (t : c ≠ 't') (f : c ≠ 'f') (bracket : c ≠ '[')
    (brace : c ≠ '\x7b') (s : List Char) :
    readValue depth (c :: s) =
      match readText (c :: s) with
      | some (text, rest) => some (.string (String.ofList text), rest)
      | none =>
        match readMoment (c :: s) with
        | some (moment, rest) => some (.datetime moment, rest)
        | none => readNumber (c :: s) := by
  unfold readValue
  split
  · simp_all
  · simp_all
  · simp_all
  · simp_all
  · rfl

theorem toList_repr (n : Nat) : (Int.repr n).toList = Nat.toDigits 10 n := Nat.toList_repr

theorem shows_boolean (b : Bool) :
    ∃ text, writeSimple (.boolean b) = some text ∧ Shows depth text (.boolean b) := by
  cases b with
  | true => exact ⟨_, rfl, ⟨_, _, rfl, by decide⟩, fun rest _ => by simp [readValue]⟩
  | false => exact ⟨_, rfl, ⟨_, _, rfl, by decide⟩, fun rest _ => by simp [readValue]⟩

theorem shows_integer {n : Nat} (small : n < 0x8000000000000000) :
    Shows depth (Nat.toDigits 10 n) (.integer n) := by
  obtain ⟨c, more, digits, isDigit, -⟩ := Text.exists_toDigits_eq_cons n
  have ne {d : Char} (other : d.isDigit = false) : c ≠ d := Text.ne_of_isDigit isDigit other
  refine ⟨⟨c, more, digits, opens_of_isBare ?_, ne (by decide)⟩, fun rest ends => ?_⟩
  · simp [isBare, Char.isAlphanum, isDigit]
  · have noText : readText (c :: (more ++ rest)) = none := by
      unfold readText
      split
      · next same => exact absurd (List.cons.inj same).1 (ne (by decide))
      · next same => exact absurd (List.cons.inj same).1 (ne (by decide))
      · next same => exact absurd (List.cons.inj same).1 (ne (by decide))
      · next same => exact absurd (List.cons.inj same).1 (ne (by decide))
      · rfl
    have noMoment := readMoment_toDigits ends n
    have number := readNumber_toDigits ends small
    rw [digits, List.cons_append] at noMoment number ⊢
    rw [readValue_cons (ne (by decide)) (ne (by decide)) (ne (by decide)) (ne (by decide)), noText,
      noMoment]
    exact number

theorem exists_writeText_eq_cons (s : List Char) :
    ∃ c more, writeText s = c :: more ∧ (c = '"' ∨ c = '\'') := by
  have isMark : (Quote.ofText s).mark = '"' ∨ (Quote.ofText s).mark = '\'' := by
    rcases Quote.ofText_cases s with same | same | ⟨same, -⟩ | ⟨same, -⟩ <;> rw [same] <;> decide
  rw [writeText, Quote.write_eq, Quote.marks]
  split_ifs <;> exact ⟨_, _, rfl, isMark⟩

theorem shows_string (s : String) : Shows depth (writeText s.toList) (.string s) := by
  obtain ⟨c, more, start, isMark⟩ := exists_writeText_eq_cons s.toList
  refine ⟨⟨c, more, start, ?_⟩, fun rest ends => ?_⟩
  · rcases isMark with rfl | rfl <;> decide
  · have reads : readText (writeText s.toList ++ rest) = some (s.toList, rest) :=
      readText_writeText (ends.head_ne (by decide)) (ends.head_ne (by decide))
    have ne {d : Char} (double : '"' ≠ d) (single : '\'' ≠ d) : c ≠ d := by
      rcases isMark with rfl | rfl
      · exact double
      · exact single
    rw [start, List.cons_append] at reads ⊢
    rw [readValue_cons (ne (by decide) (by decide)) (ne (by decide) (by decide))
      (ne (by decide) (by decide)) (ne (by decide) (by decide)), reads]
    simp

theorem exists_shows_of_isScalar {value : Value} (h : value.IsScalar limit) (depth : Nat) :
    ∃ text, writeSimple value = some text ∧ Shows depth text value := by
  cases value with
  | boolean b => exact shows_boolean b
  | integer n =>
    obtain ⟨positive, small⟩ := h
    obtain ⟨n, rfl⟩ := Int.eq_ofNat_of_zero_le positive
    have small : n < 0x8000000000000000 := Int.ofNat_lt.1 small
    refine ⟨Nat.toDigits 10 n, ?_, shows_integer small⟩
    rw [writeSimple, if_pos (by omega), toList_repr]
  | string s => exact ⟨_, rfl, shows_string s⟩
  | null | float | datetime | array | tables | table => exact h.elim

section Items

variable {item : List Char → Option (Value × List Char)} {s rest : List Char}

theorem readItems_nil (closed : skipLines s = ']' :: rest) :
    readItems item s = some ([], rest) := by
  rw [readItems]
  split
  · simp_all
  · simp_all

variable {c : Char} {start after : List Char} {value : Value}
  (skipped : skipLines s = c :: start) (notClosed : c ≠ ']')
  (reads : item (c :: start) = some (value, after))
include skipped notClosed reads

theorem readItems_last (closed : skipLines after = ']' :: rest) :
    readItems item s = some ([value], rest) := by
  rw [readItems]
  split
  · next same => exact absurd (List.cons.inj (skipped.symm.trans same)).1 notClosed
  · rw [skipped, reads]
    simp [closed]

theorem readItems_more (comma : skipLines after = ',' :: rest) (shorter : rest.length < s.length) :
    readItems item s =
      (readItems item rest).map fun (values, rest) => (value :: values, rest) := by
  rw [readItems]
  split
  · next same => exact absurd (List.cons.inj (skipped.symm.trans same)).1 notClosed
  · rw [skipped, reads]
    simp [comma, shorter]

end Items

def itemLines (items : List (List Char)) : List Char :=
  items.flatMap fun item => "    ".toList ++ item ++ ",\n".toList

theorem itemLines_cons (item : List Char) (items : List (List Char)) (rest : List Char) :
    itemLines (item :: items) ++ rest =
      ' ' :: ' ' :: ' ' :: ' ' :: (item ++ (',' :: '\n' :: (itemLines items ++ rest))) := by
  simp [itemLines]

theorem readItems_itemLines {texts : List (List Char)} {values : List Value}
    (shows : List.Forall₂ (Shows depth) texts values) (rest : List Char) :
    readItems (readValue depth) ('\n' :: (itemLines texts ++ ']' :: rest)) =
      some (values, rest) := by
  induction shows with
  | nil =>
    refine readItems_nil ?_
    rw [skipLines_newline]
    exact skipLines_of_opens (by decide) rest
  | @cons text value texts values shown _ ih =>
    obtain ⟨c, more, start, opens, notClosed⟩ := shown.opens
    have comma : Ends (',' :: '\n' :: (itemLines texts ++ ']' :: rest)) := by simp [Ends]
    have reads := shown.reads _ comma
    have skipped : skipLines ('\n' :: (itemLines (text :: texts) ++ ']' :: rest)) =
        text ++ (',' :: '\n' :: (itemLines texts ++ ']' :: rest)) := by
      rw [itemLines_cons, skipLines_newline, skipLines_blank rfl, skipLines_blank rfl,
        skipLines_blank rfl, skipLines_blank rfl, start]
      exact skipLines_of_opens opens _
    have shorter : ('\n' :: (itemLines texts ++ ']' :: rest)).length <
        ('\n' :: (itemLines (text :: texts) ++ ']' :: rest)).length := by
      rw [itemLines_cons]
      simp
      omega
    subst start
    have next := readItems_more skipped notClosed reads (skipLines_of_opens (by decide) _) shorter
    rw [next, ih]
    rfl

theorem shows_array {texts : List (List Char)} {values : List Value}
    (shows : List.Forall₂ (Shows depth) texts values) :
    Shows (depth + 1) (writeItems texts) (.array values) := by
  have reads {s rest : List Char} (inner : readItems (readValue depth) s = some (values, rest)) :
      readValue (depth + 1) ('[' :: s) = some (.array values, rest) := by
    rw [readValue, inner]
    rfl
  unfold writeItems
  split
  · cases shows
    exact ⟨⟨_, _, rfl, by decide⟩, fun rest _ =>
      reads (readItems_nil (skipLines_of_opens (by decide) rest))⟩
  · next text =>
    refine ⟨⟨_, _, rfl, by decide⟩, fun rest _ => ?_⟩
    cases shows with
    | cons shown none =>
      cases none
      obtain ⟨c, more, start, opens, notClosed⟩ := shown.opens
      have closed : Ends (']' :: rest) := by simp [Ends]
      have inner := shown.reads _ closed
      subst start
      have skipped := skipLines_of_opens opens (more ++ ']' :: rest)
      have same : '[' :: (c :: more) ++ [']'] ++ rest = '[' :: (c :: (more ++ ']' :: rest)) := by
        simp
      rw [same]
      exact reads (readItems_last skipped notClosed inner (skipLines_of_opens (by decide) rest))
  · refine ⟨⟨_, _, rfl, by decide⟩, fun rest _ => ?_⟩
    have same : "[\n".toList ++ texts.flatMap (fun item => "    ".toList ++ item ++ ",\n".toList) ++
        [']'] ++ rest = '[' :: '\n' :: (itemLines texts ++ ']' :: rest) := by
      simp [itemLines]
    rw [same]
    exact reads (readItems_itemLines shows rest)

theorem exists_mapM {α β : Type} {f : α → Option β} {turns : β → α → Prop} {xs : List α}
    (h : ∀ x ∈ xs, ∃ y, f x = some y ∧ turns y x) :
    ∃ ys, xs.mapM f = some ys ∧ List.Forall₂ turns ys xs := by
  induction xs with
  | nil => exact ⟨[], rfl, .nil⟩
  | cons x xs ih =>
    obtain ⟨y, first, turned⟩ := h x List.mem_cons_self
    obtain ⟨ys, all, rest⟩ := ih fun x hx => h x (List.mem_cons_of_mem _ hx)
    exact ⟨y :: ys, by simp [List.mapM_cons, first, all], .cons turned rest⟩

theorem exists_shows {value : Value} (h : value.IsInline limit) (depth : Nat) :
    ∃ text, writeValue value = some text ∧ Shows (depth + 1) text value := by
  rcases h with scalar | ⟨items, rfl, scalars⟩
  · obtain ⟨text, written, shown⟩ := exists_shows_of_isScalar scalar (depth + 1)
    refine ⟨text, ?_, shown⟩
    cases value with
    | array => exact scalar.elim
    | _ => exact written
  · obtain ⟨texts, all, shows⟩ := exists_mapM fun item mem =>
      exists_shows_of_isScalar (scalars item mem) depth
    exact ⟨writeItems texts, by simp [writeValue, all], shows_array shows⟩

end Values

end Appliance.Toml
