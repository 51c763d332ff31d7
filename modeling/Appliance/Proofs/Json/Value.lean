import Appliance.Json.Printer
import Appliance.Json.Reader
import Appliance.Proofs.Json.Quoted
import Appliance.Proofs.Text.Digits
import Appliance.Proofs.Text.Spans
import Mathlib.Data.List.Forall2

/-! Reading back written values. A written value is read up to what follows it, as long as that does
not go on with a number; so arrays and objects are read item by item, with any blanks between. -/
namespace Appliance.Json

def Ends (rest : List Char) : Prop :=
  ∀ c ∈ rest.head?, c.isDigit = false ∧ c ≠ '.' ∧ c ≠ 'e' ∧ c ≠ 'E'

def Blank (s : List Char) : Prop := ∀ c ∈ s, isBlank c = true

def Opens (c : Char) : Prop := isBlank c = false ∧ c ≠ ']' ∧ c ≠ '\x7d'

instance (c : Char) : Decidable (Opens c) := inferInstanceAs (Decidable (_ ∧ _ ∧ _))

/-- Is the form read as the value, with so many brackets left to open? -/
structure Reads (depth : Nat) (form : List Char) (value : Value) : Prop where
  opens : ∃ c more, form = c :: more ∧ Opens c
  reads : ∀ rest, Ends rest → readValue depth (form ++ rest) = some (value, rest)

def ReadsMember (depth : Nat) (form : List Char) (member : String × Value) : Prop :=
  ∃ gap shown, Blank gap ∧ form = quote member.1 ++ ':' :: (gap ++ shown) ∧
    Reads depth shown member.2

def row (before after : List Char) : List (List Char) → List Char
  | [] => []
  | [piece] => before ++ piece ++ after
  | piece :: pieces => before ++ piece ++ ',' :: row before after pieces

section Blanks

variable {before s : List Char}

theorem skip_append (blank : Blank before) (s : List Char) : skip (before ++ s) = skip s :=
  List.dropWhile_append_of_pos blank

theorem skip_cons {c : Char} (notBlank : isBlank c = false) (s : List Char) :
    skip (c :: s) = c :: s :=
  List.dropWhile_cons_of_neg (by simp [notBlank])

theorem ends_cons {c : Char} (notDigit : c.isDigit = false) (other : c ∉ ['.', 'e', 'E'])
    (s : List Char) : Ends (c :: s) := by
  rintro _ ⟨⟩
  simpa [notDigit] using other

theorem ends_append {after : List Char} (blank : Blank after) (ends : Ends s) :
    Ends (after ++ s) := by
  cases after with
  | nil => exact ends
  | cons c after =>
    have isBlank := blank c List.mem_cons_self
    simp only [Json.isBlank, Bool.or_eq_true, decide_eq_true_eq] at isBlank
    rcases isBlank with ((rfl | rfl) | rfl) | rfl <;> exact ends_cons (by decide) (by decide) _

end Blanks

section Scalars

variable {depth : Nat} {rest : List Char}

theorem reads_null : Reads depth "null".toList .null :=
  ⟨⟨'n', "ull".toList, rfl, by decide⟩, fun rest _ => by simp [readValue, expect?]⟩

theorem reads_boolean (b : Bool) : Reads depth (boolText b) (.boolean b) := by
  cases b with
  | true =>
    exact ⟨⟨'t', "rue".toList, rfl, by decide⟩, fun rest _ => by
      simp [boolText, readValue, expect?]⟩
  | false =>
    exact ⟨⟨'f', "alse".toList, rfl, by decide⟩, fun rest _ => by
      simp [boolText, readValue, expect?]⟩

theorem quote_append (s : String) (rest : List Char) :
    quote s ++ rest = '"' :: (s.toList.flatMap escape ++ '"' :: rest) := by
  simp [quote]

theorem reads_string (s : String) : Reads depth (quote s) (.string s) := by
  refine ⟨⟨_, _, rfl, by decide⟩, fun rest _ => ?_⟩
  rw [quote_append]
  simp [readValue, readQuoted_flatMap_escape]

theorem readNumber_toDigits (ends : Ends rest) {n : Nat} {value : Value}
    (number : number false (Nat.toDigits 10 n) [] none = some value) :
    readNumber false (Nat.toDigits 10 n ++ rest) = some (value, rest) := by
  have all : ∀ c ∈ Nat.toDigits 10 n, c.isDigit = true := fun c hc =>
    Nat.isDigit_of_mem_toDigits (by decide) (by decide) hc
  have notDigit : ∀ c ∈ rest.head?, c.isDigit = false := fun c hc => (ends c hc).1
  have digits : spanDigits (Nat.toDigits 10 n ++ rest) = (Nat.toDigits 10 n, rest) :=
    Prod.ext (Text.takeWhile_append all notDigit) (Text.dropWhile_append all notDigit)
  have noFraction : readFraction rest = some ([], rest) := by
    unfold readFraction
    split
    · exact absurd rfl (ends '.' rfl).2.1
    · rfl
  have noExponent : readExponent rest = some (none, rest) := by
    cases rest with
    | nil => rfl
    | cons c rest =>
      have ⟨_, _, lower, upper⟩ := ends c rfl
      simp [readExponent, lower, upper]
  have good : ¬((Nat.toDigits 10 n).isEmpty = true ∨
      (Nat.toDigits 10 n).head? = some '0' ∧ 1 < (Nat.toDigits 10 n).length) := by
    obtain ⟨d, more, same, -, alone⟩ := Text.exists_toDigits_eq_cons n
    rw [same]
    rintro (empty | ⟨zero, long⟩)
    · cases empty
    · rw [alone (Option.some.inj zero)] at long
      exact absurd long (Nat.lt_irrefl 1)
  rw [readNumber, digits]
  simp only [if_neg good, noFraction, noExponent, Option.bind_eq_bind, Option.bind_some, number]
  rfl

theorem readValue_of_isDigit {c : Char} (isDigit : c.isDigit = true) (s : List Char) :
    readValue depth (c :: s) = readNumber false (c :: s) := by
  have ne {d : Char} (other : d.isDigit = false) : c ≠ d := Text.ne_of_isDigit isDigit other
  unfold readValue
  split
  all_goals
    first
    | rfl
    | next same => exact absurd (List.cons.inj same).1 (ne (by decide))

theorem reads_natural {n : Nat} {value : Value}
    (number : number false (Nat.toDigits 10 n) [] none = some value) :
    Reads depth (Nat.repr n).toList value := by
  rw [Nat.toList_repr]
  obtain ⟨c, more, digits, isDigit, -⟩ := Text.exists_toDigits_eq_cons n
  have ne {d : Char} (other : d.isDigit = false) : c ≠ d := Text.ne_of_isDigit isDigit other
  refine ⟨⟨c, more, digits, ?_, ne (by decide), ne (by decide)⟩, fun rest ends => ?_⟩
  · simp [isBlank, ne (d := ' ') (by decide), ne (d := '\t') (by decide),
      ne (d := '\n') (by decide), ne (d := '\r') (by decide)]
  · have read := readNumber_toDigits ends number
    rw [digits, List.cons_append] at read ⊢
    rw [readValue_of_isDigit isDigit, read]

end Scalars

section Rows

variable {depth : Nat} {before after : List Char}

theorem row_cons (piece next : List Char) (pieces : List (List Char)) :
    row before after (piece :: next :: pieces) =
      before ++ piece ++ ',' :: row before after (next :: pieces) := rfl

theorem length_lt_of_row {piece next : List Char} {pieces : List (List Char)} {rest : List Char} :
    (row before after (next :: pieces) ++ rest).length <
      (row before after (piece :: next :: pieces) ++ rest).length := by
  simp only [row_cons, List.length_append, List.length_cons]
  omega

section Items

variable {item : List Char → Option (Value × List Char)} {s left rest : List Char} {value : Value}

theorem readItems_last (read : item (skip s) = some (value, left))
    (closed : skip left = ']' :: rest) : readItems item s = some ([value], rest) := by
  rw [readItems, read]
  simp [closed]

theorem readItems_more (read : item (skip s) = some (value, left)) (comma : skip left = ',' :: rest)
    (shorter : rest.length < s.length) :
    readItems item s =
      (readItems item rest).map fun (values, rest) => (value :: values, rest) := by
  rw [readItems, read]
  simp [comma, shorter]

variable {member : String × Value}

theorem readMembers_last (read : readMember item s = some (member, left))
    (closed : skip left = '\x7d' :: rest) : readMembers item s = some ([member], rest) := by
  rw [readMembers, read]
  simp [closed]

theorem readMembers_more (read : readMember item s = some (member, left))
    (comma : skip left = ',' :: rest) (shorter : rest.length < s.length) :
    readMembers item s =
      (readMembers item rest).map fun (members, rest) => (member :: members, rest) := by
  rw [readMembers, read]
  simp [comma, shorter]

end Items

theorem Reads.reads_skip {form rest : List Char} {value : Value} (read : Reads depth form value)
    (blank : Blank before) (ends : Ends rest) :
    readValue depth (skip (before ++ (form ++ rest))) = some (value, rest) := by
  obtain ⟨c, more, start, opens⟩ := read.opens
  have same := read.reads rest ends
  rw [start] at same ⊢
  rw [skip_append blank, List.cons_append, skip_cons opens.1]
  exact same

theorem ReadsMember.reads_skip {form rest : List Char} {member : String × Value}
    (read : ReadsMember depth form member) (blank : Blank before) (ends : Ends rest) :
    readMember (readValue depth) (before ++ (form ++ rest)) = some (member, rest) := by
  obtain ⟨gap, shown, gapBlank, rfl, value⟩ := read
  have name : skip (before ++ (quote member.1 ++ ':' :: (gap ++ shown) ++ rest)) =
      '"' :: (member.1.toList.flatMap escape ++ '"' :: ':' :: (gap ++ (shown ++ rest))) := by
    rw [skip_append blank, List.append_assoc, quote_append, skip_cons (by decide)]
    simp
  have colon : skip (':' :: (gap ++ (shown ++ rest))) = ':' :: (gap ++ (shown ++ rest)) :=
    skip_cons (by decide) _
  rw [readMember, name]
  simp [readQuoted_flatMap_escape, colon, value.reads_skip gapBlank ends]

variable (before_blank : Blank before) (after_blank : Blank after)
include before_blank after_blank

theorem readItems_row {forms : List (List Char)} {values : List Value}
    (reads : List.Forall₂ (Reads depth) forms values) (filled : forms ≠ []) (rest : List Char) :
    readItems (readValue depth) (row before after forms ++ ']' :: rest) = some (values, rest) := by
  induction reads with
  | nil => exact absurd rfl filled
  | @cons form value forms values read others ih =>
    cases others with
    | nil =>
      have last := read.reads_skip before_blank
        (ends_append after_blank (@ends_cons ']' (by decide) (by decide) rest))
      refine readItems_last (by simpa [row] using last) ?_
      rw [skip_append after_blank, skip_cons (by decide)]
    | @cons next _ forms _ =>
      have first := read.reads_skip before_blank
        (@ends_cons ',' (by decide) (by decide) (row before after (next :: forms) ++ ']' :: rest))
      refine (readItems_more (by simpa [row_cons] using first) (skip_cons (by decide) _)
        length_lt_of_row).trans ?_
      rw [ih (List.cons_ne_nil _ _)]
      rfl

theorem readMembers_row {forms : List (List Char)} {members : List (String × Value)}
    (reads : List.Forall₂ (ReadsMember depth) forms members) (filled : forms ≠ [])
    (rest : List Char) :
    readMembers (readValue depth) (row before after forms ++ '\x7d' :: rest) =
      some (members, rest) := by
  induction reads with
  | nil => exact absurd rfl filled
  | @cons form member forms members read others ih =>
    cases others with
    | nil =>
      have last := read.reads_skip before_blank
        (ends_append after_blank (@ends_cons '\x7d' (by decide) (by decide) rest))
      refine readMembers_last (by simpa [row] using last) ?_
      rw [skip_append after_blank, skip_cons (by decide)]
    | @cons next _ forms _ =>
      have first := read.reads_skip before_blank (@ends_cons ',' (by decide) (by decide)
        (row before after (next :: forms) ++ '\x7d' :: rest))
      refine (readMembers_more (by simpa [row_cons] using first) (skip_cons (by decide) _)
        length_lt_of_row).trans ?_
      rw [ih (List.cons_ne_nil _ _)]
      rfl

omit after_blank in
theorem skip_row {form : List Char} {forms : List (List Char)} {c : Char} {more : List Char}
    (start : form = c :: more) (notBlank : isBlank c = false) (rest : List Char) :
    ∃ s, skip (row before after (form :: forms) ++ rest) = c :: s := by
  cases forms with
  | nil =>
    refine ⟨more ++ (after ++ rest), ?_⟩
    simp only [row, start, List.append_assoc, List.cons_append, skip_append before_blank]
    exact skip_cons notBlank _
  | cons next forms =>
    refine ⟨more ++ (',' :: row before after (next :: forms) ++ rest), ?_⟩
    simp only [row_cons, start, List.append_assoc, List.cons_append, skip_append before_blank]
    exact skip_cons notBlank _

theorem reads_array {forms : List (List Char)} {values : List Value}
    (reads : List.Forall₂ (Reads depth) forms values) :
    Reads (depth + 1) ('[' :: row before after forms ++ [']']) (.array values) := by
  refine ⟨⟨'[', _, rfl, by decide⟩, fun rest _ => ?_⟩
  cases reads with
  | nil => simp [row, readValue, skip_cons (show isBlank ']' = false by decide)]
  | @cons form value forms values read others =>
    obtain ⟨c, more, start, opens⟩ := read.opens
    obtain ⟨s, skipped⟩ := @skip_row _ after before_blank _ forms _ _ start opens.1 (']' :: rest)
    have items := readItems_row before_blank after_blank (.cons read others)
      (List.cons_ne_nil _ _) rest
    have same : '[' :: row before after (form :: forms) ++ [']'] ++ rest =
        '[' :: (row before after (form :: forms) ++ ']' :: rest) := by simp
    rw [same, readValue, skipped]
    split
    · next closed => exact absurd (List.cons.inj closed).1 opens.2.1
    · rw [items]
      rfl

/-- An object is read as its members in ascending order, the last one of each name. -/
theorem reads_table {forms : List (List Char)} {members : List (String × Value)}
    (reads : List.Forall₂ (ReadsMember depth) forms members) :
    Reads (depth + 1) ('\x7b' :: row before after forms ++ ['\x7d'])
      (.table (Ascending.ofPairs members)) := by
  refine ⟨⟨'\x7b', _, rfl, by decide⟩, fun rest _ => ?_⟩
  cases reads with
  | nil =>
    simp [row, readValue, skip_cons (show isBlank '\x7d' = false by decide), Ascending.ofPairs]
  | @cons form member forms members read others =>
    obtain ⟨gap, shown, -, start, -⟩ := id read
    obtain ⟨s, skipped⟩ := @skip_row _ after before_blank _ forms _ _ start rfl ('\x7d' :: rest)
    have members := readMembers_row before_blank after_blank (.cons read others)
      (List.cons_ne_nil _ _) rest
    have same : '\x7b' :: row before after (form :: forms) ++ ['\x7d'] ++ rest =
        '\x7b' :: (row before after (form :: forms) ++ '\x7d' :: rest) := by simp
    rw [same, readValue, skipped]
    split
    · next closed => exact absurd (List.cons.inj closed).1 (by decide)
    · rw [members]
      rfl

end Rows

end Appliance.Json
