import Appliance.Proofs.Text.Digits
import Appliance.Proofs.Text.Spans
import Appliance.Toml.Printer
import Mathlib.Tactic.SplitIfs

/-! Reading back quoted texts. What stands between the marks encodes the text piece by piece; in a
long text up to two marks in a row stand for themselves, and are read together with what follows
them, so the marks read last are carried along. -/
namespace Appliance.Toml

def Quote.most (quote : Quote) : Nat := if quote.long then 2 else 0

/-- Does the body encode the text, after a number of marks that are not read yet? -/
inductive Encodes (quote : Quote) : Nat → List Char → List Char → Prop
  | nil {run : Nat} (few : run ≤ quote.most) : Encodes quote run [] []
  | mark {run : Nat} {body text : List Char} (few : run < quote.most)
      (rest : Encodes quote (run + 1) body text) :
      Encodes quote run (quote.mark :: body) (quote.mark :: text)
  | piece {run : Nat} {body text : List Char} (few : run ≤ quote.most) (c first : Char)
      (more : List Char) (other : first ≠ quote.mark)
      (reads : ∀ after, readPiece quote (first :: more ++ after) = some (.more [c] after))
      (rest : Encodes quote 0 body text) :
      Encodes quote run (first :: more ++ body) (c :: text)

section Pieces

variable {quote : Quote}

theorem readQuoted_of_more {s chars rest : List Char}
    (h : readPiece quote s = some (.more chars rest)) :
    readQuoted quote s = (readQuoted quote rest).map fun (text, rest) => (chars ++ text, rest) := by
  rw [readQuoted]
  split <;> simp_all

theorem readQuoted_of_last {s chars rest : List Char}
    (h : readPiece quote s = some (.last chars rest)) :
    readQuoted quote s = some (chars, rest) := by
  rw [readQuoted]
  split <;> simp_all

theorem readPiece_replicate (long : quote.long = true) {run : Nat} (positive : 0 < run)
    {rest : List Char} (other : rest.head? ≠ some quote.mark) :
    readPiece quote (List.replicate run quote.mark ++ rest) =
      if run < 3 then some (.more (List.replicate run quote.mark) rest)
      else some (.last (List.replicate (min run 5 - 3) quote.mark)
        (List.replicate (run - min run 5) quote.mark ++ rest)) := by
  have taken : (List.replicate run quote.mark ++ rest).takeWhile (· = quote.mark) =
      List.replicate run quote.mark :=
    Text.takeWhile_append (by simp) fun c first =>
      decide_eq_false fun same : c = quote.mark => other (same ▸ first)
  have dropped : ∀ k ≤ run, (List.replicate run quote.mark ++ rest).drop k =
      List.replicate (run - k) quote.mark ++ rest := by
    intro k le
    rw [List.drop_append_of_le_length (by simpa using le), List.drop_replicate]
  have fewer : min (min run 5 - 3) run = min run 5 - 3 := by omega
  obtain ⟨n, rfl⟩ := Nat.exists_eq_succ_of_ne_zero (Nat.ne_of_gt positive)
  have first : List.replicate (n + 1) quote.mark ++ rest =
      quote.mark :: (List.replicate n quote.mark ++ rest) := rfl
  rw [first] at taken dropped ⊢
  simp only [readPiece, if_true, long, taken, List.length_replicate, List.take_replicate, fewer]
  rw [dropped _ (Nat.le_refl _), dropped _ (Nat.min_le_left _ _), Nat.sub_self]
  rfl

theorem readQuoted_marks_append {run : Nat} (few : run ≤ quote.most) {rest : List Char}
    (other : rest.head? ≠ some quote.mark) :
    readQuoted quote (List.replicate run quote.mark ++ rest) =
      (readQuoted quote rest).map fun (text, rest) =>
        (List.replicate run quote.mark ++ text, rest) := by
  rcases Nat.eq_zero_or_pos run with rfl | positive
  · have nothing : (fun (text, rest) => (List.replicate 0 quote.mark ++ text, rest)) =
        (id : List Char × List Char → _) := rfl
    rw [nothing, Option.map_id]
    rfl
  · have long : quote.long = true := by
      by_cases long : quote.long = true
      · exact long
      · simp only [Quote.most, long] at few
        simp at few
        omega
    have few : run < 3 := by
      simp only [Quote.most, long, if_true] at few
      omega
    refine readQuoted_of_more ?_
    rw [readPiece_replicate long positive other, if_pos few]

/-- What encodes a text is read as the text, up to the marks that close it. -/
theorem Encodes.readQuoted_append {run : Nat} {body text : List Char}
    (h : Encodes quote run body text) {rest : List Char}
    (other : quote.long = true → rest.head? ≠ some quote.mark) :
    readQuoted quote (List.replicate run quote.mark ++ (body ++ (quote.marks ++ rest))) =
      some (List.replicate run quote.mark ++ text, rest) := by
  induction h with
  | @nil run few =>
    by_cases long : quote.long = true
    · have few : run ≤ 2 := by simpa [Quote.most, long] using few
      have width : min (run + 3) 5 = run + 3 := by omega
      have marks : List.replicate run quote.mark ++ ([] ++ (quote.marks ++ rest)) =
          List.replicate (run + 3) quote.mark ++ rest := by
        rw [List.nil_append, Quote.marks, if_pos long, ← List.append_assoc,
          List.replicate_append_replicate]
      refine readQuoted_of_last ?_
      rw [marks, readPiece_replicate long (Nat.succ_pos _) (other long), if_neg (by omega), width]
      simp
    · obtain rfl : run = 0 := by simpa [Quote.most, long] using few
      refine readQuoted_of_last ?_
      simp [Quote.marks, long, readPiece]
  | @mark run body text few _ ih =>
    have shift : ∀ s, List.replicate run quote.mark ++ quote.mark :: s =
        List.replicate (run + 1) quote.mark ++ s := by
      intro s
      simp [List.replicate_succ']
    rw [List.cons_append, shift, shift]
    exact ih
  | @piece run body text few c first more ne reads _ ih =>
    have start : (first :: more ++ body ++ (quote.marks ++ rest)).head? ≠ some quote.mark := by
      simpa using ne
    have next := reads (body ++ (quote.marks ++ rest))
    have tail : readQuoted quote (body ++ (quote.marks ++ rest)) = some (text, rest) := ih
    rw [readQuoted_marks_append few start, List.append_assoc, readQuoted_of_more next, tail]
    rfl

end Pieces

section Writing

variable {quote : Quote}

theorem ne_of_isText {c : Char} (h : isText c = true) : c ≠ '\n' ∧ c ≠ '\r' := by
  constructor <;>
  · rintro rfl
    exact absurd h (by decide)

theorem newline?_cons {c : Char} (line : c ≠ '\n') (carriage : c ≠ '\r') (s : List Char) :
    newline? (c :: s) = none := by
  unfold newline?
  split <;> simp_all

theorem readPiece_cons {c : Char} (other : c ≠ quote.mark) (isText : isText c = true)
    (notEscape : c = '\\' → quote.escapes = false) (after : List Char) :
    readPiece quote (c :: after) = some (.more [c] after) := by
  have ⟨line, carriage⟩ := ne_of_isText isText
  have backslash : ¬(c = '\\' ∧ quote.escapes = true) := fun ⟨same, escapes⟩ => by
    simp [notEscape same] at escapes
  simp [readPiece, other, backslash, newline?_cons line carriage, isText]

theorem readPiece_of_newline? (long : quote.long = true) {c : Char} (other : c ≠ quote.mark)
    {s after : List Char} (line : newline? (c :: s) = some after) :
    readPiece quote (c :: s) = some (.more ['\n'] after) := by
  have notBackslash : c ≠ '\\' := by
    rintro rfl
    simp [newline?] at line
  simp only [readPiece, other, notBackslash, long, line]
  rfl

theorem readPiece_backslash (escapes : quote.escapes = true) {c d : Char}
    (notBlank : isBlank c = false) (line : c ≠ '\n') (carriage : c ≠ '\r') {s after : List Char}
    (reads : readEscape (c :: s) = some (d, after)) :
    readPiece quote ('\\' :: c :: s) = some (.more [d] after) := by
  have mark : quote.mark = '"' := by simpa [Quote.escapes] using escapes
  have noBreak : skipBreak? (c :: s) = none := by
    simp [skipBreak?, skip, notBlank, newline?_cons line carriage]
  simp [readPiece, mark, escapes, noBreak, reads]

theorem readNumbered_control {c : Char} (h : isControl c = true) (s : List Char) :
    readNumbered 4 ('0' :: '0' :: (Text.hexDigit (c.toNat / 16)).toUpper ::
      (Text.hexDigit c.toNat).toUpper :: s) = some (c, s) := by
  have small : c.toNat < 256 := by
    simp only [isControl, Bool.or_eq_true, decide_eq_true_eq] at h
    rcases h with h | rfl
    · omega
    · decide
  have zero : Text.hexValue? '0' = some 0 := by decide
  have number : Text.hexNumber? ['0', '0', (Text.hexDigit (c.toNat / 16)).toUpper,
      (Text.hexDigit c.toNat).toUpper] = some c.toNat := by
    simp [Text.hexNumber?, Text.hexValue?_toUpper_hexDigit, zero]
    omega
  simp [readNumbered, number, Text.character?_toNat]

theorem readPiece_escape (escapes : quote.escapes = true) {c : Char} (mark : c ≠ '"')
    (after : List Char) : readPiece quote (escape c ++ after) = some (.more [c] after) := by
  unfold escape
  split_ifs with h₁ h₂ h₃ h₄ h₅ h₆ h₇
  · exact readPiece_backslash escapes rfl (by decide) (by decide) (by rw [h₁]; rfl)
  · exact readPiece_backslash escapes rfl (by decide) (by decide) (by rw [h₂]; rfl)
  · exact readPiece_backslash escapes rfl (by decide) (by decide) (by rw [h₃]; rfl)
  · exact readPiece_backslash escapes rfl (by decide) (by decide) (by rw [h₄]; rfl)
  · exact readPiece_backslash escapes rfl (by decide) (by decide) (by rw [h₅]; rfl)
  · exact readPiece_backslash escapes rfl (by decide) (by decide) (by rw [h₆]; rfl)
  · exact readPiece_backslash escapes rfl (by decide) (by decide) (readNumbered_control h₇ after)
  · have isText : isText c = true := by
      simp only [isControl, Bool.or_eq_true, decide_eq_true_eq, not_or] at h₇
      simp [Toml.isText, h₇]
      omega
    have other : c ≠ quote.mark := by
      have : quote.mark = '"' := by simpa [Quote.escapes] using escapes
      rwa [this]
    exact readPiece_cons other isText (fun same => absurd same h₆) after

theorem head_escape {c : Char} (mark : c ≠ '"') :
    ∃ first more, escape c = first :: more ∧ first ≠ '"' := by
  unfold escape
  split_ifs
  · exact ⟨_, _, rfl, by decide⟩
  · exact ⟨_, _, rfl, by decide⟩
  · exact ⟨_, _, rfl, by decide⟩
  · exact ⟨_, _, rfl, by decide⟩
  · exact ⟨_, _, rfl, by decide⟩
  · exact ⟨_, _, rfl, by decide⟩
  · exact ⟨_, _, rfl, by decide⟩
  · exact ⟨_, _, rfl, mark⟩

theorem Encodes.escapeAll (escapes : quote.escapes = true) {run : Nat} (few : run ≤ quote.most)
    (s : List Char) : Encodes quote run (escapeAll quote.long run s) s := by
  have mark : quote.mark = '"' := by simpa [Quote.escapes] using escapes
  induction s generalizing run with
  | nil => exact .nil few
  | cons c s ih =>
    unfold Toml.escapeAll
    split_ifs with isMark room line
    · have more : run < quote.most := by simp [Quote.most, room]
      rw [isMark, ← mark]
      exact .mark more (ih more)
    · refine .piece few c '\\' ['"'] (by simp [mark]) (fun after => ?_) (ih (Nat.zero_le _))
      exact readPiece_backslash escapes rfl (by decide) (by decide) (by rw [isMark]; rfl)
    · refine .piece few c '\n' [] (by simp [mark]) (fun after => ?_) (ih (Nat.zero_le _))
      rw [line.2]
      exact readPiece_of_newline? line.1 (by simp [mark]) rfl
    · obtain ⟨first, more, code, other⟩ := head_escape isMark
      rw [code]
      refine .piece few c first more (mark ▸ other) (fun after => ?_) (ih (Nat.zero_le _))
      rw [← code]
      exact readPiece_escape escapes isMark after

theorem le_longestRun (c : Char) (current longest : Nat) (s : List Char) :
    max current longest ≤ longestRun c current longest s := by
  induction s generalizing current longest with
  | nil => exact Nat.le_refl _
  | cons d s ih =>
    unfold longestRun
    split_ifs
    · have := ih (current + 1) longest
      omega
    · have := ih 0 (max current longest)
      omega

theorem longestRun_of_not_mem {c : Char} {s : List Char} (h : c ∉ s) : longestRun c 0 0 s = 0 := by
  induction s with
  | nil => rfl
  | cons d s ih =>
    have ⟨other, rest⟩ := List.ne_and_not_mem_of_not_mem_cons h
    rw [longestRun, if_neg (Ne.symm other)]
    exact ih rest

/-- A text may stand for itself if its characters may, and its runs of marks are short. -/
theorem Encodes.self {run longest : Nat} {s : List Char}
    (short : longestRun quote.mark run longest s ≤ quote.most)
    (reads : ∀ c ∈ s, c ≠ quote.mark → ∀ after,
      readPiece quote (c :: after) = some (.more [c] after)) : Encodes quote run s s := by
  induction s generalizing run longest with
  | nil =>
    have := le_longestRun quote.mark run longest []
    exact .nil (by omega)
  | cons c s ih =>
    have le := le_longestRun quote.mark run longest (c :: s)
    have rest : ∀ d ∈ s, _ := fun d hd => reads d (List.mem_cons_of_mem _ hd)
    unfold longestRun at short
    split_ifs at short with isMark
    · have le := le_longestRun quote.mark (run + 1) longest s
      rw [isMark]
      exact .mark (by omega) (ih short rest)
    · have le := le_longestRun quote.mark 0 (max run longest) s
      exact .piece (by omega) c c [] isMark (reads c List.mem_cons_self isMark) (ih short rest)

theorem isText_of_not_isControl {c : Char} (h : isControl c = false) : isText c = true := by
  simp only [isControl, Bool.or_eq_false_iff, decide_eq_false_iff_not] at h
  simp [isText, h]
  omega

theorem Quote.ofText_cases (s : List Char) :
    Quote.ofText s = basic ∨ Quote.ofText s = longBasic ∨
      (Quote.ofText s = literal ∧ longestRun '\'' 0 0 s = 0 ∧
        ∀ c ∈ s, c = '\t' ∨ isControl c = false) ∨
      (Quote.ofText s = longLiteral ∧ longestRun '\'' 0 0 s ≤ 2 ∧
        ∀ c ∈ s, c = '\t' ∨ c = '\n' ∨ isControl c = false) := by
  unfold Quote.ofText
  dsimp only
  split_ifs with h₁ h₂ h₃ h₄ h₅
  · simp
  · refine Or.inr (Or.inr (Or.inl ⟨rfl, h₂.2.2, fun c hc => ?_⟩))
    have ⟨control, line, _⟩ := h₂
    simp only [Bool.not_eq_true', List.any_eq_false] at control
    have notControl := control c hc
    have notLine : c ≠ '\n' := by
      rintro rfl
      simp [hc] at line
    by_cases tab : c = '\t' <;> simp_all
  · simp
  · refine Or.inr (Or.inr (Or.inr ⟨rfl, h₄.2, fun c hc => ?_⟩))
    have ⟨control, _⟩ := h₄
    simp only [Bool.not_eq_true', List.any_eq_false] at control
    have notControl := control c hc
    by_cases isLine : c = '\n' <;> by_cases tab : c = '\t' <;> simp_all
  · simp
  · simp

def Quote.body (quote : Quote) (s : List Char) : List Char :=
  if quote.escapes then Toml.escapeAll quote.long 0 s else s

theorem Encodes.ofText (s : List Char) : Encodes (.ofText s) 0 ((Quote.ofText s).body s) s := by
  have isText {c : Char} (h : c = '\t' ∨ isControl c = false) : isText c = true := by
    rcases h with rfl | h
    · decide
    · exact isText_of_not_isControl h
  rcases Quote.ofText_cases s with same | same | ⟨same, short, held⟩ | ⟨same, short, held⟩
  · rw [same]
    exact .escapeAll rfl (Nat.zero_le _) s
  · rw [same]
    exact .escapeAll rfl (Nat.zero_le _) s
  · rw [same]
    exact .self (Nat.le_of_eq short) fun c hc other =>
      readPiece_cons other (isText (held c hc)) fun _ => rfl
  · rw [same]
    refine .self short fun c hc other => ?_
    by_cases line : c = '\n'
    · rw [line]
      exact fun _ => readPiece_of_newline? rfl (by decide) rfl
    · exact readPiece_cons other (isText ((held c hc).imp_right fun h => h.resolve_left line))
        fun _ => rfl

theorem Encodes.ofName (s : List Char) :
    Encodes (.ofName s) 0 ((Quote.ofName s).body s) s ∧ (Quote.ofName s).long = false := by
  unfold Quote.ofName
  dsimp only
  split_ifs with h₁ h₂
  · exact ⟨.escapeAll rfl (Nat.zero_le _) s, rfl⟩
  · have ⟨control, unmarked⟩ := h₂
    simp only [Bool.not_eq_true', List.any_eq_false] at control
    have notMark : '\'' ∉ s := by simpa using unmarked
    refine ⟨.self (Nat.le_of_eq (longestRun_of_not_mem notMark)) fun c hc other => ?_, rfl⟩
    refine readPiece_cons other ?_ fun _ => rfl
    have notControl := control c hc
    by_cases tab : c = '\t'
    · rw [tab]
      decide
    · exact isText_of_not_isControl (by simpa [tab] using notControl)
  · exact ⟨.escapeAll rfl (Nat.zero_le _) s, rfl⟩

theorem Quote.write_eq (quote : Quote) (s : List Char) :
    quote.write s = quote.marks ++ (if quote.long ∧ s.contains '\n' then ['\n'] else []) ++
      quote.body s ++ quote.marks := rfl

theorem Encodes.head_ne (short : quote.long = false) {run : Nat} {body text : List Char}
    (h : Encodes quote run body text) : body.head? ≠ some quote.mark := by
  cases h with
  | nil => simp
  | mark few => simp [Quote.most, short] at few
  | piece _ c first more other => simpa using other

theorem Encodes.newline?_append (long : quote.long = true) {run : Nat} {body text : List Char}
    (isMark : quote.mark = '"' ∨ quote.mark = '\'') (h : Encodes quote run body text)
    (oneLine : '\n' ∉ text) (rest : List Char) :
    newline? (body ++ quote.mark :: rest) = none := by
  have markLine : quote.mark ≠ '\n' := by rcases isMark with h | h <;> simp [h]
  have markCarriage : quote.mark ≠ '\r' := by rcases isMark with h | h <;> simp [h]
  cases h with
  | nil => exact newline?_cons markLine markCarriage _
  | mark => exact newline?_cons markLine markCarriage _
  | @piece _ body text _ c first more other reads =>
    have next := reads (body ++ quote.mark :: rest)
    rw [List.append_assoc]
    cases line : newline? (first :: more ++ (body ++ quote.mark :: rest)) with
    | none => rfl
    | some after =>
      have isLine := (reads _).symm.trans (readPiece_of_newline? long other line)
      simp only [Option.some.injEq, Piece.more.injEq, List.cons.injEq] at isLine
      exact absurd (isLine.1.1 ▸ List.mem_cons_self) oneLine

theorem readText_of_short {s : List Char} {c : Char} (isMark : c = '"' ∨ c = '\'')
    (notLong : ∀ t, s ≠ c :: c :: t) : readText (c :: s) = readQuoted ⟨c, false⟩ s := by
  rcases isMark with rfl | rfl
  · unfold readText
    split <;> simp_all [Quote.basic]
  · unfold readText
    split <;> simp_all [Quote.literal]

theorem readText_long {c : Char} (isMark : c = '"' ∨ c = '\'') (s : List Char) :
    readText (c :: c :: c :: s) = readQuoted ⟨c, true⟩ (dropFirstLine s) := by
  rcases isMark with rfl | rfl <;> rfl

theorem Encodes.readText_write {s rest : List Char} (h : Encodes quote 0 (quote.body s) s)
    (isMark : quote.mark = '"' ∨ quote.mark = '\'') (other : rest.head? ≠ some quote.mark) :
    readText (quote.write s ++ rest) = some (s, rest) := by
  have reads : readQuoted quote (quote.body s ++ (quote.marks ++ rest)) = some (s, rest) :=
    h.readQuoted_append fun _ => other
  by_cases long : quote.long = true
  · have marks : ∀ t, quote.marks ++ t = quote.mark :: quote.mark :: quote.mark :: t := by
      simp [Quote.marks, long, List.replicate]
    have same : (⟨quote.mark, true⟩ : Quote) = quote := by rw [← long]
    rw [Quote.write_eq, List.append_assoc, List.append_assoc, List.append_assoc, marks,
      readText_long isMark, same]
    by_cases line : '\n' ∈ s
    · rw [if_pos ⟨long, by simpa using line⟩]
      exact reads
    · have oneLine := h.newline?_append long isMark line (quote.mark :: quote.mark :: rest)
      rw [if_neg (by simp [line]), List.nil_append, dropFirstLine, marks, oneLine, Option.getD_none,
        ← marks, reads]
  · have short : quote.long = false := by simpa using long
    have marks : ∀ t, quote.marks ++ t = quote.mark :: t := by
      simp [Quote.marks, short]
    have same : (⟨quote.mark, false⟩ : Quote) = quote := by rw [← short]
    have notLong : ∀ t, quote.body s ++ (quote.marks ++ rest) ≠ quote.mark :: quote.mark :: t := by
      intro t start
      rw [marks] at start
      cases body : quote.body s with
      | nil => simp_all
      | cons first more =>
        have := h.head_ne short
        simp_all
    rw [Quote.write_eq, List.append_assoc, List.append_assoc, List.append_assoc,
      if_neg (by simp [short]), List.nil_append, marks (quote.body s ++ _),
      readText_of_short isMark notLong, same, reads]

theorem readText_writeText {s rest : List Char} (double : rest.head? ≠ some '"')
    (single : rest.head? ≠ some '\'') : readText (writeText s ++ rest) = some (s, rest) := by
  have encodes := Encodes.ofText s
  rcases Quote.ofText_cases s with same | same | ⟨same, -⟩ | ⟨same, -⟩ <;>
  · rw [writeText, same]
    rw [same] at encodes
    exact encodes.readText_write (by decide) (by assumption)

end Writing

end Appliance.Toml
