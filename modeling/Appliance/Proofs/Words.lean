import Appliance.Entries
import Appliance.Proofs.Entries.Values
import Appliance.Proofs.Text.Cut

/-! Argument strings and the lists of entries that they stand for. Joining words and cutting the
text again gives the words back, so a settled string is a settled list in another form. -/
namespace Appliance

namespace Text

def IsWord (word : List Char) : Prop := word ≠ [] ∧ ∀ c ∈ word, isBlank c = false

instance (word : List Char) : Decidable (IsWord word) :=
  decidable_of_iff (word ≠ [] ∧ word.all (!isBlank ·) = true) (by simp [IsWord])

theorem firstAndRest_isWord (s : List Char) :
    (∀ c ∈ (firstAndRest s).1, isBlank c = false) ∧ ∀ w ∈ (firstAndRest s).2, IsWord w := by
  induction s with
  | nil => simp [firstAndRest]
  | cons c cs ih =>
    by_cases blank : isBlank c = true
    · simp only [firstAndRest, blank, if_true, consWord]
      refine ⟨by simp, fun w hw => ?_⟩
      split at hw
      · exact ih.2 w hw
      · next ne =>
        rcases List.mem_cons.1 hw with rfl | hw
        · exact ⟨by simpa using ne, ih.1⟩
        · exact ih.2 w hw
    · simp only [firstAndRest, blank, Bool.false_eq_true, if_false]
      exact ⟨by simpa [blank] using ih.1, ih.2⟩

theorem isWord_of_mem_words {s w : List Char} (h : w ∈ words s) : IsWord w := by
  have cut := firstAndRest_isWord s
  simp only [words, consWord] at h
  split at h
  · exact cut.2 w h
  · next ne =>
    rcases List.mem_cons.1 h with rfl | h
    · exact ⟨by simpa using ne, cut.1⟩
    · exact cut.2 w h

theorem words_of_isWord {w : List Char} (h : IsWord w) : words w = [w] := by
  have first : ∀ v : List Char, (∀ c ∈ v, isBlank c = false) → firstAndRest v = (v, []) := by
    intro v hv
    induction v with
    | nil => rfl
    | cons c v ih =>
      simp [firstAndRest, ih fun d hd => hv d (List.mem_cons_of_mem _ hd), hv c List.mem_cons_self]
  simp [words, first w h.2, consWord, h.1]

theorem words_join {ws : List (List Char)} (h : ∀ w ∈ ws, IsWord w) :
    words (join [' '] ws) = ws := by
  induction ws with
  | nil => rfl
  | cons w ws ih =>
    have first := words_of_isWord (h w List.mem_cons_self)
    have tail := ih fun v hv => h v (List.mem_cons_of_mem _ hv)
    cases ws with
    | nil => exact first
    | cons v ws =>
      have text : join [' '] (w :: v :: ws) = w ++ ' ' :: join [' '] (v :: ws) := by
        simp [join]
      rw [text, words_append (by decide), first, tail]
      rfl

end Text

namespace Words

theorem wellSpelled_split (arguments : String) : ∀ e ∈ split arguments, e.WellSpelled := by
  intro e he
  obtain ⟨word, -, rfl⟩ := List.mem_map.1 he
  exact ⟨_, rfl⟩

theorem isWord_split (arguments : String) :
    ∀ e ∈ split arguments, Text.IsWord e.spelling.toList := by
  intro e he
  obtain ⟨word, hword, rfl⟩ := List.mem_map.1 he
  simpa using Text.isWord_of_mem_words hword

theorem split_join {entries : List Entry} (spelled : ∀ e ∈ entries, e.WellSpelled)
    (words : ∀ e ∈ entries, Text.IsWord e.spelling.toList) : split (join entries) = entries := by
  have cut : Text.words (join entries).toList = entries.map (·.spelling.toList) := by
    rw [join, String.toList_ofList]
    refine Text.words_join fun w hw => ?_
    obtain ⟨e, he, rfl⟩ := List.mem_map.1 hw
    exact words e he
  rw [split, cut, List.map_map]
  refine (List.map_congr_left fun e he => ?_).trans (List.map_id entries)
  simpa using (spelled e he).ofSpelling_spelling

/-- A settled string stands for the settled list. -/
theorem split_settle (arguments : List String) :
    split (settle arguments) = Entries.settle (arguments.map split) := by
  have origin : ∀ e ∈ Entries.settle (arguments.map split), ∃ a ∈ arguments, e ∈ split a := by
    intro e he
    have listed := Entries.mem_of_mem_retract (Entries.mem_exclude.1 he).1
    simpa using listed
  refine split_join (fun e he => ?_) (fun e he => ?_)
  · obtain ⟨a, -, mem⟩ := origin e he
    exact wellSpelled_split a e mem
  · obtain ⟨a, -, mem⟩ := origin e he
    exact isWord_split a e mem

theorem settle_eq_settle_iff {as bs : List String} :
    settle as = settle bs ↔
      Entries.settle (as.map split) = Entries.settle (bs.map split) := by
  constructor
  · intro same
    rw [← split_settle, ← split_settle, same]
  · intro same
    rw [settle, settle, same]

theorem settle_settle (arguments : List String) : settle [settle arguments] = settle arguments := by
  rw [settle_eq_settle_iff, List.map_singleton, split_settle, (Entries.settle_values _).settle_eq]

theorem values_split_of_settle_eq {arguments : String} (h : settle [arguments] = arguments) :
    Entries.Values (split arguments) := by
  rw [← h, split_settle]
  exact Entries.settle_values _

theorem settle_settle_overlay_iff (base upper : String) :
    settle [settle [base, upper], upper] = settle [base, upper] ↔
      Entries.settle [Entries.settle [split base, split upper], split upper] =
        Entries.settle [split base, split upper] := by
  simp [settle_eq_settle_iff, split_settle]

def IsToken (token : String) : Prop :=
  Text.IsWord token.toList ∧ token.toList.head? ≠ some '!' ∧ token.toList.head? ≠ some '~'

def Settled (arguments : String) : Prop :=
  ∃ tokens : List String,
    tokens.Nodup ∧ (∀ t ∈ tokens, IsToken t) ∧ arguments = " ".intercalate tokens

theorem join_eq_intercalate (entries : List Entry) :
    join entries = " ".intercalate (entries.map (·.spelling)) := by
  rw [← String.toList_inj, join, String.toList_ofList, Text.join_eq_intercalate,
    String.toList_intercalate, List.map_map]
  rfl

theorem ofSpelling_of_isToken {token : String} (h : IsToken token) :
    Entry.ofSpelling token = .plain token := by
  unfold Entry.ofSpelling
  split
  · next same => simp [IsToken, same] at h
  · next same => simp [IsToken, same] at h
  · rfl

theorem isToken_of_plain {text : String} (spelled : (Entry.plain text).WellSpelled)
    (word : Text.IsWord text.toList) : IsToken text := by
  have same : Entry.ofSpelling text = .plain text := spelled.ofSpelling_spelling
  refine ⟨word, fun mark => ?_, fun mark => ?_⟩ <;>
  · obtain ⟨rest, hrest⟩ : ∃ rest, text.toList = _ :: rest :=
      ⟨_, (List.cons_head?_tail mark).symm⟩
    simp [Entry.ofSpelling, hrest] at same

theorem settle_eq_self_iff {arguments : String} :
    settle [arguments] = arguments ↔ Settled arguments := by
  constructor
  · intro same
    have values := values_split_of_settle_eq same
    refine ⟨(split arguments).map (·.spelling),
      Entries.nodup_spelling_of_isPlain values.1 values.2, fun t ht => ?_, ?_⟩
    · obtain ⟨e, he, rfl⟩ := List.mem_map.1 ht
      have plain := Entry.eq_plain_of_isPlain (values.1 e he)
      have word := isWord_split arguments e he
      rw [plain] at word ⊢
      exact isToken_of_plain (plain ▸ wellSpelled_split arguments e he) word
    · rw [← join_eq_intercalate]
      calc arguments = settle [arguments] := same.symm
        _ = join (Entries.settle [split arguments]) := rfl
        _ = join (split arguments) := by rw [values.settle_eq]
  · rintro ⟨tokens, distinct, isToken, rfl⟩
    have text : " ".intercalate tokens = join (tokens.map .plain) := by
      rw [join_eq_intercalate, List.map_map]
      exact congrArg _ (List.map_id tokens).symm
    have words : split (join (tokens.map .plain)) = tokens.map .plain := by
      refine split_join (fun e he => ?_) (fun e he => ?_)
      · obtain ⟨t, ht, rfl⟩ := List.mem_map.1 he
        exact ⟨t, ofSpelling_of_isToken (isToken t ht)⟩
      · obtain ⟨t, ht, rfl⟩ := List.mem_map.1 he
        exact (isToken t ht).1
    have values : Entries.Values (tokens.map .plain) :=
      ⟨by simp [Entry.isPlain], distinct.map fun a b same => Entry.plain.inj same⟩
    rw [text, settle, List.map_singleton, words, values.settle_eq]

end Words
end Appliance
