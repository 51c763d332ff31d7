import Appliance.Proofs.Words

/-! Argument strings put together with white space. What they stand for together is the same whether
they come one by one or as one string, and whatever blanks stand between them. -/
namespace Appliance

namespace Text

theorem words_blanks_append {gap : List Char} (blank : ∀ c ∈ gap, isBlank c = true)
    (s : List Char) : words (gap ++ s) = words s := by
  induction gap with
  | nil => rfl
  | cons c gap ih =>
    rw [List.cons_append, words_cons_blank (blank c List.mem_cons_self),
      ih fun d hd => blank d (List.mem_cons_of_mem _ hd)]

def IsGap (gap : List Char) : Prop := gap ≠ [] ∧ ∀ c ∈ gap, isBlank c = true

instance (gap : List Char) : Decidable (IsGap gap) :=
  decidable_of_iff (gap ≠ [] ∧ gap.all isBlank = true) (by rw [IsGap, List.all_eq_true])

theorem words_append_gap {gap : List Char} (isGap : IsGap gap) (s t : List Char) :
    words (s ++ gap ++ t) = words s ++ words t := by
  obtain ⟨c, gap, rfl⟩ := List.exists_cons_of_ne_nil isGap.1
  rw [List.append_assoc, List.cons_append, words_append (isGap.2 c List.mem_cons_self),
    words_blanks_append fun d hd => isGap.2 d (List.mem_cons_of_mem _ hd)]

end Text

theorem Entries.settle_flatten (lists : List (List Entry)) :
    settle [lists.flatten] = settle lists := by
  rw [settle, layerDistinct, List.flatten_singleton, settle, layerDistinct]

namespace Words

/-- Is the string one of arguments with a gap between neighbours, each gap of any blanks? -/
inductive Spaced : List String → String → Prop
  | none : Spaced [] ""
  | last (argument : String) : Spaced [argument] argument
  | more {gap next text : String} {arguments : List String} (argument : String)
      (isGap : Text.IsGap gap.toList) (rest : Spaced (next :: arguments) text) :
      Spaced (argument :: next :: arguments) (argument ++ gap ++ text)

theorem spaced_intercalate {gap : String} (isGap : Text.IsGap gap.toList)
    (arguments : List String) : Spaced arguments (gap.intercalate arguments) := by
  match arguments with
  | [] => exact .none
  | [argument] =>
    rw [String.intercalate_singleton]
    exact .last argument
  | argument :: next :: arguments =>
    rw [String.intercalate_cons_cons]
    exact .more argument isGap (spaced_intercalate isGap (next :: arguments))

theorem split_append_gap {gap : String} (isGap : Text.IsGap gap.toList) (before after : String) :
    split (before ++ gap ++ after) = split before ++ split after := by
  rw [split, String.toList_append, String.toList_append, Text.words_append_gap isGap,
    List.map_append, split, split]

theorem Spaced.split_eq {arguments : List String} {text : String}
    (spaced : Spaced arguments text) : split text = (arguments.map split).flatten := by
  induction spaced with
  | none => rfl
  | last argument => simp
  | more argument isGap _ ih =>
    rw [split_append_gap isGap, ih]
    rfl

/-- Argument strings are settled as one list of words: with any white space between them they come
to the same in one string as one by one, words that are joined are split again, and a settled string
is split into the settled list, so that settling it once more changes nothing. -/
theorem settles_as_one_list :
    (∀ arguments text, Spaced arguments text → settle [text] = settle arguments) ∧
    (∀ (gap : String) arguments, Text.IsGap gap.toList →
      Spaced arguments (gap.intercalate arguments)) ∧
    (∀ entries : List Entry, (∀ e ∈ entries, e.WellSpelled ∧ Text.IsWord e.spelling.toList) →
      split (join entries) = entries) ∧
    (∀ arguments, split (settle arguments) = Entries.settle (arguments.map split)) ∧
    ∀ arguments, settle [settle arguments] = settle arguments := by
  refine ⟨fun arguments text spaced => ?_, fun _ arguments isGap => ?_, fun entries good => ?_,
    split_settle, settle_settle⟩
  · rw [settle_eq_settle_iff, List.map_singleton, spaced.split_eq, Entries.settle_flatten]
  · exact spaced_intercalate isGap arguments
  · exact split_join (fun e he => (good e he).1) fun e he => (good e he).2

/-- Bare marks are words as well, and the white space need not be that of ASCII. -/
theorem settles_as_one_list_of_bare_marks :
    let arguments := ["quiet ! ~", "", "~quiet\u2028debug"]
    let text := "quiet ! ~" ++ " \t" ++ ("" ++ "\u3000" ++ "~quiet\u2028debug")
    let entries : List Entry := [.exclude "", .retract "", .retract "!", .plain "tty0"]
    Spaced arguments text ∧ (∀ e ∈ entries, e.WellSpelled ∧ Text.IsWord e.spelling.toList) ∧
      settle [text] = settle arguments ∧ Spaced arguments ("\u00a0".intercalate arguments) ∧
      split (join entries) = entries := by
  intro arguments text entries
  have spaced : Spaced arguments text :=
    .more "quiet ! ~" (by decide) (.more "" (by decide) (.last "~quiet\u2028debug"))
  have good : ∀ e ∈ entries, e.WellSpelled ∧ Text.IsWord e.spelling.toList := by decide
  have ⟨same, intercalated, joined, _⟩ := settles_as_one_list
  exact ⟨spaced, good, same _ _ spaced, intercalated _ _ (by decide), joined entries good⟩

end Words
end Appliance
