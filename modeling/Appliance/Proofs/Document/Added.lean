import Appliance.Proofs.Document.Neutral
import Appliance.Proofs.Entries.Position

/-! Values that an upper list names for good, with no retraction of them afterwards. A list without
a protocol leaves such a value unless a retraction stands after the first of its repeats: the later
ones are gone by the time the retractions act, and the value goes with the first one. -/
namespace Appliance

namespace Entries

/-- Does the list name a value, retract it nowhere after that, and not exclude it? -/
def Adds (entries : List Entry) (text : String) : Prop :=
  (∃ before after, entries = before ++ .plain text :: after ∧ .retract text ∉ after) ∧
    .exclude text ∉ entries

/-- Does the upper list retract a value nowhere, or else only before the value is named at all? -/
def Lasts (base upper : List Entry) (text : String) : Prop :=
  .retract text ∉ upper ∨ .plain text ∉ base ∧ Precedes upper ("~" ++ text) text

instance (base upper : List Entry) (text : String) : Decidable (Lasts base upper text) :=
  inferInstanceAs (Decidable (_ ∨ _))

variable {base upper : List Entry} {text : String}

theorem Adds.plain_mem (adds : Adds upper text) : .plain text ∈ upper := by
  obtain ⟨⟨before, after, rfl, _⟩, _⟩ := adds
  simp

theorem Adds.plain_mem_settle_iff (adds : Adds upper text) (spelled : ∀ e ∈ upper, e.WellSpelled) :
    .plain text ∈ settle [upper] ↔
      .retract text ∉ upper ∨ Precedes upper ("~" ++ text) text := by
  have together : ∀ e ∈ [upper].flatten, e.WellSpelled := by simpa using spelled
  have named : ∃ e ∈ upper, e.spelling = text := ⟨_, adds.plain_mem, rfl⟩
  have unretracted : (∀ e ∈ upper, e.spelling ≠ "~" ++ text) ↔ .retract text ∉ upper := by
    rw [← Entry.exists_spelling_iff (Entry.wellSpelled_retract text) spelled]
    simp [Entry.spelling]
  rw [Entries.plain_mem_settle_iff together, List.flatten_singleton,
    not_precedes_iff named (Entry.ne_retraction text), unretracted]
  simp [adds.plain_mem, adds.2]

theorem Adds.plain_mem_settle_overlay_iff (adds : Adds upper text) (values : Values base)
    (spelled : ∀ e ∈ upper, e.WellSpelled) :
    .plain text ∈ settle [base, upper] ↔ Lasts base upper text := by
  have notLaid : .exclude text ∉ layerDistinct [upper] := fun mem =>
    adds.2 (by simpa [layerDistinct] using mem_of_mem_retract mem)
  have below : stays upper (.plain text) = true ↔ .retract text ∉ upper :=
    stays_iff spelled rfl adds.plain_mem notLaid
  rw [settle_overlay values spelled, List.mem_append, List.mem_filter, List.mem_filter, below,
    adds.plain_mem_settle_iff spelled, Lasts]
  by_cases inBase : .plain text ∈ base <;> simp [inBase]

end Entries

namespace Document

open Entries (Values Adds Lasts)

/-- A value that an upper list adds is in the outcome just if the list does not retract it, or does
so only where the value has not been named yet. So it is for lists of entries, for argument strings
that stand for such lists, and for the lists of a document that have no protocol. -/
theorem added_value_is_left_iff {base upper : List Entry} {text : String} (values : Values base)
    (spelled : ∀ e ∈ upper, e.WellSpelled) (adds : Adds upper text) :
    (.plain text ∈ Entries.settle [base, upper] ↔ Lasts base upper text) ∧
    (∀ below above : String, Words.split below = base → Words.split above = upper →
      (.plain text ∈ Words.split (Words.settle [below, above]) ↔ Lasts base upper text)) ∧
    ∀ (below above : Document) (now : Time),
      let outcome := (below.overlay above now).settings
      (below.settings.dns = base → above.settings.dns = upper →
        (.plain text ∈ outcome.dns ↔ Lasts base upper text)) ∧
      (below.settings.ntp = base → above.settings.ntp = upper →
        (.plain text ∈ outcome.ntp ↔ Lasts base upper text)) ∧
      (Words.split below.settings.kernelArgs = base →
        Words.split above.settings.kernelArgs = upper →
        (.plain text ∈ Words.split outcome.kernelArgs ↔ Lasts base upper text)) := by
  have list := adds.plain_mem_settle_overlay_iff values spelled
  have arguments (below above : String) (lower : Words.split below = base)
      (higher : Words.split above = upper) :
      .plain text ∈ Words.split (Words.settle [below, above]) ↔ Lasts base upper text := by
    rw [Words.split_settle, List.map_cons, List.map_singleton, lower, higher]
    exact list
  refine ⟨list, arguments, fun below above now => ?_⟩
  intro outcome
  have settled : outcome = (below.settings.overlay above.settings).settle := rfl
  rw [settled, Settings.settle_overlay]
  refine ⟨fun lower higher => ?_, fun lower higher => ?_, arguments _ _⟩
  · rw [lower, higher]
    exact list
  · rw [lower, higher]
    exact list

theorem added_value_is_left_iff_of_argument_listed_again :
    let below : Document :=
      { settings := { dns := [.plain "quiet", .plain "tty0"], kernelArgs := "quiet tty0" } }
    let above : Document :=
      { settings :=
          { dns := [.retract "debug", .retract "quiet", .plain "debug"]
            kernelArgs := "~debug  ~quiet debug" } }
    let base : List Entry := [.plain "quiet", .plain "tty0"]
    let upper : List Entry := [.retract "debug", .retract "quiet", .plain "debug"]
    let outcome := (below.overlay above ⟨500⟩).settings
    Values base ∧ (∀ e ∈ upper, e.WellSpelled) ∧ Adds upper "debug" ∧ Lasts base upper "debug" ∧
      .plain "debug" ∈ Entries.settle [base, upper] ∧
      .plain "debug" ∈ Words.split (Words.settle ["quiet tty0", "~debug  ~quiet debug"]) ∧
      .plain "debug" ∈ outcome.dns ∧ .plain "debug" ∈ Words.split outcome.kernelArgs := by
  intro below above base upper outcome
  have values : Values base := ⟨by decide, by decide⟩
  have spelled : ∀ e ∈ upper, e.WellSpelled := by decide
  have adds : Adds upper "debug" :=
    ⟨⟨[.retract "debug", .retract "quiet"], [], rfl, by decide⟩, by decide⟩
  have lasts : Lasts base upper "debug" := by decide
  have ⟨list, arguments, documents⟩ := added_value_is_left_iff values spelled adds
  have ⟨dns, _, kernelArgs⟩ := documents below above ⟨500⟩
  exact ⟨values, spelled, adds, lasts, list.2 lasts,
    (arguments "quiet tty0" "~debug  ~quiet debug" (by decide) (by decide)).2 lasts,
    (dns rfl rfl).2 lasts, (kernelArgs (by decide) (by decide)).2 lasts⟩

/-- A list that retracts a value and then names it again loses the value to the one below. -/
theorem exists_added_value_lost :
    ∃ (base upper : List Entry) (text : String), Values base ∧ (∀ e ∈ upper, e.WellSpelled) ∧
      Adds upper text ∧ .plain text ∉ Entries.settle [base, upper] := by
  refine ⟨[.plain "x"], [.retract "x", .plain "x"], "x", ?_, by decide, ?_, by decide⟩
  · exact ⟨by decide, by decide⟩
  · exact ⟨⟨[.retract "x"], [], rfl, by decide⟩, by decide⟩

end Document
end Appliance
