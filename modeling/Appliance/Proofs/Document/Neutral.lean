import Appliance.Proofs.Document.ClosedPorts
import Appliance.Proofs.Document.Content
import Appliance.Proofs.Parameters
import Appliance.Proofs.Records

/-! A document that says nothing. Laid over another document, or under it, it only has the other one
settled, and a settled document that says something keeps its time. -/
namespace Appliance

theorem Parameters.empty_layer (map : Parameters) : layer [empty, map] = map := by
  simp [layer, empty, ofPairs_pairs]

theorem Parameters.layer_empty (map : Parameters) : layer [map, empty] = map := by
  simp [layer, empty, ofPairs_pairs]

theorem Package.empty_overlay (package : Package) : overlay {} package = package := by
  cases package
  simp only [overlay, mk.injEq]
  and_intros <;> exact override_default _

theorem Package.overlay_empty (package : Package) : package.overlay {} = package := by
  cases package
  simp only [overlay, mk.injEq]
  and_intros <;> exact override_of_default _

theorem Machine.empty_overlay (machine : Machine) : overlay {} machine = machine := by
  cases machine
  simp only [overlay, mk.injEq]
  and_intros <;> exact override_default _

theorem Machine.overlay_empty (machine : Machine) : machine.overlay {} = machine := by
  cases machine
  simp only [overlay, mk.injEq]
  and_intros <;> exact override_of_default _

theorem Settings.settle_overlay (base upper : Settings) :
    (base.overlay upper).settle =
      { base.overlay upper with
        dns := Entries.settle [base.dns, upper.dns]
        ntp := Entries.settle [base.ntp, upper.ntp] } := by
  simp only [settle, overlay, Entries.settle_layerDistinct, Words.settle_settle]

theorem Settings.settle_empty_overlay (settings : Settings) :
    (overlay {} settings).settle = settings.settle := by
  have arguments : Words.settle ["", settings.kernelArgs] =
      Words.settle [settings.kernelArgs] := rfl
  rw [settle_overlay]
  simp only [settle, overlay, mk.injEq]
  refine ⟨rfl, rfl, ?_, ?_, ?_, arguments, ?_, ?_⟩ <;> exact override_default _

theorem Settings.settle_overlay_empty (settings : Settings) :
    (settings.overlay {}).settle = settings.settle := by
  have list (entries : List Entry) : Entries.settle [entries, []] = Entries.settle [entries] := by
    simp [Entries.settle, Entries.layerDistinct]
  have arguments : Words.settle [settings.kernelArgs, ""] = Words.settle [settings.kernelArgs] := by
    rw [Words.settle_eq_settle_iff]
    exact list _
  rw [settle_overlay]
  simp only [settle, overlay, mk.injEq]
  refine ⟨list _, list _, ?_, ?_, ?_, arguments, ?_, ?_⟩ <;> exact override_of_default _

namespace Document

theorem settle_empty_unite (doc : Document) : (unite {} doc).settle = doc.settle.content := by
  simp only [settle, unite, content, Records.nil_layer, Package.empty_overlay,
    Machine.empty_overlay, Parameters.empty_layer, Interface.overlayAll,
    Settings.settle_empty_overlay]

theorem settle_unite_empty (doc : Document) : (doc.unite {}).settle = doc.settle.content := by
  simp only [settle, unite, content, Records.layer_nil, Package.overlay_empty,
    Machine.overlay_empty, Parameters.layer_empty, Interface.overlayAll_nil,
    Settings.settle_overlay_empty]

section

variable {empty doc : Document} (nothing : empty.content = {})
include nothing

theorem settle_unite_of_content_eq_empty (doc : Document) :
    (empty.unite doc).settle = doc.settle.content ∧
      (doc.unite empty).settle = doc.settle.content := by
  have below : empty.content.unite doc = unite {} doc := by rw [nothing]
  have above : doc.unite empty.content = doc.unite {} := by rw [nothing]
  constructor
  · rw [← settle_empty_unite, ← below]
    rfl
  · rw [← settle_unite_empty, ← above]
    rfl

theorem overlay_of_content_eq_empty (settled : doc.settle = doc) (filled : doc.content ≠ {})
    (now : Time) : empty.overlay doc now = doc ∧ doc.overlay empty now = doc := by
  have ⟨below, above⟩ := settle_unite_of_content_eq_empty nothing doc
  rw [settled] at below above
  exact ⟨overlay_eq_upper below now, overlay_eq_base (nothing ▸ filled) above now⟩

/-- A document that says nothing can be laid over or under any other one: the outcome is the other
one settled. If that one is settled and says something, the outcome is that document, time and all,
so nothing is changed by such a layer anywhere above it. -/
theorem empty_layer_is_neutral :
    (∀ (doc : Document) (now : Time),
      (empty.overlay doc now).content = doc.settle.content ∧
      (doc.overlay empty now).content = doc.settle.content) ∧
    (∀ (doc : Document) (now : Time), doc.settle = doc → doc.content ≠ {} →
      empty.overlay doc now = doc ∧ doc.overlay empty now = doc) ∧
    ∀ (base : Document) (before after : List (Document × Time)) (now : Time),
      (base.overlayAll before).settle = base.overlayAll before →
      (base.overlayAll before).content ≠ {} →
      base.overlayAll (before ++ (empty, now) :: after) = base.overlayAll (before ++ after) := by
  refine ⟨fun doc now => ?content, fun doc now settled filled => ?same, ?run⟩
  case content =>
    rw [content_overlay, content_overlay]
    exact settle_unite_of_content_eq_empty nothing doc
  case same => exact overlay_of_content_eq_empty nothing settled filled now
  case run =>
    intro base before after now settled filled
    have step := (overlay_of_content_eq_empty nothing settled filled now).2
    simp only [overlayAll] at step ⊢
    rw [List.foldl_append, List.foldl_cons, step, List.foldl_append]

end

theorem empty_layer_above_name_server :
    let empty : Document := { changed := some ⟨7⟩ }
    let doc : Document := { settings := { dns := [.plain "8.8.8.8"] }, changed := some ⟨3⟩ }
    let raw : Document := { settings := { dns := [.plain "x", .retract "x", .plain "8.8.8.8"] } }
    empty.content = {} ∧ doc.settle = doc ∧ doc.content ≠ {} ∧ empty.overlay doc ⟨9⟩ = doc ∧
      doc.overlay empty ⟨9⟩ = doc ∧ (raw.overlay empty ⟨9⟩).content = doc.content := by
  intro empty doc raw
  have nothing : empty.content = {} := rfl
  have settled : doc.settle = doc := by decide
  have filled : doc.content ≠ {} := by decide
  have ⟨content, same, _⟩ := empty_layer_is_neutral nothing
  have ⟨below, above⟩ := same doc ⟨9⟩ settled filled
  exact ⟨nothing, settled, filled, below, above, (content raw ⟨9⟩).2.trans (by decide)⟩

end Document
end Appliance
