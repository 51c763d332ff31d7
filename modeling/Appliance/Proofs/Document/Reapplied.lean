import Appliance.Proofs.Document.Settled
import Appliance.Proofs.Interface.Overlay
import Appliance.Proofs.Parameters
import Appliance.Proofs.Records

/-! Laying a document twice over another one. Interfaces, records, maps and single values are the
same after the second time. The lists without a protocol lose their repeats before the retractions
act, so a list that retracts a value and then names it again takes out, the second time, what it put
in the first time. -/
namespace Appliance

theorem Package.overlay_overlay (base upper : Package) :
    (base.overlay upper).overlay upper = base.overlay upper := by
  simp [overlay]

theorem Machine.overlay_overlay (base upper : Machine) :
    (base.overlay upper).overlay upper = base.overlay upper := by
  simp [overlay]

theorem Settings.settle_overlay_overlay (base upper : Settings) :
    ((base.overlay upper).settle.overlay upper).settle =
      { (base.overlay upper).settle with
        dns := Entries.settle [Entries.settle [base.dns, upper.dns], upper.dns]
        ntp := Entries.settle [Entries.settle [base.ntp, upper.ntp], upper.ntp]
        kernelArgs := Words.settle
          [Words.settle [base.kernelArgs, upper.kernelArgs], upper.kernelArgs] } := by
  simp [overlay, settle, Entries.settle_layerDistinct, Words.settle_settle]

namespace Document

section

variable (base upper : Document)

theorem settle_unite_overlay (now : Time) :
    ((base.overlay upper now).unite upper).settle =
      ((base.unite upper).settle.unite upper).settle := rfl

theorem overlay_overlay_eq_iff_settle (first second : Time) :
    (base.overlay upper first).overlay upper second = base.overlay upper first ↔
      ((base.unite upper).settle.unite upper).settle = (base.unite upper).settle := by
  constructor
  · intro same
    exact congrArg content same
  · intro same
    -- The first outcome says this already, so the second time it keeps its time.
    have stamped : (base.unite upper).settle.sameContent (base.overlay upper first) = true :=
      decide_eq_true rfl
    conv_lhs => rw [overlay, settle_unite_overlay, same]
    simp only [stamped, if_true]
    rw [overlay]
    split_ifs <;> rfl

end

theorem settle_unite_settle_unite {base upper : Document} (settled : base.Settled)
    (spelled : upper.WellSpelled) :
    ((base.unite upper).settle.unite upper).settle =
      { (base.unite upper).settle with
        settings := ((base.settings.overlay upper.settings).settle.overlay upper.settings).settle } := by
  have interfaces := Interface.overlayAll_overlayAll settled.interfaces spelled.interfaces
  simp only [settle, unite, Records.layer_layer, Package.overlay_overlay, Machine.overlay_overlay,
    Parameters.layer_layer, interfaces]

theorem settle_unite_settle_unite_eq_iff {base upper : Document} (settled : base.Settled)
    (spelled : upper.WellSpelled) :
    ((base.unite upper).settle.unite upper).settle = (base.unite upper).settle ↔
      Entries.Steady upper.settings.dns ∧ Entries.Steady upper.settings.ntp ∧
        Entries.Steady (Words.split upper.settings.kernelArgs) := by
  have arguments := Words.settle_eq_self_iff.2 settled.kernelArgs
  have dns := Entries.settle_settle_overlay_iff_steady settled.dns spelled.dns
  have ntp := Entries.settle_settle_overlay_iff_steady settled.ntp spelled.ntp
  have kernelArgs := Entries.settle_settle_overlay_iff_steady
    (Words.values_split_of_settle_eq arguments) (Words.wellSpelled_split upper.settings.kernelArgs)
  rw [← Words.settle_settle_overlay_iff] at kernelArgs
  rw [settle_unite_settle_unite settled spelled, Settings.settle_overlay_overlay, ← dns, ← ntp,
    ← kernelArgs]
  simp [settle, unite, Settings.settle, Settings.overlay, Entries.settle_layerDistinct,
    Words.settle_settle]

/-- Laid twice over a settled document, a document comes to what it comes to the first time just if
none of three of its lists retracts a value that the list comes to. In any case only these lists,
and with them the time, can be others. -/
theorem overlay_overlay_eq_iff {base upper : Document} (settled : base.settle = base)
    (spelled : upper.WellSpelled) (first second : Time) :
    let once := base.overlay upper first
    let twice := once.overlay upper second
    (twice = once ↔
      Entries.Steady upper.settings.dns ∧ Entries.Steady upper.settings.ntp ∧
        Entries.Steady (Words.split upper.settings.kernelArgs)) ∧
    twice = { once with
      settings := { once.settings with
        dns := twice.settings.dns
        ntp := twice.settings.ntp
        kernelArgs := twice.settings.kernelArgs }
      changed := twice.changed } := by
  intro once twice
  have fixed := settle_eq_self_iff.1 settled
  constructor
  · rw [← settle_unite_settle_unite_eq_iff fixed spelled]
    exact overlay_overlay_eq_iff_settle base upper first second
  · have content : twice = { ((base.unite upper).settle.unite upper).settle with
        changed := twice.changed } := rfl
    rw [content, settle_unite_settle_unite fixed spelled, Settings.settle_overlay_overlay]
    rfl

theorem overlay_overlay_of_name_server_replaced :
    let base : Document := { settings := { dns := [.plain "8.8.8.8"] } }
    let upper : Document := { settings := { dns := [.retract "8.8.8.8", .plain "9.9.9.9"] } }
    base.settle = base ∧ upper.WellSpelled ∧
      (base.overlay upper ⟨500⟩).overlay upper ⟨900⟩ = base.overlay upper ⟨500⟩ := by
  intro base upper
  have settled : base.settle = base := by decide
  have spelled : upper.WellSpelled := ⟨by simp [upper], by decide, by decide⟩
  exact ⟨settled, spelled, (overlay_overlay_eq_iff settled spelled _ _).1.2 (by decide)⟩

/-- A list that retracts a value before it names it loses the value the second time. -/
theorem exists_overlay_overlay_ne :
    ¬ ∀ (base upper : Document) (first second : Time), base.settle = base → upper.WellSpelled →
      (base.overlay upper first).overlay upper second = base.overlay upper first := by
  intro same
  let upper : Document := { settings := { dns := [.retract "x", .plain "x"] } }
  have spelled : upper.WellSpelled := ⟨by simp [upper], by decide, by decide⟩
  have dns := congrArg (·.settings.dns) (same {} upper ⟨500⟩ ⟨900⟩ (by decide) spelled)
  exact absurd dns (by decide)

end Document
end Appliance
