import Appliance.Proofs.Document.Content
import Appliance.Proofs.Document.Settled
import Appliance.Proofs.Interface.Overlay
import Appliance.Proofs.Parameters
import Appliance.Proofs.Records

/-! A document laid over itself. Every list stands twice in the union, and what the second copy
retracts from the first one it also retracts from itself, so that the same values are left. -/
namespace Appliance

namespace Entries

theorem mem_retract_append_self {entry : Entry} {entries : List Entry} :
    entry ∈ retract (entries ++ entries) ↔ entry ∈ retract entries :=
  ⟨fun h => (mem_retract_or_of_mem_append h).elim id id,
    fun h => (retract_suffix entries entries).subset h⟩

theorem settle_pair_self (entries : List Entry) : settle [entries, entries] = settle [entries] := by
  have nothing : entries.eraseDups.filter (· ∉ entries) = [] :=
    List.filter_eq_nil_iff.2 fun e he => by simpa using List.mem_eraseDups.1 he
  have once : (entries ++ entries).eraseDups = entries.eraseDups := by
    rw [eraseDups_append_eq, nothing, List.append_nil]
  simp [settle, layerDistinct, once]

end Entries

theorem Words.settle_pair_self (arguments : String) :
    settle [arguments, arguments] = settle [arguments] := by
  rw [settle_eq_settle_iff]
  exact Entries.settle_pair_self _

theorem Parameters.layer_self (map : Parameters) : layer [map, map] = map := by
  refine eq_of_pairs ?_
  rw [pairs_layer]
  exact Ascending.foldl_insert_eq_self map.ordered fun _ hp => hp

namespace Interface

open Entries

theorem overlay_self_settle {nic : Interface} (spelled : nic.WellSpelled) :
    (nic.overlay nic).settle = nic.settle := by
  refine settle_congr (spelled.overlay spelled) spelled ?rest fun protocol e => ?ports
  case rest => simp [withoutPorts]
  -- The lists are joined after their retractions have acted, and then retracted once more.
  case ports => rw [ports_overlay, retract_retract, mem_retract_append_self]

theorem overlayAll_self (nics : List Interface) :
    overlayAll nics nics = nics.map fun nic => nic.overlay nic := by
  induction nics with
  | nil => rfl
  | cons nic nics ih => rw [overlayAll, ih, List.map_cons]

end Interface

theorem Package.overlay_self (package : Package) : package.overlay package = package := by
  simp [overlay]

theorem Machine.overlay_self (machine : Machine) : machine.overlay machine = machine := by
  simp [overlay]

theorem Settings.overlay_self_settle (settings : Settings) :
    (settings.overlay settings).settle = settings.settle := by
  simp only [settle, overlay, Entries.settle_layerDistinct, Words.settle_settle,
    Entries.settle_pair_self, Words.settle_pair_self, override_self]

namespace Document

variable {doc : Document}

theorem settle_unite_self (spelled : doc.WellSpelled) :
    (doc.unite doc).settle = doc.settle.content := by
  have interfaces : (Interface.overlayAll doc.interfaces doc.interfaces).map (·.settle) =
      doc.interfaces.map (·.settle) := by
    rw [Interface.overlayAll_self, List.map_map]
    exact List.map_congr_left fun nic mem =>
      Interface.overlay_self_settle (spelled.interfaces nic mem)
  simp only [settle, unite, content, Records.layer_self, Package.overlay_self, Machine.overlay_self,
    Parameters.layer_self, Settings.overlay_self_settle, interfaces]

/-- Laid over itself a document is settled. It keeps its time if it was settled before, and is then
left as it is; otherwise its content has changed now. -/
theorem overlay_itself_settles (spelled : doc.WellSpelled) (now : Time) :
    (doc.overlay doc now).content = doc.settle.content ∧
    (doc.settle.content = doc.content → doc.overlay doc now = doc) ∧
    (doc.settle.content ≠ doc.content → (doc.overlay doc now).changed = some now) := by
  have united := settle_unite_self spelled
  refine ⟨united, fun settled => overlay_eq_upper (united.trans settled) now, fun raw => ?_⟩
  have new : (doc.unite doc).settle.sameContent doc = false := by
    rw [← Bool.not_eq_true, sameContent_iff, united]
    exact raw
  simp [overlay, new]

theorem overlay_itself_of_marks :
    let nic : Interface := { ip := "dhcp", tcp := [.retract "80", .plain "80", .exclude "8080"] }
    let raw : Document :=
      { interfaces := [nic], settings := { dns := [.plain "x", .retract "x", .plain "y"] } }
    let done : Document := { settings := { dns := [.plain "y"] }, changed := some ⟨3⟩ }
    raw.WellSpelled ∧ (raw.overlay raw ⟨9⟩).content = raw.settle.content ∧
      (raw.overlay raw ⟨9⟩).changed = some ⟨9⟩ ∧
      done.WellSpelled ∧ done.overlay done ⟨9⟩ = done := by
  intro nic raw done
  have ports : nic.WellSpelled := by
    intro p
    cases p <;> decide
  have rawSpelled : raw.WellSpelled := ⟨by simpa [raw] using ports, by decide, by decide⟩
  have doneSpelled : done.WellSpelled := ⟨by simp [done], by decide, by decide⟩
  have marked : raw.settle.content ≠ raw.content := fun same =>
    absurd (congrArg (·.settings.dns) same) (by decide)
  have ⟨content, _, stamped⟩ := overlay_itself_settles rawSpelled ⟨9⟩
  exact ⟨rawSpelled, content, stamped marked, doneSpelled,
    (overlay_itself_settles doneSpelled ⟨9⟩).2.1 (by decide)⟩

end Document
end Appliance
