import Appliance.Document
import Appliance.Document.Overlay
import Appliance.Proofs.Interface
import Appliance.Proofs.Words

/-! Documents whose entries were all read from texts, as every decoded document's are, and documents
that take effect as they are. Settling a document makes it one of the latter, and leaves those as
they are, so nothing is gained by settling twice. -/
namespace Appliance

/-- Is every entry of the document one that was read from a text? -/
structure Document.WellSpelled (doc : Document) : Prop where
  interfaces : ∀ nic ∈ doc.interfaces, nic.WellSpelled
  dns : ∀ e ∈ doc.settings.dns, e.WellSpelled
  ntp : ∀ e ∈ doc.settings.ntp, e.WellSpelled

theorem Document.WellSpelled.of_no_entries {doc : Document} (interfaces : doc.interfaces = [])
    (settings : doc.settings = {}) : doc.WellSpelled where
  interfaces := by simp [interfaces]
  dns := by simp [settings]
  ntp := by simp [settings]

namespace Document

structure Settled (doc : Document) : Prop where
  interfaces : ∀ nic ∈ doc.interfaces, nic.Settled
  dns : Entries.Values doc.settings.dns
  ntp : Entries.Values doc.settings.ntp
  kernelArgs : Words.Settled doc.settings.kernelArgs

theorem settled_settle (doc : Document) : doc.settle.Settled where
  interfaces nic h := by
    obtain ⟨raw, -, rfl⟩ := List.mem_map.1 h
    exact Interface.settled_settle raw
  dns := Entries.settle_values _
  ntp := Entries.settle_values _
  kernelArgs := Words.settle_eq_self_iff.1 (Words.settle_settle _)

theorem Settled.settle_eq {doc : Document} (h : doc.Settled) : doc.settle = doc := by
  have interfaces : doc.interfaces.map (·.settle) = doc.interfaces :=
    (List.map_congr_left fun nic mem => (h.interfaces nic mem).settle_eq).trans (List.map_id _)
  have settings : doc.settings.settle = doc.settings := by
    rw [Settings.settle, h.dns.settle_eq, h.ntp.settle_eq, Words.settle_eq_self_iff.2 h.kernelArgs]
  rw [settle, interfaces, settings]

theorem settle_eq_self_iff {doc : Document} : doc.settle = doc ↔ doc.Settled :=
  ⟨fun h => h ▸ settled_settle doc, Settled.settle_eq⟩

theorem settle_settle (doc : Document) : doc.settle.settle = doc.settle :=
  (settled_settle doc).settle_eq

theorem Settled.unmarked {doc : Document} (h : doc.Settled) : doc.unmarked = true := by
  have plain : ∀ nic ∈ doc.interfaces, ∀ p, Entries.unmarked (nic.ports p) = true :=
    fun nic mem p => List.all_eq_true.2 ((h.interfaces nic mem).openPorts p).plain
  have interfaces : doc.interfaces.all (·.unmarked) = true := by
    refine List.all_eq_true.2 fun nic mem => ?_
    simp only [Interface.unmarked, Bool.and_eq_true]
    exact ⟨⟨⟨plain nic mem .udp, plain nic mem .tcp⟩, plain nic mem .http⟩, plain nic mem .https⟩
  have words := (Words.values_split_of_settle_eq (Words.settle_eq_self_iff.2 h.kernelArgs)).1
  simp only [Document.unmarked, Bool.and_eq_true]
  exact ⟨⟨⟨interfaces, List.all_eq_true.2 h.dns.1⟩, List.all_eq_true.2 h.ntp.1⟩,
    List.all_eq_true.2 words⟩

/-- Settling leads to the settled documents, which are those that it leaves as they are. -/
theorem settle_leads_to_fixed_points (doc : Document) :
    doc.settle.Settled ∧ (doc.settle = doc ↔ doc.Settled) ∧ doc.settle.settle = doc.settle ∧
      doc.settle.unmarked = true :=
  ⟨settled_settle doc, settle_eq_self_iff, settle_settle doc, (settled_settle doc).unmarked⟩

end Document

end Appliance
