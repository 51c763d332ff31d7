import Appliance.Proofs.Document.ClosedPorts
import Appliance.Proofs.Document.Content
import Appliance.Proofs.Document.Text

/-! Documents that have a text. Every document that was read from one does, and what is made by
laying such documents over each other does as well: its entries are taken from theirs, and its
numbers. -/
namespace Appliance

namespace Entries

theorem wellSpelled_settle {base upper : List Entry} (below : ∀ e ∈ base, e.WellSpelled)
    (above : ∀ e ∈ upper, e.WellSpelled) : ∀ e ∈ settle [base, upper], e.WellSpelled := by
  intro entry mem
  have inLists := List.mem_eraseDups.1 (mem_of_mem_retract (List.mem_of_mem_filter mem))
  obtain ⟨entries, list, inList⟩ := List.mem_flatten.1 inLists
  rcases List.mem_pair.1 list with rfl | rfl
  · exact below entry inList
  · exact above entry inList

end Entries

theorem Interface.WellSpelled.settle {nic : Interface} (spelled : nic.WellSpelled) :
    nic.settle.WellSpelled := by
  intro protocol entry mem
  have plain := ((settled_settle nic).openPorts protocol).plain entry mem
  rw [Entry.eq_plain_of_isPlain plain] at mem ⊢
  exact spelled protocol _ (plain_mem_ports_of_settle mem)

theorem Interface.wellSpelled_overlayAll {bases uppers : List Interface}
    (below : ∀ nic ∈ bases, nic.WellSpelled) (above : ∀ nic ∈ uppers, nic.WellSpelled) :
    ∀ nic ∈ overlayAll bases uppers, nic.WellSpelled := by
  induction bases, uppers using overlayAll.induct with
  | case1 uppers => exact above
  | case2 bases _ =>
    rw [overlayAll_nil]
    exact below
  | case3 base bases upper uppers ih =>
    obtain ⟨firstBelow, below⟩ := List.forall_mem_cons.1 below
    obtain ⟨firstAbove, above⟩ := List.forall_mem_cons.1 above
    exact List.forall_mem_cons.2 ⟨firstBelow.overlay firstAbove, ih below above⟩

namespace Document

structure Writable (doc : Document) : Prop where
  spelled : doc.WellSpelled
  inodes : doc.machine.inodes.toNat < Toml.limit

variable {doc base upper : Document}

theorem writable_of_decode {text : String} (decoded : decode text = .ok doc) : doc.Writable :=
  ⟨wellSpelled_of_decode decoded, inodes_lt_of_decode decoded⟩

namespace WellSpelled

theorem overlay (below : base.WellSpelled) (above : upper.WellSpelled) (now : Time) :
    (base.overlay upper now).WellSpelled where
  interfaces nic mem := by
    obtain ⟨raw, inUnion, rfl⟩ := List.mem_map.1 mem
    exact (Interface.wellSpelled_overlayAll below.interfaces above.interfaces raw inUnion).settle
  dns := by
    have settled : (base.overlay upper now).settings.dns =
        Entries.settle [base.settings.dns, upper.settings.dns] := Entries.settle_layerDistinct _
    rw [settled]
    exact Entries.wellSpelled_settle below.dns above.dns
  ntp := by
    have settled : (base.overlay upper now).settings.ntp =
        Entries.settle [base.settings.ntp, upper.settings.ntp] := Entries.settle_layerDistinct _
    rw [settled]
    exact Entries.wellSpelled_settle below.ntp above.ntp

end WellSpelled

theorem Writable.overlay (below : base.Writable) (above : upper.Writable) (now : Time) :
    (base.overlay upper now).Writable where
  spelled := below.spelled.overlay above.spelled now
  inodes := by
    change (override base.machine.inodes upper.machine.inodes).toNat < Toml.limit
    rw [override]
    split_ifs
    · exact below.inodes
    · exact above.inodes

theorem settled_overlay (base upper : Document) (now : Time) : (base.overlay upper now).Settled :=
  have settled := settled_settle (base.unite upper)
  ⟨settled.interfaces, settled.dns, settled.ntp, settled.kernelArgs⟩

/-- Is the document one that is loaded from its text as it is? -/
structure Storable (doc : Document) : Prop where
  writable : doc.Writable
  settled : doc.Settled

theorem Storable.exists_toToml (storable : doc.Storable) :
    ∃ text, doc.toToml = .ok text ∧ decode text = .ok doc.content ∧
      doc.content.settle = doc.content := by
  obtain ⟨text, written, decoded⟩ :=
    Document.exists_toToml storable.writable.spelled storable.writable.inodes
  exact ⟨text, written, decoded, congrArg content storable.settled.settle_eq⟩

end Document
end Appliance
