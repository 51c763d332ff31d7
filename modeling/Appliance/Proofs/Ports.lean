import Appliance.Interface
import Appliance.Proofs.Entries.Values
import Appliance.Proofs.Text.ByteOrder
import Mathlib.Data.List.Destutter
import Mathlib.Data.List.Sort

/-! What settling makes of port lists: which ports a list leaves open, which ones it closes for the
protocols that are carried by its own, and that a list of open ports is left as it is. -/
namespace Appliance

namespace Entries

/-- Is the list one of open ports: values in ascending order of their bytes, and none empty? -/
structure OpenPorts (ports : List Entry) : Prop where
  plain : ∀ e ∈ ports, e.isPlain = true
  named : ∀ e ∈ ports, e.spelling ≠ ""
  ordered : ports.Pairwise fun a b => Text.bytes a.spelling < Text.bytes b.spelling

theorem OpenPorts.nil : OpenPorts [] := ⟨by simp, by simp, List.Pairwise.nil⟩

theorem mem_opened {entry : Entry} {ports : List Entry} :
    entry ∈ opened ports ↔ entry ∈ exclude (retract ports) ∧ entry ≠ .plain "" := by
  simp [opened]

theorem plain_mem_opened {port : String} {ports : List Entry} :
    .plain port ∈ opened ports ↔
      port ≠ "" ∧ .plain port ∈ retract ports ∧ .exclude port ∉ retract ports := by
  rw [mem_opened, mem_exclude]
  simp [Entry.isPlain, Entry.text, and_comm]

theorem isPlain_of_mem_opened {ports : List Entry} : ∀ e ∈ opened ports, e.isPlain = true :=
  fun _ he => (mem_exclude.1 (mem_opened.1 he).1).2.1

theorem OpenPorts.of_ascending {ports : List Entry} (plain : ∀ e ∈ ports, e.isPlain = true)
    (named : .plain "" ∉ ports) (distinct : ports.Nodup)
    (ascending : ports.Pairwise fun a b => a.spelling ≤ b.spelling) : OpenPorts ports where
  plain := plain
  named e he empty := by
    rw [Entry.spelling_of_isPlain (plain e he)] at empty
    rw [Entry.eq_plain_of_isPlain (plain e he), empty] at he
    exact named he
  ordered := by
    have spellings := List.pairwise_map.1 (nodup_spelling_of_isPlain plain distinct)
    refine (ascending.and spellings).imp fun ⟨le, ne⟩ => (Text.bytes_lt_bytes_iff _ _).2 ?_
    exact String.not_le.1 fun ge => ne (String.le_antisymm le ge)

theorem ascending_mergeSort (ports : List Entry) :
    (ports.mergeSort fun a b => a.spelling ≤ b.spelling).Pairwise
      fun a b => a.spelling ≤ b.spelling := by
  refine List.Pairwise.imp of_decide_eq_true (List.pairwise_mergeSort ?_ ?_ _)
  · intro a b c
    simpa using String.le_trans
  · intro a b
    simpa using String.le_total a.spelling b.spelling

theorem openPorts_opened (ports : List Entry) : OpenPorts (opened ports) :=
  .of_ascending isPlain_of_mem_opened (fun empty => (mem_opened.1 empty).2 rfl)
    (nodup_eraseDups _) ((ascending_mergeSort _).sublist (eraseDups_sublist _))

theorem OpenPorts.isRetraction {ports : List Entry} (h : OpenPorts ports) :
    ∀ e ∈ ports, e.isRetraction = false :=
  fun e he => Entry.isRetraction_of_isPlain (h.plain e he)

theorem OpenPorts.nodup {ports : List Entry} (h : OpenPorts ports) : ports.Nodup := by
  refine List.Pairwise.imp (fun {a b} less => ?_) h.ordered
  rintro rfl
  exact List.lt_irrefl _ less

theorem OpenPorts.opened_eq {ports : List Entry} (h : OpenPorts ports) : opened ports = ports := by
  have named : ports.filter (· ≠ .plain "") = ports := by
    refine List.filter_eq_self.2 fun e he => ?_
    have : e ≠ .plain "" := fun same => h.named e he (same ▸ rfl)
    simpa using this
  have sorted : ports.Pairwise fun a b => decide (a.spelling ≤ b.spelling) = true :=
    h.ordered.imp fun less =>
      decide_eq_true (String.not_lt.1 (String.lt_asymm ((Text.bytes_lt_bytes_iff _ _).1 less)))
  rw [opened, retract_eq_self h.isRetraction, exclude_eq_self h.plain, named,
    List.mergeSort_of_pairwise sorted, eraseDups_eq_self h.nodup]

theorem OpenPorts.ext {as bs : List Entry} (ha : OpenPorts as) (hb : OpenPorts bs)
    (h : ∀ port, .plain port ∈ as ↔ .plain port ∈ bs) : as = bs := by
  have : Std.Irrefl fun a b : Entry => Text.bytes a.spelling < Text.bytes b.spelling :=
    ⟨fun a => List.lt_irrefl (Text.bytes a.spelling)⟩
  have : Std.Antisymm fun a b : Entry => Text.bytes a.spelling < Text.bytes b.spelling :=
    ⟨fun _ _ less greater => absurd greater (List.lt_asymm less)⟩
  refine List.Pairwise.eq_of_mem_iff ha.ordered hb.ordered fun e => ?_
  have marked (notPlain : e.isPlain = false) : e ∈ as ↔ e ∈ bs :=
    iff_of_false (fun mem => Bool.false_ne_true (notPlain.symm.trans (ha.plain e mem)))
      fun mem => Bool.false_ne_true (notPlain.symm.trans (hb.plain e mem))
  cases e with
  | plain port => exact h port
  | exclude port => exact marked rfl
  | retract port => exact marked rfl

section InOrder

/-- A list in ascending order, without empty ports, of equal neighbours only the first. -/
def inOrder (ports : List Entry) : List Entry :=
  ((ports.mergeSort fun a b => a.spelling ≤ b.spelling).filter (· ≠ .plain "")).destutter (· ≠ ·)

variable {ports : List Entry} (spelled : ∀ e ∈ ports, e.WellSpelled)
include spelled

-- Entries that share a spelling are equal, so in order they are neighbours and all repeats go.
theorem inOrder_eq_dedup : inOrder ports =
    ((ports.mergeSort fun a b => a.spelling ≤ b.spelling).filter (· ≠ .plain "")).dedup := by
  let below (a b : Entry) : Prop := a.spelling ≤ b.spelling ∧ (a.spelling = b.spelling → a = b)
  have : Std.Antisymm below := ⟨fun _ _ ⟨le, same⟩ ⟨ge, _⟩ => same (String.le_antisymm le ge)⟩
  have listed {e : Entry} (he : e ∈ ports.mergeSort fun a b => a.spelling ≤ b.spelling) :
      e.WellSpelled := spelled e (List.mem_mergeSort.1 he)
  have ascending : (ports.mergeSort fun a b => a.spelling ≤ b.spelling).Pairwise below :=
    (ascending_mergeSort ports).imp_of_mem fun ha hb le =>
      ⟨le, (listed ha).eq_of_spelling (listed hb)⟩
  exact (ascending.filter _).destutter_eq_dedup

theorem mem_inOrder {entry : Entry} :
    entry ∈ inOrder ports ↔ entry ∈ ports ∧ entry ≠ .plain "" := by
  simp [inOrder_eq_dedup spelled]

theorem openPorts_exclude_inOrder : OpenPorts (exclude (inOrder ports)) := by
  have sublist : (exclude (inOrder ports)).Sublist
      (ports.mergeSort fun a b => a.spelling ≤ b.spelling) :=
    (List.filter_sublist.trans (List.destutter_sublist _ _)).trans List.filter_sublist
  refine .of_ascending (fun e he => (mem_exclude.1 he).2.1) (fun empty => ?_) ?_
    ((ascending_mergeSort ports).sublist sublist)
  · exact ((mem_inOrder spelled).1 (mem_exclude.1 empty).1).2 rfl
  · rw [inOrder_eq_dedup spelled]
    exact (List.nodup_dedup _).sublist List.filter_sublist

/-- Exclusions may as well be carried out on the list that is already in order. -/
theorem opened_eq_exclude_inOrder : opened ports = exclude (inOrder (retract ports)) := by
  have left : ∀ e ∈ retract ports, e.WellSpelled := fun e he => spelled e (mem_of_mem_retract he)
  refine (openPorts_opened ports).ext (openPorts_exclude_inOrder left) fun port => ?_
  rw [plain_mem_opened, mem_exclude, mem_inOrder left, mem_inOrder left]
  simp [Entry.isPlain, Entry.text]
  tauto

end InOrder

end Entries
end Appliance
