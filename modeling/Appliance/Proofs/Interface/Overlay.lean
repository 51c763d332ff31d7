import Appliance.Document.Overlay
import Appliance.Proofs.Interface

/-! Interfaces laid over each other and settled: which ports stay open, and that an interface which
was laid over another one changes nothing when it is laid over the outcome again. -/
namespace Appliance

section Override

variable {α : Type} [DecidableEq α] [Inhabited α]

@[simp] theorem override_override (base upper : α) :
    override (override base upper) upper = override base upper := by
  by_cases unset : upper = default <;> simp [override, unset]

@[simp] theorem override_default (upper : α) : override default upper = upper := by
  by_cases unset : upper = default <;> simp [override, unset]

@[simp] theorem override_of_default (base : α) : override base default = base := if_pos rfl

@[simp] theorem override_self (value : α) : override value value = value := ite_self value

end Override

namespace Interface

open Entries

section Fields

variable (base upper : Interface)

@[simp] theorem ip_overlay : (base.overlay upper).ip = override base.ip upper.ip := rfl

@[simp] theorem mask_overlay : (base.overlay upper).mask = override base.mask upper.mask := rfl

@[simp] theorem gateway_overlay :
    (base.overlay upper).gateway = override base.gateway upper.gateway := rfl

@[simp] theorem mtu_overlay : (base.overlay upper).mtu = override base.mtu upper.mtu := rfl

@[simp] theorem disableTso_overlay :
    (base.overlay upper).disableTso = override base.disableTso upper.disableTso := rfl

@[simp] theorem tcpdump_overlay :
    (base.overlay upper).tcpdump = override base.tcpdump upper.tcpdump := rfl

end Fields

theorem ports_overlay (base upper : Interface) (protocol : Protocol) :
    (base.overlay upper).ports protocol =
      retract (base.ports protocol ++ upper.ports protocol) := by
  cases protocol <;> simp [overlay, ports, layer]

theorem closedBelow_overlay {base upper : Interface} (settled : ∀ p, OpenPorts (base.ports p))
    (protocol : Protocol) :
    (base.overlay upper).closedBelow protocol = upper.closedBelow protocol := by
  have tcp := settled .tcp
  have distinct := nodup_spelling_of_isPlain tcp.plain tcp.nodup
  have below : ((base.ports .tcp).filter (!withdrawn · (upper.ports .tcp))).filterMap
      (·.excluded?) = [] := by
    refine List.filterMap_eq_nil_iff.2 fun e he => ?_
    rw [Entry.eq_plain_of_isPlain (tcp.plain e (List.mem_filter.1 he).1)]
    rfl
  have excluded : closed ((base.overlay upper).ports .tcp) = closed (upper.ports .tcp) := by
    rw [ports_overlay, closed, retract_retract, retract_append tcp.isRetraction distinct,
      List.filterMap_append, below, List.nil_append, closed]
  cases protocol with
  | udp | tcp => rfl
  | http | https => exact excluded

theorem plain_mem_ports_settle_overlay {base upper : Interface}
    (settled : ∀ p, OpenPorts (base.ports p)) (protocol : Protocol) (port : String) :
    .plain port ∈ (base.overlay upper).settle.ports protocol ↔
      (base.overlay upper).addressing ≠ .disabled ∧ port ≠ "" ∧
      port ∉ upper.closedBelow protocol ∧ .exclude port ∉ retract (upper.ports protocol) ∧
      (.plain port ∈ base.ports protocol ∧
          withdrawn (.plain port) (upper.ports protocol) = false ∨
        .plain port ∈ retract (upper.ports protocol)) := by
  have ports := settled protocol
  have distinct := nodup_spelling_of_isPlain ports.plain ports.nodup
  have notBelow : Entry.exclude port ∉ base.ports protocol := fun mem => by
    simpa [Entry.isPlain] using ports.plain _ mem
  have unmarked : retract (close (upper.closedBelow protocol)
      (retract (base.ports protocol ++ upper.ports protocol))) =
      close (upper.closedBelow protocol)
        (retract (base.ports protocol ++ upper.ports protocol)) :=
    retract_eq_self fun e he => retract_no_retraction _ e (List.mem_filter.1 he).1
  rw [ports_settle]
  split_ifs with off
  · simp [off]
  · rw [plain_mem_opened, closedBelow_overlay settled, ports_overlay, unmarked, plain_mem_close,
      exclude_mem_close, retract_append ports.isRetraction distinct]
    simp [off, notBelow]
    tauto

theorem addressing_overlay_overlay (base upper : Interface) :
    ((base.overlay upper).settle.overlay upper).addressing = (base.overlay upper).addressing := by
  by_cases off : (base.overlay upper).addressing = .disabled
  · have spelled := (addressing_eq_disabled_iff _).1 off
    rw [off, addressing_eq_disabled_iff]
    by_cases unset : upper.ip = ""
    · exact Or.inl (by simp [override, off, unset])
    · simpa [override, off, unset] using spelled
  · exact addressing_congr (by simp [off])

/-- Laying the same interface over the outcome again changes nothing. -/
theorem overlay_overlay {base upper : Interface} (settled : ∀ p, OpenPorts (base.ports p)) :
    ((base.overlay upper).settle.overlay upper).settle = (base.overlay upper).settle := by
  have addressing := addressing_overlay_overlay base upper
  refine eq_of_ports ?_ ?_ ?_ (fun protocol => ?_) ?_ ?_ ?_
  · rw [ip_settle, ip_settle, addressing]
    split_ifs with off
    · rfl
    · simp [off]
  · rw [mask_settle, mask_settle, addressing]
    split_ifs with static
    · simp [static]
    · rfl
  · rw [gateway_settle, gateway_settle, addressing]
    split_ifs with static
    · simp [static]
    · rfl
  · have once := (settled_settle (base.overlay upper)).openPorts
    have twice := (settled_settle ((base.overlay upper).settle.overlay upper)).openPorts protocol
    refine twice.ext (once protocol) fun port => ?_
    rw [plain_mem_ports_settle_overlay once, plain_mem_ports_settle_overlay settled, addressing]
    tauto
  · simp
  · simp
  · simp

theorem WellSpelled.overlay {base upper : Interface} (below : base.WellSpelled)
    (above : upper.WellSpelled) : (base.overlay upper).WellSpelled := by
  intro protocol entry mem
  rw [ports_overlay] at mem
  rcases List.mem_append.1 (mem_of_mem_retract mem) with inBase | inUpper
  · exact below protocol entry inBase
  · exact above protocol entry inUpper

@[simp] theorem ports_empty (protocol : Protocol) : ports {} protocol = [] := by
  cases protocol <;> rfl

theorem wellSpelled_empty : WellSpelled {} := fun protocol => by simp

theorem openPorts_empty (protocol : Protocol) : OpenPorts (ports {} protocol) := by
  rw [ports_empty]
  exact OpenPorts.nil

theorem empty_overlay_settle {nic : Interface} (spelled : nic.WellSpelled) :
    (overlay {} nic).settle = nic.settle := by
  refine settle_congr (wellSpelled_empty.overlay spelled) spelled ?rest fun protocol e => ?ports
  case rest =>
    simp only [withoutPorts, overlay, mk.injEq, true_and]
    and_intros <;> exact override_default _
  case ports => rw [ports_overlay, ports_empty, List.nil_append, retract_retract]

theorem overlay_empty_settle {nic : Interface} (spelled : nic.WellSpelled) :
    (nic.overlay {}).settle = nic.settle := by
  refine settle_congr (spelled.overlay wellSpelled_empty) spelled ?rest fun protocol e => ?ports
  case rest =>
    simp only [withoutPorts, overlay, mk.injEq, true_and]
    and_intros <;> exact override_of_default _
  case ports => rw [ports_overlay, ports_empty, List.append_nil, retract_retract]

theorem overlayAll_nil (bases : List Interface) : overlayAll bases [] = bases := by
  cases bases <;> rfl

theorem getElem?_overlayAll (bases uppers : List Interface) (position : Nat) :
    (overlayAll bases uppers)[position]? =
      Option.merge overlay bases[position]? uppers[position]? := by
  induction bases, uppers using overlayAll.induct generalizing position with
  | case1 uppers => cases h : uppers[position]? <;> simp [overlayAll, h]
  | case2 bases _ => cases h : bases[position]? <;> simp [overlayAll_nil, h]
  | case3 base bases upper uppers ih =>
    cases position with
    | zero => rfl
    | succ position => simpa [overlayAll] using ih position

theorem merge_overlay_merge {base upper : Option Interface} (settled : ∀ nic ∈ base, nic.Settled)
    (spelled : ∀ nic ∈ upper, nic.WellSpelled) :
    (Option.merge overlay ((Option.merge overlay base upper).map (·.settle)) upper).map (·.settle) =
      (Option.merge overlay base upper).map (·.settle) := by
  cases base with
  | none =>
    cases upper with
    | none => rfl
    | some upper =>
      have alone := empty_overlay_settle (spelled upper rfl)
      have again : ((overlay {} upper).settle.overlay upper).settle = (overlay {} upper).settle :=
        overlay_overlay openPorts_empty
      rw [alone] at again
      exact congrArg some again
  | some base =>
    cases upper with
    | none => exact congrArg some (settled_settle base).settle_eq
    | some upper => exact congrArg some (overlay_overlay (settled base rfl).openPorts)

theorem overlayAll_overlayAll {bases uppers : List Interface}
    (settled : ∀ nic ∈ bases, nic.Settled) (spelled : ∀ nic ∈ uppers, nic.WellSpelled) :
    (overlayAll ((overlayAll bases uppers).map (·.settle)) uppers).map (·.settle) =
      (overlayAll bases uppers).map (·.settle) := by
  refine List.ext_getElem? fun position => ?_
  simp only [List.getElem?_map, getElem?_overlayAll]
  exact merge_overlay_merge (fun nic found => settled nic (List.mem_of_getElem? found))
    fun nic found => spelled nic (List.mem_of_getElem? found)

end Interface
end Appliance
