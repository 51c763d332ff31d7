import Appliance.Proofs.Document.Settled
import Appliance.Proofs.Interface.Overlay

/-! The interfaces of a document laid over another one, position by position. Where only one of the
two has an interface, the other one counts as having an interface without settings, so one rule says
what becomes of every position. Laying the same interfaces over the outcome again changes none. -/
namespace Appliance

namespace Interface

def outcome (bases uppers : List Interface) : List Interface :=
  (overlayAll bases uppers).map (·.settle)

/-- The interface in a position. Behind the last one stand interfaces without settings. -/
def inPosition (nics : List Interface) (position : Nat) : Interface := nics[position]?.getD {}

section Position

variable (bases uppers : List Interface) (position : Nat)

theorem length_outcome : (outcome bases uppers).length = max bases.length uppers.length := by
  induction bases, uppers using overlayAll.induct with
  | case1 uppers => simp [outcome, overlayAll]
  | case2 bases _ => simp [outcome, overlayAll_nil]
  | case3 base bases upper uppers ih =>
    simp only [outcome, overlayAll, List.length_map, List.length_cons] at ih ⊢
    omega

theorem getElem?_outcome :
    (outcome bases uppers)[position]? =
      (Option.merge overlay bases[position]? uppers[position]?).map (·.settle) := by
  rw [outcome, List.getElem?_map, getElem?_overlayAll]

end Position

variable {bases uppers : List Interface} {position : Nat}

theorem getElem?_outcome_of_lt (below : ∀ nic ∈ bases, nic.WellSpelled)
    (above : ∀ nic ∈ uppers, nic.WellSpelled) (listed : position < max bases.length uppers.length) :
    (outcome bases uppers)[position]? =
      some ((inPosition bases position).overlay (inPosition uppers position)).settle := by
  rw [getElem?_outcome, inPosition, inPosition]
  cases lower : bases[position]? with
  | none =>
    cases upper : uppers[position]? with
    | none =>
      rw [List.getElem?_eq_none_iff] at lower upper
      omega
    | some nic =>
      exact congrArg some (empty_overlay_settle (above nic (List.mem_of_getElem? upper))).symm
  | some base =>
    cases upper : uppers[position]? with
    | none =>
      exact congrArg some (overlay_empty_settle (below base (List.mem_of_getElem? lower))).symm
    | some nic => rfl

theorem outcome_foldl_replicate
    (again : outcome (outcome bases uppers) uppers = outcome bases uppers)
    (times : Nat) :
    (List.replicate times uppers).foldl outcome (outcome bases uppers) = outcome bases uppers := by
  induction times with
  | zero => rfl
  | succ times ih => rw [List.replicate_succ, List.foldl_cons, again, ih]

/-- Interfaces laid over settled ones may be laid over the outcome once more, or any number of
times: it is settled, and stays as it is. -/
theorem outcome_outcome (settled : bases.map (·.settle) = bases)
    (spelled : ∀ nic ∈ uppers, nic.WellSpelled) :
    (outcome bases uppers).map (·.settle) = outcome bases uppers ∧
      outcome (outcome bases uppers) uppers = outcome bases uppers ∧
      ∀ times, (List.replicate times uppers).foldl outcome (outcome bases uppers) =
        outcome bases uppers := by
  have fixed : ∀ nic ∈ bases, nic.Settled := by
    rw [← settled]
    intro nic mem
    obtain ⟨raw, -, rfl⟩ := List.mem_map.1 mem
    exact settled_settle raw
  have again : outcome (outcome bases uppers) uppers = outcome bases uppers :=
    overlayAll_overlayAll fixed spelled
  refine ⟨?_, again, outcome_foldl_replicate again⟩
  rw [outcome, List.map_map]
  exact List.map_congr_left fun nic _ => (settled_settle nic).settle_eq

/-- One interface is switched off by a spelling that settling rewrites, one asks for its address
from then on, and one stands over nothing. -/
theorem outcome_outcome_of_other_addressing :
    let static : Interface :=
      { ip := "10.0.0.2", mask := "255.0.0.0", tcp := [.plain "22", .plain "80"]
        http := [.plain "8080"] }
    let uppers : List Interface :=
      [{ ip := "disabled", tcp := [.plain "443"] },
        { ip := "dhcp", gateway := "10.0.0.1", tcp := [.retract "80", .plain "80", .exclude "8080"]
          http := [.plain "8080", .plain "81"] },
        { ip := "!", udp := [.plain "53"] }]
    let once := outcome [static, static] uppers
    [static, static].map (·.settle) = [static, static] ∧ (∀ nic ∈ uppers, nic.WellSpelled) ∧
      once.map (·.settle) = once ∧ outcome once uppers = once ∧
      [uppers, uppers, uppers].foldl outcome once = once := by
  intro static uppers once
  have asIs : static.Settled := by
    refine ⟨fun protocol => ?_, fun off => absurd off (by decide), by decide⟩
    cases protocol <;> exact ⟨by decide, by decide, by decide⟩
  have settled : [static, static].map (·.settle) = [static, static] := by
    rw [List.map_cons, List.map_singleton, asIs.settle_eq]
  have spelled : ∀ nic ∈ uppers, nic.WellSpelled := by
    intro nic mem protocol
    simp only [uppers, List.mem_cons, List.not_mem_nil, or_false] at mem
    rcases mem with rfl | rfl | rfl <;> cases protocol <;> decide
  obtain ⟨fixed, again, run⟩ := outcome_outcome settled spelled
  exact ⟨settled, spelled, fixed, again, run 3⟩

end Interface

namespace Document

open Interface (inPosition)

variable {base upper : Document}

theorem getElem?_interfaces_overlay (base upper : Document) (now : Time) (position : Nat) :
    (base.overlay upper now).interfaces[position]? =
      (Option.merge Interface.overlay base.interfaces[position]? upper.interfaces[position]?).map
        (·.settle) :=
  Interface.getElem?_outcome _ _ _

/-- Every interface of the outcome comes from those in its position and from no other ones, and none
is lost. One that stands alone in its position is settled by itself. -/
theorem interfaces_overlay_in_position (below : base.WellSpelled) (above : upper.WellSpelled)
    (now : Time) :
    let nics := (base.overlay upper now).interfaces
    nics.length = max base.interfaces.length upper.interfaces.length ∧
    (∀ position < nics.length, nics[position]? =
      some ((inPosition base.interfaces position).overlay
        (inPosition upper.interfaces position)).settle) ∧
    (∀ position, upper.interfaces.length ≤ position →
      nics[position]? = base.interfaces[position]?.map (·.settle)) ∧
    (∀ position, base.interfaces.length ≤ position →
      nics[position]? = upper.interfaces[position]?.map (·.settle)) ∧
    ∀ (otherBase otherUpper : Document) (otherNow : Time) (position : Nat),
      otherBase.interfaces[position]? = base.interfaces[position]? →
      otherUpper.interfaces[position]? = upper.interfaces[position]? →
      (otherBase.overlay otherUpper otherNow).interfaces[position]? = nics[position]? := by
  intro nics
  have found : ∀ position, nics[position]? = _ := getElem?_interfaces_overlay base upper now
  have length : nics.length = max base.interfaces.length upper.interfaces.length :=
    Interface.length_outcome _ _
  refine ⟨length, fun position inside => ?_, fun position behind => ?_, fun position behind => ?_,
    fun otherBase otherUpper otherNow position sameBase sameUpper => ?_⟩
  · exact Interface.getElem?_outcome_of_lt below.interfaces above.interfaces (length ▸ inside)
  · rw [found, List.getElem?_eq_none behind, Option.merge_none_right]
  · rw [found, List.getElem?_eq_none behind, Option.merge_none_left]
  · rw [getElem?_interfaces_overlay, sameBase, sameUpper, found]

theorem interfaces_overlay_in_position_of_one_and_two :
    let lower : Interface :=
      { ip := "dhcp", tcp := [.plain "22", .exclude "80"], http := [.plain "80"] }
    let higher : Interface := { tcp := [.retract "22", .retract "!80"] }
    let single : Interface :=
      { ip := "10.0.0.2", tcp := [.plain "81", .exclude "81"], https := [.plain "81", .plain "443"] }
    let base : Document := { interfaces := [lower] }
    let upper : Document := { interfaces := [higher, single] }
    let other : Document := { interfaces := [{ ip := "!", udp := [.plain "53"] }] }
    let nics := (base.overlay upper ⟨500⟩).interfaces
    base.WellSpelled ∧ upper.WellSpelled ∧ nics.length = 2 ∧
      nics[0]? = some (lower.overlay higher).settle ∧ nics[1]? = some single.settle ∧
      (other.overlay upper ⟨900⟩).interfaces[1]? = nics[1]? := by
  intro lower higher single base upper other nics
  have below : base.WellSpelled := by
    refine ⟨fun nic mem protocol => ?_, by decide, by decide⟩
    obtain rfl := List.mem_singleton.1 mem
    cases protocol <;> decide
  have above : upper.WellSpelled := by
    refine ⟨fun nic mem protocol => ?_, by decide, by decide⟩
    rcases List.mem_pair.1 mem with rfl | rfl <;> cases protocol <;> decide
  obtain ⟨length, paired, -, alone, others⟩ := interfaces_overlay_in_position below above ⟨500⟩
  have inside : 0 < nics.length := by
    rw [length]
    decide
  exact ⟨below, above, length, paired 0 inside, alone 1 (Nat.le_refl 1),
    others other upper ⟨900⟩ 1 rfl rfl⟩

end Document
end Appliance
