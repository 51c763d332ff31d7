import Appliance.Proofs.Interface
import Mathlib.Data.List.Induction

/-! Port lists settled one protocol at a time. After any run of such turns every list is known from
the lists at the start: it is settled if its protocol has had a turn, and it has lost what TCP
excludes if TCP has had one. The two commute, so nothing hangs on the order of the turns. -/
namespace Appliance

namespace Entries

variable {ports : List Entry}

theorem OpenPorts.close (h : OpenPorts ports) (values : List String) :
    OpenPorts (close values ports) where
  plain e he := h.plain e (List.mem_filter.1 he).1
  named e he := h.named e (List.mem_filter.1 he).1
  ordered := h.ordered.sublist List.filter_sublist

theorem opened_opened (ports : List Entry) : opened (opened ports) = opened ports :=
  (openPorts_opened ports).opened_eq

theorem closed_opened (ports : List Entry) : closed (opened ports) = [] :=
  closed_of_isPlain isPlain_of_mem_opened

theorem mem_of_mem_opened {entry : Entry} (h : entry ∈ opened ports) : entry ∈ ports :=
  mem_of_mem_retract (mem_exclude.1 (mem_opened.1 h).1).1

theorem opened_close (spelled : ∀ e ∈ ports, e.WellSpelled) (values : List String) :
    opened (close values ports) = close values (opened ports) := by
  refine (openPorts_opened _).ext ((openPorts_opened ports).close values) fun port => ?_
  rw [plain_mem_opened_close spelled, plain_mem_close, plain_mem_opened]
  tauto

end Entries

namespace Interface

open Entries

variable {nic : Interface}

theorem ports_settleProtocol (nic : Interface) (turn protocol : Protocol) :
    (nic.settleProtocol turn).ports protocol =
      if protocol = turn then opened (nic.ports turn)
      else if protocol ∈ turn.carries then close (closed (nic.ports turn)) (nic.ports protocol)
      else nic.ports protocol := by
  cases turn <;> cases protocol <;> rfl

theorem withoutPorts_settleProtocol (nic : Interface) (turn : Protocol) :
    (nic.settleProtocol turn).withoutPorts = nic.withoutPorts := by
  cases turn <;> rfl

/-- A turn that puts its list in order first. What it excludes, and what that leaves open, it reads
off the ordered list. -/
def settleInOrder (nic : Interface) (turn : Protocol) : Interface :=
  let ports := inOrder (retract (nic.ports turn))
  (turn.carries.foldl (closePorts (ports.filterMap (·.excluded?))) nic).setPorts turn
    (exclude ports)

theorem settleProtocol_eq_settleInOrder (spelled : nic.WellSpelled) (turn : Protocol) :
    nic.settleProtocol turn = nic.settleInOrder turn := by
  have left : ∀ e ∈ retract (nic.ports turn), e.WellSpelled :=
    fun e he => spelled turn e (mem_of_mem_retract he)
  have values (port : String) : port ∈ closed (nic.ports turn) ↔
      port ∈ (inOrder (retract (nic.ports turn))).filterMap (·.excluded?) := by
    rw [mem_closed, mem_filterMap_excluded, mem_inOrder left]
    simp
  have closes : closePorts (closed (nic.ports turn)) =
      closePorts ((inOrder (retract (nic.ports turn))).filterMap (·.excluded?)) := by
    funext other protocol
    exact congrArg (other.setPorts protocol) (close_congr values (other.ports protocol))
  rw [settleProtocol, settleInOrder, opened_eq_exclude_inOrder (spelled turn), closes]

theorem WellSpelled.settleProtocol (spelled : nic.WellSpelled) (turn : Protocol) :
    (nic.settleProtocol turn).WellSpelled := by
  intro protocol entry mem
  rw [ports_settleProtocol] at mem
  split_ifs at mem
  · exact spelled turn entry (mem_of_mem_opened mem)
  · exact spelled protocol entry (List.mem_of_mem_filter mem)
  · exact spelled protocol entry mem

def settleInTurn (nic : Interface) (turns : List Protocol) : Interface :=
  turns.foldl settleProtocol nic

theorem settleInTurn_eq_foldl (spelled : nic.WellSpelled) (turns : List Protocol) :
    nic.settleInTurn turns = turns.foldl settleInOrder nic := by
  induction turns generalizing nic with
  | nil => rfl
  | cons turn turns ih =>
    rw [List.foldl_cons, ← settleProtocol_eq_settleInOrder spelled,
      ← ih (spelled.settleProtocol turn)]
    rfl

theorem settleInTurn_concat (nic : Interface) (turns : List Protocol) (turn : Protocol) :
    nic.settleInTurn (turns ++ [turn]) = (nic.settleInTurn turns).settleProtocol turn :=
  List.foldl_append

theorem withoutPorts_settleInTurn (nic : Interface) (turns : List Protocol) :
    (nic.settleInTurn turns).withoutPorts = nic.withoutPorts := by
  induction turns using List.reverseRecOn with
  | nil => rfl
  | append_singleton turns turn ih =>
    rw [settleInTurn_concat, withoutPorts_settleProtocol, ih]

def closedInTurn (nic : Interface) (turns : List Protocol) (protocol : Protocol) : List String :=
  if .tcp ∈ turns then nic.closedBelow protocol else []

/-- What a list comes to in some turns, whatever their order. -/
def portsInTurn (nic : Interface) (turns : List Protocol) (protocol : Protocol) : List Entry :=
  close (nic.closedInTurn turns protocol)
    (if protocol ∈ turns then opened (nic.ports protocol) else nic.ports protocol)

theorem closed_portsInTurn_tcp (nic : Interface) (turns : List Protocol) :
    closed (nic.portsInTurn turns .tcp) = if .tcp ∈ turns then [] else closed nic.tcp := by
  have nothing : nic.closedInTurn turns .tcp = [] := by
    rw [closedInTurn]
    split_ifs <;> rfl
  rw [portsInTurn, nothing, close_nil]
  split_ifs
  · exact closed_opened _
  · rfl

theorem opened_portsInTurn (spelled : nic.WellSpelled) (turns : List Protocol)
    (protocol : Protocol) :
    opened (nic.portsInTurn turns protocol) =
      close (nic.closedInTurn turns protocol) (opened (nic.ports protocol)) := by
  rw [portsInTurn]
  split_ifs
  · rw [opened_close fun e he => spelled protocol e (mem_of_mem_opened he), opened_opened]
  · rw [opened_close (spelled protocol)]

/-- One more turn. The list of the protocol is settled, if it was not before; those that it carries
lose what it excludes, unless they have lost that before. -/
theorem portsInTurn_concat (spelled : nic.WellSpelled) (turns : List Protocol)
    (turn protocol : Protocol) :
    nic.portsInTurn (turns ++ [turn]) protocol =
      if protocol = turn then opened (nic.portsInTurn turns turn)
      else if protocol ∈ turn.carries then
        close (closed (nic.portsInTurn turns turn)) (nic.portsInTurn turns protocol)
      else nic.portsInTurn turns protocol := by
  by_cases own : protocol = turn
  · subst own
    have same : nic.closedInTurn (turns ++ [protocol]) protocol =
        nic.closedInTurn turns protocol := by
      cases protocol <;> simp [closedInTurn, closedBelow]
    rw [if_pos rfl, opened_portsInTurn spelled, portsInTurn, same, if_pos (by simp)]
  · have others : protocol ∈ turns ++ [turn] ↔ protocol ∈ turns := by simp [own]
    rw [if_neg own]
    by_cases carried : protocol ∈ turn.carries
    · have overTcp : turn = .tcp := by
        cases turn <;> simp_all [Protocol.carries]
      subst overTcp
      have below : nic.closedBelow protocol = closed nic.tcp := by
        cases protocol <;> simp_all [Protocol.carries, closedBelow]
      rw [if_pos carried, closed_portsInTurn_tcp]
      simp only [portsInTurn, closedInTurn, below, others]
      by_cases before : Protocol.tcp ∈ turns <;> simp [before]
    · rw [if_neg carried]
      have same : nic.closedInTurn (turns ++ [turn]) protocol =
          nic.closedInTurn turns protocol := by
        cases turn <;> cases protocol <;> simp_all [closedInTurn, closedBelow, Protocol.carries]
      simp only [portsInTurn, same, others]

theorem ports_settleInTurn (spelled : nic.WellSpelled) (turns : List Protocol)
    (protocol : Protocol) :
    (nic.settleInTurn turns).ports protocol = nic.portsInTurn turns protocol := by
  induction turns using List.reverseRecOn generalizing protocol with
  | nil => exact (close_nil _).symm
  | append_singleton turns turn ih =>
    rw [settleInTurn_concat, ports_settleProtocol, portsInTurn_concat spelled, ih, ih]

theorem settleInTurn_congr (spelled : nic.WellSpelled) {turns others : List Protocol}
    (same : ∀ protocol, protocol ∈ turns ↔ protocol ∈ others) :
    nic.settleInTurn turns = nic.settleInTurn others := by
  refine eq_of_withoutPorts ?_ fun protocol => ?_
  · rw [withoutPorts_settleInTurn, withoutPorts_settleInTurn]
  · simp only [ports_settleInTurn spelled, portsInTurn, closedInTurn, same]

/-- Once every protocol has had its turn, in whatever order and however often, the ports are
settled. -/
theorem settleInTurn_eq_settlePorts (spelled : nic.WellSpelled) (turns : List Protocol)
    (all : ∀ protocol, protocol ∈ turns) : nic.settleInTurn turns = nic.settlePorts :=
  settleInTurn_congr spelled fun protocol => by cases protocol <;> simp [all]

theorem settleInTurn_with_tcp_last :
    let nic : Interface :=
      { ip := "dhcp", udp := [.plain "53", .plain "53"]
        tcp := [.plain "22", .exclude "8080", .exclude "80", .retract "!80"]
        http := [.retract "!8080", .plain "8080", .plain "80", .exclude "!80"]
        https := [.plain "8443", .plain "8080", .plain ""] }
    let turns : List Protocol := [.http, .udp, .https, .http, .tcp, .https]
    nic.WellSpelled ∧ (∀ protocol, protocol ∈ turns) ∧
      nic.settleInTurn turns = nic.settlePorts := by
  intro nic turns
  have spelled : nic.WellSpelled := fun protocol => by cases protocol <;> decide
  have all : ∀ protocol, protocol ∈ turns := fun protocol => by cases protocol <;> decide
  exact ⟨spelled, all, settleInTurn_eq_settlePorts spelled turns all⟩

/-- What settling makes of the ports: of each list it leaves, in ascending order of their bytes, the
values that the list comes to and does not exclude, without those that TCP excludes if the protocol
is carried by it. Nothing else is changed. -/
theorem settlePorts_spec (spelled : nic.WellSpelled) :
    (∀ protocol, OpenPorts (nic.settlePorts.ports protocol)) ∧
    (∀ protocol port, .plain port ∈ nic.settlePorts.ports protocol ↔
      port ≠ "" ∧ .plain port ∈ retract (nic.ports protocol) ∧
      .exclude port ∉ retract (nic.ports protocol) ∧
      (protocol ∈ Protocol.tcp.carries → .exclude port ∉ retract (nic.ports .tcp))) ∧
    nic.settlePorts.withoutPorts = nic.withoutPorts := by
  have lists : ∀ protocol, nic.settlePorts.ports protocol =
      opened (close (nic.closedBelow protocol) (nic.ports protocol)) := by
    intro protocol
    rw [settlePorts_eq]
    cases protocol <;> simp [ports, closedBelow]
  refine ⟨fun protocol => ?_, fun protocol port => ?_, withoutPorts_settleInTurn nic _⟩
  · rw [lists]
    exact openPorts_opened _
  · have below : port ∈ nic.closedBelow protocol ↔
        protocol ∈ Protocol.tcp.carries ∧ .exclude port ∈ retract (nic.ports .tcp) := by
      cases protocol <;> simp [closedBelow, Protocol.carries, mem_closed, ports]
    rw [lists, plain_mem_opened_close (spelled protocol), below]
    tauto

theorem settlePorts_of_nested_marks :
    let nic : Interface :=
      { udp := [.exclude "53", .plain "53", .retract "!53", .retract "~53"]
        tcp := [.plain "22", .exclude "8080", .exclude "80", .retract "!80"]
        http := [.plain "8080", .plain "80", .exclude "!80", .plain ""] }
    nic.WellSpelled ∧
      .plain "53" ∈ nic.settlePorts.ports .udp ∧ .plain "80" ∈ nic.settlePorts.ports .http ∧
      .plain "8080" ∉ nic.settlePorts.ports .http ∧ .plain "" ∉ nic.settlePorts.ports .http := by
  intro nic
  have spelled : nic.WellSpelled := fun protocol => by cases protocol <;> decide
  have ⟨_, listed, _⟩ := settlePorts_spec spelled
  refine ⟨spelled, (listed .udp "53").2 (by decide), (listed .http "80").2 (by decide), ?_, ?_⟩
  · rw [listed .http "8080"]
    decide
  · rw [listed .http ""]
    decide

end Interface
end Appliance
