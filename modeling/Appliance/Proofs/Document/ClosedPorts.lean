import Appliance.Proofs.Document.Interfaces

/-! Ports that a layer closes. A port excluded for TCP is served by no protocol over TCP in the
outcome of the layer, and every later layer keeps it so until one of them lists the port again. -/
namespace Appliance

namespace Interface

open Entries

/-- Is the port listed neither for TCP nor for a protocol that it carries? -/
def Unserved (nic : Interface) (port : String) : Prop :=
  ∀ protocol ∈ Protocol.tcp :: Protocol.tcp.carries, .plain port ∉ nic.ports protocol

/-- Does the list for TCP exclude the port and not take the exclusion back? -/
def Closes (nic : Interface) (port : String) : Prop :=
  ∃ before after, nic.tcp = before ++ .exclude port :: after ∧ .retract ("!" ++ port) ∉ after

variable {nic base upper : Interface} {port : String}

theorem plain_mem_ports_of_settle {protocol : Protocol}
    (h : .plain port ∈ nic.settle.ports protocol) : .plain port ∈ nic.ports protocol := by
  rw [ports_settle] at h
  split_ifs at h
  · simp at h
  · have left := (plain_mem_opened.1 h).2.1
    exact (plain_mem_close.1 (mem_of_mem_retract left)).1

theorem Unserved.settle (h : nic.Unserved port) : nic.settle.Unserved port :=
  fun protocol carried mem => h protocol carried (plain_mem_ports_of_settle mem)

theorem Unserved.overlay (below : base.Unserved port) (above : upper.Unserved port) :
    (base.overlay upper).Unserved port := by
  intro protocol carried mem
  rw [ports_overlay] at mem
  rcases List.mem_append.1 (mem_of_mem_retract mem) with inBase | inUpper
  · exact below protocol carried inBase
  · exact above protocol carried inUpper

theorem unserved_settle_of_exclude_mem (h : .exclude port ∈ retract (nic.ports .tcp)) :
    nic.settle.Unserved port := by
  intro protocol carried mem
  rw [ports_settle] at mem
  split_ifs at mem
  · simp at mem
  · have ⟨_, left, notExcluded⟩ := plain_mem_opened.1 mem
    cases protocol with
    | udp => simp [Protocol.carries] at carried
    | tcp => exact notExcluded (by simpa [closedBelow] using h)
    | http | https =>
      have notClosed := (plain_mem_close.1 (mem_of_mem_retract left)).2
      exact notClosed (mem_closed.2 h)

theorem Closes.exclude_mem (h : upper.Closes port) (below : List Entry) :
    .exclude port ∈ retract (below ++ upper.ports .tcp) := by
  obtain ⟨before, after, list, kept⟩ := h
  have cut : below ++ upper.ports .tcp = (below ++ before) ++ .exclude port :: after := by
    rw [ports, list, List.append_assoc]
  rw [cut]
  exact mem_retract_of_not_mem rfl kept

theorem Closes.unserved_settle (h : nic.Closes port) : nic.settle.Unserved port :=
  unserved_settle_of_exclude_mem (h.exclude_mem [])

theorem Closes.unserved_overlay (h : upper.Closes port) :
    (base.overlay upper).settle.Unserved port := by
  refine unserved_settle_of_exclude_mem ?_
  rw [ports_overlay, retract_retract]
  exact h.exclude_mem _

end Interface

namespace Document

def Unserved (doc : Document) (position : Nat) (port : String) : Prop :=
  ∃ nic, doc.interfaces[position]? = some nic ∧ nic.Unserved port

def overlayAll (base : Document) (layers : List (Document × Time)) : Document :=
  layers.foldl (fun below layer => below.overlay layer.1 layer.2) base

variable {base upper : Document} {position : Nat} {port : String} {nic : Interface}

theorem unserved_overlay_of_closes (now : Time) (listed : upper.interfaces[position]? = some nic)
    (closes : nic.Closes port) : (base.overlay upper now).Unserved position port := by
  have found := getElem?_interfaces_overlay base upper now position
  rw [listed] at found
  cases below : base.interfaces[position]? with
  | none =>
    rw [below] at found
    exact ⟨_, found, closes.unserved_settle⟩
  | some lower =>
    rw [below] at found
    exact ⟨_, found, closes.unserved_overlay⟩

theorem Unserved.overlay (now : Time) (h : base.Unserved position port)
    (unlisted : ∀ nic, upper.interfaces[position]? = some nic → nic.Unserved port) :
    (base.overlay upper now).Unserved position port := by
  obtain ⟨lower, below, unserved⟩ := h
  have found := getElem?_interfaces_overlay base upper now position
  rw [below] at found
  cases above : upper.interfaces[position]? with
  | none =>
    rw [above] at found
    exact ⟨_, found, unserved.settle⟩
  | some nic =>
    rw [above] at found
    exact ⟨_, found, (unserved.overlay (unlisted nic above)).settle⟩

theorem Unserved.overlayAll {layers : List (Document × Time)} (h : base.Unserved position port)
    (unlisted : ∀ layer ∈ layers, ∀ nic, layer.1.interfaces[position]? = some nic →
      nic.Unserved port) : (base.overlayAll layers).Unserved position port := by
  induction layers generalizing base with
  | nil => exact h
  | cons layer layers ih =>
    have step := h.overlay layer.2 (unlisted layer List.mem_cons_self)
    exact ih step fun later mem => unlisted later (List.mem_cons_of_mem _ mem)

/-- A port that a layer closes stays closed until a later layer lists it again. -/
theorem unserved_until_listed_again (base : Document) (before after : List (Document × Time))
    (layer : Document × Time) (position : Nat) (port : String) (nic : Interface)
    (listed : layer.1.interfaces[position]? = some nic) (closes : nic.Closes port)
    (unlisted : ∀ later ∈ after, ∀ nic, later.1.interfaces[position]? = some nic →
      nic.Unserved port) :
    (base.overlayAll (before ++ layer :: after)).Unserved position port := by
  have closed : ((base.overlayAll before).overlay layer.1 layer.2).Unserved position port :=
    unserved_overlay_of_closes layer.2 listed closes
  have run : base.overlayAll (before ++ layer :: after) =
      ((base.overlayAll before).overlay layer.1 layer.2).overlayAll after := by
    rw [overlayAll, List.foldl_append, List.foldl_cons]
    rfl
  rw [run]
  exact closed.overlayAll unlisted

theorem telnet_unserved_after_exclusion :
    let base : Document :=
      { interfaces := [{ ip := "dhcp", tcp := [.plain "22", .plain "23"], http := [.plain "23"] }] }
    let closing : Document := { interfaces := [{ tcp := [.plain "23", .exclude "23"] }] }
    let above : Document := { interfaces := [{ udp := [.plain "23"] }, {}] }
    (base.overlayAll [(closing, ⟨1⟩), (above, ⟨2⟩)]).Unserved 0 "23" := by
  intro base closing above
  have closes : Interface.Closes { tcp := [.plain "23", .exclude "23"] } "23" :=
    ⟨[.plain "23"], [], rfl, List.not_mem_nil⟩
  refine unserved_until_listed_again base [] [(above, ⟨2⟩)] (closing, ⟨1⟩) 0 "23" _ rfl closes ?_
  intro later mem nic listed
  obtain rfl := List.mem_singleton.1 mem
  obtain rfl : { udp := [.plain "23"] } = nic := Option.some.inj listed
  simp [Interface.Unserved, Interface.ports, Protocol.carries]

end Document
end Appliance
