import Appliance.Proofs.Ports

/-! Interfaces as they take effect: each setting of a settled interface in terms of the settings
that it is settled from, and the interfaces that settling leaves as they are. -/
namespace Appliance

namespace Entries

def close (values : List String) (ports : List Entry) : List Entry :=
  ports.filter fun
    | .plain text => !values.contains text
    | _ => true

@[simp] theorem close_nil (ports : List Entry) : close [] ports = ports := by
  refine List.filter_eq_self.2 fun e _ => ?_
  cases e <;> rfl

theorem plain_mem_close {values : List String} {ports : List Entry} {port : String} :
    .plain port ∈ close values ports ↔ .plain port ∈ ports ∧ port ∉ values := by
  simp [close]

theorem exclude_mem_close {values : List String} {ports : List Entry} {port : String} :
    .exclude port ∈ close values ports ↔ .exclude port ∈ ports := by
  simp [close]

theorem close_congr {values others : List String} (same : ∀ port, port ∈ values ↔ port ∈ others)
    (ports : List Entry) : close values ports = close others ports := by
  refine List.filter_congr fun e _ => ?_
  cases e <;> simp [same]

theorem mem_filterMap_excluded {port : String} {entries : List Entry} :
    port ∈ entries.filterMap (·.excluded?) ↔ .exclude port ∈ entries := by
  rw [List.mem_filterMap]
  constructor
  · rintro ⟨e, he, value⟩
    cases e <;> simp_all [Entry.excluded?]
  · exact fun h => ⟨_, h, rfl⟩

theorem mem_closed {port : String} {ports : List Entry} :
    port ∈ closed ports ↔ .exclude port ∈ retract ports := mem_filterMap_excluded

theorem closed_of_isPlain {ports : List Entry} (plain : ∀ e ∈ ports, e.isPlain = true) :
    closed ports = [] := by
  refine List.eq_nil_iff_forall_not_mem.2 fun port h => ?_
  simpa [Entry.isPlain] using plain _ (mem_of_mem_retract (mem_closed.1 h))

/-- Values can be taken out before the retractions act, since none of them retracts. -/
theorem retract_close {ports : List Entry} (spelled : ∀ e ∈ ports, e.WellSpelled)
    (values : List String) : retract (close values ports) = close values (retract ports) := by
  refine retract_filter fun e he kept x hx gone => ?_
  have other : x ≠ e := by
    rintro rfl
    exact Bool.false_ne_true (gone.symm.trans kept)
  have spelling : x.spelling ≠ e.spelling := fun same =>
    other ((spelled x hx).eq_of_spelling (spelled e he) same)
  cases x <;> simp_all [Entry.decides]

theorem plain_mem_opened_close {ports : List Entry} (spelled : ∀ e ∈ ports, e.WellSpelled)
    {values : List String} {port : String} :
    .plain port ∈ opened (close values ports) ↔
      port ≠ "" ∧ port ∉ values ∧ .plain port ∈ retract ports ∧ .exclude port ∉ retract ports := by
  rw [plain_mem_opened, retract_close spelled, plain_mem_close, exclude_mem_close]
  tauto

end Entries

namespace Interface

open Entries

/-- The values that a protocol may not serve because the one that carries it excludes them. -/
def closedBelow (nic : Interface) : Protocol → List String
  | .http | .https => closed nic.tcp
  | _ => []

theorem settlePorts_eq (nic : Interface) :
    nic.settlePorts =
      { nic with
        udp := opened nic.udp
        tcp := opened nic.tcp
        http := opened (close (closed nic.tcp) nic.http)
        https := opened (close (closed nic.tcp) nic.https) } := by
  rfl

theorem eq_of_ports {a b : Interface} (ip : a.ip = b.ip) (mask : a.mask = b.mask)
    (gateway : a.gateway = b.gateway) (ports : ∀ p, a.ports p = b.ports p) (mtu : a.mtu = b.mtu)
    (disableTso : a.disableTso = b.disableTso) (tcpdump : a.tcpdump = b.tcpdump) : a = b := by
  have udp := ports .udp
  have tcp := ports .tcp
  have http := ports .http
  have https := ports .https
  cases a
  cases b
  simp_all [Interface.ports]

def withoutPorts (nic : Interface) : Interface :=
  { nic with udp := [], tcp := [], http := [], https := [] }

theorem withoutPorts_eq_iff {a b : Interface} :
    a.withoutPorts = b.withoutPorts ↔
      a.ip = b.ip ∧ a.mask = b.mask ∧ a.gateway = b.gateway ∧ a.mtu = b.mtu ∧
        a.disableTso = b.disableTso ∧ a.tcpdump = b.tcpdump := by
  simp [withoutPorts]

theorem eq_of_withoutPorts {a b : Interface} (rest : a.withoutPorts = b.withoutPorts)
    (ports : ∀ p, a.ports p = b.ports p) : a = b := by
  obtain ⟨ip, mask, gateway, mtu, disableTso, tcpdump⟩ := withoutPorts_eq_iff.1 rest
  exact eq_of_ports ip mask gateway ports mtu disableTso tcpdump

theorem addressing_eq_disabled_iff (nic : Interface) :
    nic.addressing = .disabled ↔ nic.ip = "" ∨ nic.ip = "!" ∨ nic.ip = "disabled" := by
  unfold addressing
  split_ifs <;> simp_all

theorem addressing_eq_dhcp_iff (nic : Interface) : nic.addressing = .dhcp ↔ nic.ip = "dhcp" := by
  by_cases dhcp : nic.ip = "dhcp"
  · simp [addressing, dhcp]
  · unfold addressing
    split_ifs <;> simp_all

theorem addressing_congr {a b : Interface} (same : a.ip = b.ip) : a.addressing = b.addressing := by
  rw [addressing, addressing, same]

section Settle

variable (nic : Interface)

theorem settle_eq :
    nic.settle =
      match nic.addressing with
      | .disabled =>
        { mtu := nic.mtu, disableTso := nic.disableTso, tcpdump := nic.tcpdump }
      | .dhcp => { nic.settlePorts with mask := "", gateway := "" }
      | .static => nic.settlePorts := by
  have same : nic.settlePorts.addressing = nic.addressing :=
    addressing_congr (by rw [settlePorts_eq])
  rw [settle, applyAddressing, same]
  cases nic.addressing with
  | disabled => rw [settlePorts_eq]
  | dhcp => rfl
  | static => rfl

@[simp] theorem ip_settle :
    nic.settle.ip = if nic.addressing = .disabled then "" else nic.ip := by
  rw [settle_eq, settlePorts_eq]
  cases nic.addressing <;> rfl

@[simp] theorem mask_settle :
    nic.settle.mask = if nic.addressing = .static then nic.mask else "" := by
  rw [settle_eq, settlePorts_eq]
  cases nic.addressing <;> rfl

@[simp] theorem gateway_settle :
    nic.settle.gateway = if nic.addressing = .static then nic.gateway else "" := by
  rw [settle_eq, settlePorts_eq]
  cases nic.addressing <;> rfl

@[simp] theorem mtu_settle : nic.settle.mtu = nic.mtu := by
  rw [settle_eq, settlePorts_eq]
  cases nic.addressing <;> rfl

@[simp] theorem disableTso_settle : nic.settle.disableTso = nic.disableTso := by
  rw [settle_eq, settlePorts_eq]
  cases nic.addressing <;> rfl

@[simp] theorem tcpdump_settle : nic.settle.tcpdump = nic.tcpdump := by
  rw [settle_eq, settlePorts_eq]
  cases nic.addressing <;> rfl

theorem ports_settle (protocol : Protocol) :
    nic.settle.ports protocol =
      if nic.addressing = .disabled then []
      else opened (close (nic.closedBelow protocol) (nic.ports protocol)) := by
  rw [settle_eq, settlePorts_eq]
  cases nic.addressing <;> cases protocol <;> simp [ports, closedBelow]

@[simp] theorem addressing_settle : nic.settle.addressing = nic.addressing := by
  by_cases off : nic.addressing = .disabled
  · rw [off, addressing_eq_disabled_iff]
    simp [off]
  · exact addressing_congr (by simp [off])

end Settle

def WellSpelled (nic : Interface) : Prop := ∀ protocol, ∀ e ∈ nic.ports protocol, e.WellSpelled

/-- A port is open if its list comes to it and excludes it neither there nor for what carries it. -/
theorem plain_mem_ports_settle {nic : Interface} (spelled : nic.WellSpelled) {protocol : Protocol}
    {port : String} :
    .plain port ∈ nic.settle.ports protocol ↔
      nic.addressing ≠ .disabled ∧ port ≠ "" ∧ port ∉ nic.closedBelow protocol ∧
      .plain port ∈ retract (nic.ports protocol) ∧
      .exclude port ∉ retract (nic.ports protocol) := by
  rw [ports_settle]
  split_ifs with off
  · simp [off]
  · rw [plain_mem_opened_close (spelled protocol)]
    tauto

structure Settled (nic : Interface) : Prop where
  openPorts : ∀ protocol, OpenPorts (nic.ports protocol)
  disabled : nic.ip = "" ∨ nic.ip = "!" ∨ nic.ip = "disabled" →
    nic.ip = "" ∧ nic.mask = "" ∧ nic.gateway = "" ∧ ∀ protocol, nic.ports protocol = []
  dhcp : nic.ip = "dhcp" → nic.mask = "" ∧ nic.gateway = ""

theorem settled_settle (nic : Interface) : nic.settle.Settled where
  openPorts protocol := by
    rw [ports_settle]
    split_ifs
    · exact OpenPorts.nil
    · exact openPorts_opened _
  disabled off := by
    have disabled : nic.addressing = .disabled := by
      rw [← addressing_settle, addressing_eq_disabled_iff]
      exact off
    simp [disabled, ports_settle]
  dhcp asks := by
    have dhcp : nic.addressing = .dhcp := by
      rw [← addressing_settle, addressing_eq_dhcp_iff]
      exact asks
    simp [dhcp]

theorem settle_congr {a b : Interface} (spelledA : a.WellSpelled) (spelledB : b.WellSpelled)
    (rest : a.withoutPorts = b.withoutPorts)
    (left : ∀ protocol, ∀ e, e ∈ retract (a.ports protocol) ↔ e ∈ retract (b.ports protocol)) :
    a.settle = b.settle := by
  obtain ⟨ip, mask, gateway, mtu, disableTso, tcpdump⟩ := withoutPorts_eq_iff.1 rest
  have addressing := addressing_congr ip
  have below : ∀ protocol port, port ∈ a.closedBelow protocol ↔ port ∈ b.closedBelow protocol := by
    intro protocol port
    cases protocol with
    | udp | tcp => rfl
    | http | https => exact mem_closed.trans ((left .tcp _).trans mem_closed.symm)
  refine eq_of_ports ?_ ?_ ?_ (fun protocol => ?_) ?_ ?_ ?_
  · rw [ip_settle, ip_settle, addressing, ip]
  · rw [mask_settle, mask_settle, addressing, mask]
  · rw [gateway_settle, gateway_settle, addressing, gateway]
  · refine ((settled_settle a).openPorts protocol).ext ((settled_settle b).openPorts protocol)
      fun port => ?_
    rw [plain_mem_ports_settle spelledA, plain_mem_ports_settle spelledB, addressing, below, left,
      left]
  · rw [mtu_settle, mtu_settle, mtu]
  · rw [disableTso_settle, disableTso_settle, disableTso]
  · rw [tcpdump_settle, tcpdump_settle, tcpdump]

theorem Settled.closedBelow_eq {nic : Interface} (h : nic.Settled) (protocol : Protocol) :
    nic.closedBelow protocol = [] := by
  cases protocol with
  | udp | tcp => rfl
  | http | https => exact closed_of_isPlain (h.openPorts .tcp).plain

theorem Settled.settle_eq {nic : Interface} (h : nic.Settled) : nic.settle = nic := by
  have disabled : nic.addressing = .disabled → _ := fun off =>
    h.disabled ((addressing_eq_disabled_iff nic).1 off)
  have dhcp : nic.addressing = .dhcp → _ := fun asks => h.dhcp ((addressing_eq_dhcp_iff nic).1 asks)
  refine eq_of_ports ?_ ?_ ?_ (fun p => ?_) (by simp) (by simp) (by simp)
  · rw [ip_settle]
    split_ifs with off
    · exact (disabled off).1.symm
    · rfl
  · rw [mask_settle]
    cases way : nic.addressing with
    | disabled => exact (disabled way).2.1.symm
    | dhcp => exact (dhcp way).1.symm
    | static => rfl
  · rw [gateway_settle]
    cases way : nic.addressing with
    | disabled => exact (disabled way).2.2.1.symm
    | dhcp => exact (dhcp way).2.symm
    | static => rfl
  · rw [ports_settle, h.closedBelow_eq, close_nil, (h.openPorts p).opened_eq]
    split_ifs with off
    · exact ((disabled off).2.2.2 p).symm
    · rfl

end Interface
end Appliance
