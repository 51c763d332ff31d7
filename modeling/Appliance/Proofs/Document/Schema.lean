import Appliance.Document.Text
import Appliance.Proofs.Document.Settled
import Appliance.Proofs.Schema.Record

/-! Every record of a document is read back from what its fields write, and so is the document but
for its time. The limit is the first number that the format cannot write. -/
namespace Appliance

open Codec

variable {format : Format} {limit : Nat}

theorem Program.restores (program : Program) :
    schema.Restores format (·.IsInline limit) program program where
  distinct := by decide
  fills := by
    refine .cons (fun _ => carries_string _) rfl ?_
    refine .cons (fun _ => carries_string _) rfl ?_
    refine .cons (fun _ => carries_strings _) rfl ?_
    refine .cons (fun _ => carries_string _) rfl ?_
    refine .cons (fun _ => carries_string _) rfl ?_
    refine .cons (fun _ => carries_string _) rfl ?_
    refine .cons (fun _ => carries_strings _) rfl ?_
    refine .cons (fun _ => carries_strings _) rfl ?_
    refine .cons (fun set => carries_choice (fun p => by cases p <;> decide) set) rfl ?_
    refine .cons (fun _ => carries_bool _) rfl ?_
    exact .nil _

theorem Interface.restores (wide : UInt32.size ≤ limit) {nic : Interface}
    (spelled : nic.WellSpelled) :
    schema.Restores format (·.IsInline limit) nic nic where
  distinct := by decide
  fills := by
    refine .cons (fun _ => carries_string _) rfl ?_
    refine .cons (fun _ => carries_string _) rfl ?_
    refine .cons (fun _ => carries_string _) rfl ?_
    refine .cons (fun _ => carries_entries (spelled .udp)) rfl ?_
    refine .cons (fun _ => carries_entries (spelled .tcp)) rfl ?_
    refine .cons (fun _ => carries_entries (spelled .http)) rfl ?_
    refine .cons (fun _ => carries_entries (spelled .https)) rfl ?_
    refine .cons (fun _ => carries_u32 wide _) rfl ?_
    refine .cons (fun _ => carries_bool _) rfl ?_
    refine .cons (fun _ => carries_bool _) rfl ?_
    exact .nil _

theorem Settings.restores (wide : UInt32.size ≤ limit) {settings : Settings}
    (dns : ∀ e ∈ settings.dns, e.WellSpelled) (ntp : ∀ e ∈ settings.ntp, e.WellSpelled) :
    schema.Restores format (·.IsInline limit) settings settings where
  distinct := by decide
  fills := by
    refine .cons (fun _ => carries_entries dns) rfl ?_
    refine .cons (fun _ => carries_entries ntp) rfl ?_
    refine .cons (fun _ => carries_string _) rfl ?_
    refine .cons (fun _ => carries_u32 wide _) rfl ?_
    refine .cons (fun set => carries_choice (fun c => by cases c <;> decide) set) rfl ?_
    refine .cons (fun _ => carries_string _) rfl ?_
    refine .cons (fun set => carries_choice (fun f => by cases f <;> decide) set) rfl ?_
    refine .cons (fun _ => carries_string _) rfl ?_
    exact .nil _

theorem Package.restores (package : Package) :
    schema.Restores format (·.IsInline limit) package package where
  distinct := by decide
  fills := by
    refine .cons (fun _ => carries_string _) rfl ?_
    refine .cons (fun _ => carries_string _) rfl ?_
    refine .cons (fun _ => carries_string _) rfl ?_
    refine .cons (fun _ => carries_string _) rfl ?_
    refine .cons (fun _ => carries_string _) rfl ?_
    refine .cons (fun _ => carries_date _) rfl ?_
    refine .cons (fun _ => carries_string _) rfl ?_
    exact .nil _

theorem Machine.restores (wide : UInt32.size ≤ limit) {machine : Machine}
    (inodes : machine.inodes.toNat < limit) :
    schema.Restores format (·.IsInline limit) machine machine where
  distinct := by decide
  fills := by
    refine .cons (fun _ => carries_u32 wide _) rfl ?_
    refine .cons (fun _ => carries_size _) rfl ?_
    refine .cons (fun _ => carries_u64 inodes) rfl ?_
    refine .cons (fun _ => carries_string _) rfl ?_
    refine .cons (fun _ => carries_size _) rfl ?_
    exact .nil _

theorem Mount.restores (mount : Mount) : schema.Restores format (·.IsInline limit) mount mount where
  distinct := by decide
  fills := by
    refine .cons (fun _ => carries_string _) rfl ?_
    refine .cons (fun _ => carries_string _) rfl ?_
    refine .cons (fun _ => carries_string _) rfl ?_
    exact .nil _

theorem Route.restores (route : Route) : schema.Restores format (·.IsInline limit) route route where
  distinct := by decide
  fills := by
    refine .cons (fun _ => carries_string _) rfl ?_
    refine .cons (fun _ => carries_string _) rfl ?_
    refine .cons (fun _ => carries_string _) rfl ?_
    exact .nil _

theorem LogSink.restores (sink : LogSink) :
    schema.Restores format (·.IsInline limit) sink sink where
  distinct := by decide
  fills := by
    refine .cons (fun _ => carries_strings _) rfl ?_
    refine .cons (fun _ => carries_string _) rfl ?_
    exact .nil _

theorem Document.restores (wide : UInt32.size ≤ limit) {doc : Document} (spelled : doc.WellSpelled)
    (inodes : doc.machine.inodes.toNat < limit) :
    schema.Restores format (·.IsBlock limit) doc doc.content where
  distinct := by decide
  fills := by
    refine .cons (fun filled => Record.Restores.carries_records filled fun p _ => p.restores) rfl ?_
    refine .cons (fun filled => Record.Restores.carries_records filled fun nic mem =>
      Interface.restores wide (spelled.interfaces nic mem)) rfl ?_
    refine .cons (fun _ => (Settings.restores wide spelled.dns spelled.ntp).carries) rfl ?_
    refine .cons (fun _ => (Package.restores _).carries) rfl ?_
    refine .cons (fun _ => (Machine.restores wide inodes).carries) rfl ?_
    refine .cons (fun filled => Record.Restores.carries_records filled fun m _ => m.restores) rfl ?_
    refine .cons (fun filled => Record.Restores.carries_records filled fun r _ => r.restores) rfl ?_
    refine .cons (fun filled => Record.Restores.carries_records filled fun s _ => s.restores) rfl ?_
    refine .cons (fun _ => carries_parameters _) rfl ?_
    exact .nil _

section Read

variable {value : Value}

theorem any_hereditary : Value.Hereditary fun _ => True :=
  ⟨fun _ _ _ _ => trivial, fun _ _ _ _ => trivial⟩

theorem wellSpelled_of_read_list {entries : List Entry}
    (read : (list entry).read format value = .ok entries) : ∀ e ∈ entries, e.WellSpelled :=
  forall_of_read_sequence any_hereditary (fun _ => wellSpelled_of_read) trivial read

theorem Interface.wellSpelled_setPorts {nic : Interface} (spelled : nic.WellSpelled) (p : Protocol)
    {entries : List Entry} (read : (list entry).read format value = .ok entries) :
    (nic.setPorts p entries).WellSpelled := by
  intro q
  rw [ports_setPorts]
  split
  · exact wellSpelled_of_read_list read
  · exact spelled q

theorem Interface.wellSpelled_of_read {nic : Interface}
    (read : schema.read format value = .ok nic) :
    nic.WellSpelled := by
  have empty : WellSpelled default := fun p => by cases p <;> simp [default, ports]
  refine Record.of_read any_hereditary ?_ empty trivial read
  simp only [schema, List.forall_mem_cons]
  refine ⟨?ip, ?mask, ?gateway, ?onUdp, ?onTcp, ?onHttp, ?onHttps, ?mtu, ?tso, ?tcpdump, by simp⟩
  case onUdp => exact Field.keeps_of fun _ read before => wellSpelled_setPorts before .udp read
  case onTcp => exact Field.keeps_of fun _ read before => wellSpelled_setPorts before .tcp read
  case onHttp => exact Field.keeps_of fun _ read before => wellSpelled_setPorts before .http read
  case onHttps => exact Field.keeps_of fun _ read before => wellSpelled_setPorts before .https read
  all_goals exact Field.keeps_of fun _ _ before => before

theorem Settings.wellSpelled_of_read {settings : Settings}
    (read : schema.read format value = .ok settings) :
    (∀ e ∈ settings.dns, e.WellSpelled) ∧ ∀ e ∈ settings.ntp, e.WellSpelled := by
  refine Record.of_read (P := fun settings : Settings =>
    (∀ e ∈ settings.dns, e.WellSpelled) ∧ ∀ e ∈ settings.ntp, e.WellSpelled)
    any_hereditary ?_ (by simp [default]) trivial read
  simp only [schema, List.forall_mem_cons]
  refine ⟨?dns, ?ntp, ?hostname, ?fds, ?console, ?kernel, ?root, ?user, by simp⟩
  case dns => exact Field.keeps_of fun _ read before => ⟨wellSpelled_of_read_list read, before.2⟩
  case ntp => exact Field.keeps_of fun _ read before => ⟨before.1, wellSpelled_of_read_list read⟩
  all_goals exact Field.keeps_of fun _ _ before => before

theorem Document.wellSpelled_of_read {doc : Document} (read : schema.read format value = .ok doc) :
    doc.WellSpelled := by
  have empty : WellSpelled default := ⟨by simp [default], by simp [default], by simp [default]⟩
  refine Record.of_read any_hereditary ?_ empty trivial read
  simp only [schema, List.forall_mem_cons]
  refine ⟨?program, ?network, ?system, ?info, ?vm, ?nfs, ?route, ?logging, ?sysctl, by simp⟩
  case network =>
    refine Field.keeps_of fun _ read before => ⟨?_, before.dns, before.ntp⟩
    exact forall_of_read_sequence any_hereditary
      (fun _ => Interface.wellSpelled_of_read) trivial read
  case system =>
    refine Field.keeps_of fun _ read before => ⟨before.interfaces, ?_, ?_⟩
    · exact (Settings.wellSpelled_of_read read).1
    · exact (Settings.wellSpelled_of_read read).2
  all_goals exact Field.keeps_of fun _ _ before => ⟨before.interfaces, before.dns, before.ntp⟩

theorem Machine.inodes_lt_of_read (positive : 0 < limit) (fits : value.Fits (· < limit))
    {machine : Machine} (read : schema.read format value = .ok machine) :
    machine.inodes.toNat < limit := by
  refine Record.of_read (P := fun machine : Machine => machine.inodes.toNat < limit)
    (Value.hereditary_fits _) ?_ positive fits read
  simp only [schema, List.forall_mem_cons]
  refine ⟨?cpus, ?ram, ?inodes, ?kernel, ?disk, by simp⟩
  case inodes => exact Field.keeps_of fun fits read _ => toNat_lt_of_read_u64 fits read
  all_goals exact Field.keeps_of fun _ _ before => before

theorem Document.inodes_lt_of_read (positive : 0 < limit) (fits : value.Fits (· < limit))
    {doc : Document} (read : schema.read format value = .ok doc) :
    doc.machine.inodes.toNat < limit := by
  refine Record.of_read (P := fun doc : Document => doc.machine.inodes.toNat < limit)
    (Value.hereditary_fits _) ?_ positive fits read
  simp only [schema, List.forall_mem_cons]
  refine ⟨?program, ?network, ?system, ?info, ?vm, ?nfs, ?route, ?logging, ?sysctl, by simp⟩
  case vm => exact Field.keeps_of fun fits read _ => Machine.inodes_lt_of_read positive fits read
  all_goals exact Field.keeps_of fun _ _ before => before

theorem Document.changed_of_read {doc : Document} (read : schema.read format value = .ok doc) :
    doc.changed = none := by
  refine Record.of_read (P := fun doc : Document => doc.changed = none)
    any_hereditary ?_ rfl trivial read
  simp only [schema, List.forall_mem_cons]
  refine ⟨?program, ?network, ?system, ?info, ?vm, ?nfs, ?route, ?logging, ?sysctl, by simp⟩
  all_goals exact Field.keeps_of fun _ _ before => before

end Read

end Appliance
