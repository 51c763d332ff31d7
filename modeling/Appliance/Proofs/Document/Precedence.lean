import Appliance.Proofs.Document.ClosedPorts
import Appliance.Proofs.Parameters
import Appliance.Proofs.Records

/-! Which of several layers has the last word. A single value is that of the last document that sets
it, wherever that one stands; record lists are gathered from the bottom up, each record from the
first layer that has it. -/
namespace Appliance

/-- The last of some values that is set, and the empty one where none is. -/
def lastSet {α : Type} [DecidableEq α] [Inhabited α] (values : List α) : α :=
  (values.filter (· ≠ default)).getLastD default

section LastSet

variable {α : Type} [DecidableEq α] [Inhabited α]

@[simp] theorem lastSet_singleton (value : α) : lastSet [value] = value := by
  by_cases unset : value = default <;> simp [lastSet, unset]

theorem lastSet_concat (values : List α) (value : α) :
    lastSet (values ++ [value]) = override (lastSet values) value := by
  by_cases unset : value = default <;> simp [lastSet, override, List.filter_append, unset]

theorem lastSet_map_concat {β : Type} (get : β → α) (items : List β) (item : β) :
    lastSet ((items ++ [item]).map get) = override (lastSet (items.map get)) (get item) := by
  rw [List.map_append, List.map_singleton, lastSet_concat]

end LastSet

theorem override_eq_true_iff {base upper : Bool} :
    override base upper = true ↔ base = true ∨ upper = true := by
  cases upper <;> simp [override]

example : lastSet ["eth0", "", "eth1", ""] = "eth1" := by decide

namespace Records

variable {α : Type} [DecidableEq α] {record : α}

/-- The records of some lists, one list after the other, each without those seen before it. -/
def gather (seen : List α) : List (List α) → List α
  | [] => []
  | records :: lists => records.filter (· ∉ seen) ++ gather (seen ++ records) lists

theorem mem_gather {seen : List α} {lists : List (List α)} :
    record ∈ gather seen lists ↔ record ∉ seen ∧ ∃ records ∈ lists, record ∈ records := by
  induction lists generalizing seen with
  | nil => simp [gather]
  | cons records lists ih =>
    simp only [gather, List.mem_append, List.mem_filter, decide_eq_true_eq, ih,
      List.exists_mem_cons_iff]
    tauto

theorem gather_append (seen : List α) (lists more : List (List α)) :
    gather seen (lists ++ more) = gather seen lists ++ gather (seen ++ lists.flatten) more := by
  induction lists generalizing seen with
  | nil => simp [gather]
  | cons first lists ih => simp [gather, ih]

theorem gather_eq_filter (seen : List α) (lists : List (List α)) :
    gather seen lists = (gather [] lists).filter (· ∉ seen) := by
  induction lists generalizing seen with
  | nil => rfl
  | cons records lists ih =>
    simp only [gather, List.nil_append]
    rw [ih (seen ++ records), ih records, List.filter_append, List.filter_filter,
      List.filter_filter]
    simp

theorem gather_append_eq_layer (lists more : List (List α)) :
    gather [] (lists ++ more) = layer (gather [] lists) (gather [] more) := by
  rw [gather_append, List.nil_append, gather_eq_filter lists.flatten, layer_eq_append_filter]
  congr 1
  refine List.filter_congr fun record _ => ?_
  simp [mem_gather]

theorem gather_map_concat {β : Type} (get : β → List α) (items : List β) (item : β) :
    gather [] ((items ++ [item]).map get) = layer (gather [] (items.map get)) (get item) := by
  rw [List.map_append, gather_append_eq_layer]
  simp [gather]

end Records

namespace Parameters

def text? (map : Parameters) (name : String) : Option String := map.pairs.lookup name

theorem text?_layer (base upper : Parameters) (name : String) :
    (layer [base, upper]).text? name = (upper.text? name).or (base.text? name) := by
  have each : ∀ pairs : List (String × String), Ascending.Ordered pairs →
      (pairs.foldl (fun done pair => Ascending.insert pair.1 pair.2 done) base.pairs).lookup name =
        (pairs.lookup name).or (base.pairs.lookup name) := by
    intro pairs ordered
    -- From the back: names ascend, so the last one is none of those inserted before it.
    induction pairs using List.reverseRecOn with
    | nil => rfl
    | append_singleton front pair ih =>
      have ⟨before, _, between⟩ := List.pairwise_append.1 ordered
      rw [List.foldl_append, List.foldl_cons, List.foldl_nil, Ascending.lookup_insert, ih before,
        List.lookup_append, List.lookup_cons, List.lookup_nil]
      by_cases same : name = pair.1
      · have fresh : front.lookup name = none := by
          refine List.lookup_eq_none_iff.2 fun p hp => ?_
          have less := between p hp pair List.mem_cons_self
          simpa [same] using fun equal : pair.1 = p.1 => String.lt_irrefl _ (equal ▸ less)
        rw [if_pos same, fresh, same, beq_self_eq_true]
        rfl
      · rw [if_neg same, beq_false_of_ne same, Option.or_none]
  rw [text?, pairs_layer, each _ upper.ordered]
  rfl

end Parameters

structure Interface.Follows (nic : Interface) (nics : List Interface) : Prop where
  mtu : nic.mtu = lastSet (nics.map (·.mtu))
  disableTso : nic.disableTso = true ↔ ∃ n ∈ nics, n.disableTso = true
  tcpdump : nic.tcpdump = true ↔ ∃ n ∈ nics, n.tcpdump = true

namespace Interface.Follows

variable {nic : Interface} {nics : List Interface}

theorem singleton (nic : Interface) : nic.Follows [nic] := by
  constructor <;> simp

theorem settle (follows : nic.Follows nics) : nic.settle.Follows nics where
  mtu := by rw [mtu_settle, follows.mtu]
  disableTso := by rw [disableTso_settle, follows.disableTso]
  tcpdump := by rw [tcpdump_settle, follows.tcpdump]

theorem overlay (follows : nic.Follows nics) (upper : Interface) :
    (nic.overlay upper).Follows (nics ++ [upper]) where
  mtu := by rw [mtu_overlay, lastSet_map_concat, follows.mtu]
  disableTso := by
    rw [disableTso_overlay, override_eq_true_iff, follows.disableTso]
    simp
  tcpdump := by
    rw [tcpdump_overlay, override_eq_true_iff, follows.tcpdump]
    simp

end Interface.Follows

namespace Document

/-- What a document takes from others that are laid over each other, the last of which is on top. -/
structure Follows (top : Document) (docs : List Document) : Prop where
  hostname : top.settings.hostname = lastSet (docs.map (·.settings.hostname))
  maxFds : top.settings.maxFds = lastSet (docs.map (·.settings.maxFds))
  console : top.settings.console = lastSet (docs.map (·.settings.console))
  rootFs : top.settings.rootFs = lastSet (docs.map (·.settings.rootFs))
  user : top.settings.user = lastSet (docs.map (·.settings.user))
  package : top.package = {
    name := lastSet (docs.map (·.package.name))
    author := lastSet (docs.map (·.package.author))
    summary := lastSet (docs.map (·.package.summary))
    description := lastSet (docs.map (·.package.description))
    url := lastSet (docs.map (·.package.url))
    date := lastSet (docs.map (·.package.date))
    version := lastSet (docs.map (·.package.version)) }
  machine : top.machine = {
    cpus := lastSet (docs.map (·.machine.cpus))
    ram := lastSet (docs.map (·.machine.ram))
    inodes := lastSet (docs.map (·.machine.inodes))
    kernel := lastSet (docs.map (·.machine.kernel))
    diskSize := lastSet (docs.map (·.machine.diskSize)) }
  parameters : ∀ name, top.parameters.text? name =
    (docs.filterMap (·.parameters.text? name)).getLast?
  positions : ∀ position : Nat, top.interfaces[position]? = none ↔
    ∀ doc ∈ docs, doc.interfaces[position]? = none
  interfaces : ∀ (position : Nat) (nic : Interface), top.interfaces[position]? = some nic →
    nic.Follows (docs.filterMap (·.interfaces[position]?))
  programs : top.programs = Records.gather [] (docs.map (·.programs))
  mounts : top.mounts = Records.gather [] (docs.map (·.mounts))
  routes : top.routes = Records.gather [] (docs.map (·.routes))
  logs : top.logs = Records.gather [] (docs.map (·.logs))

variable {top : Document} {docs : List Document}

theorem follows_singleton (doc : Document) : doc.Follows [doc] where
  hostname := (lastSet_singleton _).symm
  maxFds := (lastSet_singleton _).symm
  console := (lastSet_singleton _).symm
  rootFs := (lastSet_singleton _).symm
  user := (lastSet_singleton _).symm
  package := by simp
  machine := by simp
  parameters name := by cases h : doc.parameters.text? name <;> simp [h]
  positions position := by simp
  interfaces position nic there := by
    constructor <;> simp [there]
  programs := by simp [Records.gather]
  mounts := by simp [Records.gather]
  routes := by simp [Records.gather]
  logs := by simp [Records.gather]

theorem Follows.overlay (follows : top.Follows docs) (upper : Document) (now : Time) :
    (top.overlay upper now).Follows (docs ++ [upper]) where
  hostname := by
    rw [lastSet_map_concat, ← follows.hostname]
    rfl
  maxFds := by
    rw [lastSet_map_concat, ← follows.maxFds]
    rfl
  console := by
    rw [lastSet_map_concat, ← follows.console]
    rfl
  rootFs := by
    rw [lastSet_map_concat, ← follows.rootFs]
    rfl
  user := by
    rw [lastSet_map_concat, ← follows.user]
    rfl
  package := by
    have united : (top.overlay upper now).package = top.package.overlay upper.package := rfl
    simp only [united, follows.package, Package.overlay, lastSet_map_concat]
  machine := by
    have united : (top.overlay upper now).machine = top.machine.overlay upper.machine := rfl
    simp only [united, follows.machine, Machine.overlay, lastSet_map_concat]
  parameters name := by
    have united : (top.overlay upper now).parameters =
        .layer [top.parameters, upper.parameters] := rfl
    rw [united, Parameters.text?_layer, follows.parameters, List.filterMap_append,
      List.getLast?_append]
    cases h : upper.parameters.text? name <;> simp [h]
  positions position := by
    rw [getElem?_interfaces_overlay, Option.map_eq_none_iff, Option.merge_eq_none_iff,
      follows.positions]
    simp [or_imp, forall_and]
  interfaces position nic there := by
    rw [getElem?_interfaces_overlay] at there
    rw [List.filterMap_append, List.filterMap_cons, List.filterMap_nil]
    -- Where only one side has the position its interface is settled alone.
    rcases below : top.interfaces[position]? with _ | lower <;>
      rcases above : upper.interfaces[position]? with _ | higher <;>
      rw [below, above] at there
    case none.none => cases there
    case none.some =>
      obtain rfl := Option.some.inj there
      have first := List.filterMap_eq_nil_iff.2 ((follows.positions position).1 below)
      rw [first]
      exact (Interface.Follows.singleton higher).settle
    case some.none =>
      obtain rfl := Option.some.inj there
      rw [List.append_nil]
      exact (follows.interfaces position lower below).settle
    case some.some =>
      obtain rfl := Option.some.inj there
      exact ((follows.interfaces position lower below).overlay higher).settle
  programs := by
    rw [Records.gather_map_concat, ← follows.programs]
    rfl
  mounts := by
    rw [Records.gather_map_concat, ← follows.mounts]
    rfl
  routes := by
    rw [Records.gather_map_concat, ← follows.routes]
    rfl
  logs := by
    rw [Records.gather_map_concat, ← follows.logs]
    rfl

/-- However many documents are laid over each other, each single value of the outcome is that of the
last one that sets it, each kernel parameter that of the last one that has it, and the record lists
hold the records of one document after the other, but for those that one before has too. -/
theorem overlayAll_follows (base : Document) (layers : List (Document × Time)) :
    (base.overlayAll layers).Follows (base :: layers.map (·.1)) := by
  induction layers using List.reverseRecOn with
  | nil => exact follows_singleton base
  | append_singleton layers layer ih =>
    have run : base.overlayAll (layers ++ [layer]) =
        (base.overlayAll layers).overlay layer.1 layer.2 := List.foldl_append
    rw [run, List.map_append, List.map_singleton, ← List.cons_append]
    exact ih.overlay layer.1 layer.2

end Document
end Appliance
