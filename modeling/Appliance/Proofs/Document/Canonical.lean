import Appliance.Proofs.Document.Content
import Appliance.Proofs.Document.Json
import Appliance.Proofs.Json.Integer

/-! What the canonical text of a document says of its content. Two documents have the same text
where they have the same content, but that numbers are written as the nearest floating-point
numbers, and the number of inodes is the only one that can be too large to be one itself. -/
namespace Appliance

open Json (canonicalForm canonicalMembers canonicalNumber nearest reread)

section Forms

variable {ρ : Type} {schema : Record ρ} {a b : ρ}

theorem Json.canonicalForm_congr {a b : List (String × Value)}
    (same : canonicalMembers a = canonicalMembers b) :
    canonicalForm (.table a) = canonicalForm (.table b) := by
  rw [canonicalForm, canonicalForm, same]

theorem Record.canonicalForm_congr (same : ∀ field ∈ schema.fields,
    (field.write a).map canonicalForm = (field.write b).map canonicalForm) :
    canonicalForm (.table (schema.members a)) = canonicalForm (.table (schema.members b)) := by
  have forms (record : ρ) : canonicalMembers (schema.members record) =
      schema.fields.filterMap fun field =>
        ((field.write record).map canonicalForm).map (field.name, ·) := by
    rw [Json.canonicalMembers_eq, members, List.map_filterMap]
    refine List.filterMap_congr fun field _ => ?_
    simp only [Option.map_map]
    rfl
  refine Json.canonicalForm_congr ?_
  rw [forms, forms]
  exact List.filterMap_congr fun field mem => by rw [same field mem]

theorem Field.write_congr {α : Type} [DecidableEq α] [Inhabited α] {name : String}
    {codec : Codec α} {get : ρ → α} {set : ρ → α → ρ} (same : get a = get b) :
    (Field.of name codec get set).write a = (Field.of name codec get set).write b := by
  simp only [Field.of, same]

end Forms

def Machine.withoutInodes (machine : Machine) : Machine := { machine with inodes := 0 }

def Document.withoutInodes (doc : Document) : Document :=
  { doc with machine := doc.machine.withoutInodes }

theorem Json.exact_canonicalNumber : Exact canonicalNumber (2 ^ 53 + 1) := by
  intro n below
  obtain ⟨n, rfl⟩ := Int.eq_ofNat_of_zero_le below.1
  exact canonicalNumber_of_le (Nat.le_of_lt_succ (Int.ofNat_lt.1 below.2))

namespace Machine

variable {a b : Machine}

theorem eq_of_reread (same : reread canonicalNumber (.table (schema.members a)) =
    reread canonicalNumber (.table (schema.members b))) :
    a.withoutInodes = b.withoutInodes ∧ nearest a.inodes.toNat = nearest b.inodes.toNat := by
  have each := fun field => @Record.write_eq_of_reread _ _ schema (by decide) a b same field
  simp only [schema, List.forall_mem_cons] at each
  obtain ⟨cpus, ram, inodes, kernel, disk, -⟩ := each
  have survives {α : Type} {codec : Codec α} {a : α}
      (carries : codec.Carries .json (·.IsInline (2 ^ 53 + 1)) a) :
      codec.Survives canonicalNumber a := carries.survives Json.exact_canonicalNumber
  constructor
  · have cpus := Field.get_eq_of_write cpus (survives (Codec.carries_u32 (by decide) _))
      (survives (Codec.carries_u32 (by decide) _))
    have ram := Field.get_eq_of_write ram (survives (Codec.carries_size _))
      (survives (Codec.carries_size _))
    have kernel := Field.get_eq_of_write kernel (survives (Codec.carries_string _))
      (survives (Codec.carries_string _))
    have disk := Field.get_eq_of_write disk (survives (Codec.carries_size _))
      (survives (Codec.carries_size _))
    rw [withoutInodes, withoutInodes, cpus, ram, kernel, disk]
  · rcases Field.write_cases inodes with ⟨first, second⟩ | ⟨-, -, same⟩
    · rw [first, second]
    · exact (Json.canonicalNumber_eq_iff a.inodes.toNat_lt b.inodes.toNat_lt).1 same

theorem withoutInodes_eq_self (none : a.inodes = 0) : a.withoutInodes = a := by
  rw [withoutInodes, ← none]

theorem form_eq (same : a.withoutInodes = b.withoutInodes)
    (near : nearest a.inodes.toNat = nearest b.inodes.toNat) :
    (if a = default then none else some (schema.codec.write a)).map canonicalForm =
      (if b = default then none else some (schema.codec.write b)).map canonicalForm := by
  by_cases noneA : a.inodes = 0
  · have noneB : b.inodes = 0 := by
      refine UInt64.toNat_inj.1 (Json.eq_zero_of_nearest_eq b.inodes.toNat_lt ?_)
      rw [← near, noneA]
      rfl
    rw [← withoutInodes_eq_self noneA, same, withoutInodes_eq_self noneB]
  · have noneB : b.inodes ≠ 0 := by
      intro noneB
      refine noneA (UInt64.toNat_inj.1 (Json.eq_zero_of_nearest_eq a.inodes.toNat_lt ?_))
      rw [near, noneB]
      rfl
    have setA : a ≠ default := fun empty => noneA (by rw [empty]; rfl)
    have setB : b ≠ default := fun empty => noneB (by rw [empty]; rfl)
    have forms : canonicalForm (.table (schema.members a)) =
        canonicalForm (.table (schema.members b)) := by
      have kept {α : Type} (get : Machine → α) : get a.withoutInodes = get b.withoutInodes :=
        congrArg get same
      refine Record.canonicalForm_congr ?_
      simp only [schema, List.forall_mem_cons]
      refine ⟨?cpus, ?ram, ?inodes, ?kernel, ?disk, by simp⟩
      case cpus => exact congrArg _ (Field.write_congr (kept (·.cpus)))
      case ram => exact congrArg _ (Field.write_congr (kept (·.ram)))
      case inodes =>
        have number := Json.canonicalInteger_congr a.inodes.toNat_lt b.inodes.toNat_lt near
        have spelled : canonicalForm (Codec.u64.write a.inodes) =
            canonicalForm (Codec.u64.write b.inodes) := congrArg String.toList number
        have someA : ¬a.inodes = default := noneA
        have someB : ¬b.inodes = default := noneB
        simp only [Field.of, if_neg someA, if_neg someB, Option.map_some, spelled]
      case kernel => exact congrArg _ (Field.write_congr (kept (·.kernel)))
      case disk => exact congrArg _ (Field.write_congr (kept (·.diskSize)))
    rw [if_neg setA, if_neg setB]
    exact congrArg some forms

end Machine

namespace Document

variable {a b : Document}

theorem reread_eq_of_canonicalText_eq (spelledA : a.WellSpelled) (spelledB : b.WellSpelled)
    (same : a.canonicalText = b.canonicalText) :
    reread canonicalNumber a.toValue = reread canonicalNumber b.toValue := by
  have readA := (@legible_toValue Json.limit 123 _ (by decide) spelledA
    a.machine.inodes.toNat_lt).read_canonical
  have readB := (@legible_toValue Json.limit 123 _ (by decide) spelledB
    b.machine.inodes.toNat_lt).read_canonical
  exact Option.some.inj (readA.symm.trans ((congrArg Json.read same).trans readB))

theorem eq_of_canonicalText_eq (spelledA : a.WellSpelled) (spelledB : b.WellSpelled)
    (same : a.canonicalText = b.canonicalText) :
    a.withoutInodes.content = b.withoutInodes.content ∧
      nearest a.machine.inodes.toNat = nearest b.machine.inodes.toNat := by
  have exact := Json.exact_canonicalNumber
  have each := fun field => @Record.write_eq_of_reread _ _ schema (by decide) a b
    (reread_eq_of_canonicalText_eq spelledA spelledB same) field
  simp only [schema, List.forall_mem_cons] at each
  obtain ⟨program, network, system, info, vm, nfs, route, logging, sysctl, -⟩ := each
  have programs := Field.get_eq_of_write program (Program.survives_records exact _)
    (Program.survives_records exact _)
  have interfaces := Field.get_eq_of_write network
    (Interface.survives_records exact (by decide) spelledA.interfaces)
    (Interface.survives_records exact (by decide) spelledB.interfaces)
  have settings := Field.get_eq_of_write system
    (Settings.survives exact (by decide) spelledA.dns spelledA.ntp)
    (Settings.survives exact (by decide) spelledB.dns spelledB.ntp)
  have package := Field.get_eq_of_write info (Package.survives exact _) (Package.survives exact _)
  have mounts := Field.get_eq_of_write nfs (Mount.survives_records exact _)
    (Mount.survives_records exact _)
  have routes := Field.get_eq_of_write route (Route.survives_records exact _)
    (Route.survives_records exact _)
  have logs := Field.get_eq_of_write logging (LogSink.survives_records exact _)
    (LogSink.survives_records exact _)
  have parameters := Field.get_eq_of_write sysctl (Codec.survives_parameters exact _)
    (Codec.survives_parameters exact _)
  obtain ⟨machine, near⟩ : a.machine.withoutInodes = b.machine.withoutInodes ∧
      nearest a.machine.inodes.toNat = nearest b.machine.inodes.toNat := by
    rcases Field.write_cases vm with ⟨first, second⟩ | ⟨-, -, same⟩
    · rw [first, second]
      exact ⟨rfl, rfl⟩
    · exact Machine.eq_of_reread same
  refine ⟨?_, near⟩
  rw [content, content, withoutInodes, withoutInodes, programs, interfaces, settings, package,
    machine, mounts, routes, logs, parameters]

theorem canonicalText_eq (same : a.withoutInodes.content = b.withoutInodes.content)
    (near : nearest a.machine.inodes.toNat = nearest b.machine.inodes.toNat) :
    a.canonicalText = b.canonicalText := by
  have kept {α : Type} (get : Document → α) :
      get a.withoutInodes.content = get b.withoutInodes.content := congrArg get same
  have forms : canonicalForm (.table (schema.members a)) =
      canonicalForm (.table (schema.members b)) := by
    refine Record.canonicalForm_congr ?_
    simp only [schema, List.forall_mem_cons]
    refine ⟨?program, ?network, ?system, ?info, ?vm, ?nfs, ?route, ?logging, ?sysctl, by simp⟩
    case program => exact congrArg _ (Field.write_congr (kept (·.programs)))
    case network => exact congrArg _ (Field.write_congr (kept (·.interfaces)))
    case system => exact congrArg _ (Field.write_congr (kept (·.settings)))
    case info => exact congrArg _ (Field.write_congr (kept (·.package)))
    case vm => exact Machine.form_eq (kept (·.machine)) near
    case nfs => exact congrArg _ (Field.write_congr (kept (·.mounts)))
    case route => exact congrArg _ (Field.write_congr (kept (·.routes)))
    case logging => exact congrArg _ (Field.write_congr (kept (·.logs)))
    case sysctl => exact congrArg _ (Field.write_congr (kept (·.parameters)))
  exact congrArg String.ofList forms

theorem content_eq_of_inodes_eq (same : a.withoutInodes.content = b.withoutInodes.content)
    (inodes : a.machine.inodes = b.machine.inodes) : a.content = b.content := by
  have restored (doc : Document) : { doc.withoutInodes.content with
      machine := { doc.withoutInodes.content.machine with inodes := doc.machine.inodes } } =
      doc.content := rfl
  rw [← restored a, ← restored b, same, inodes]

theorem withoutInodes_content_congr (same : a.content = b.content) :
    a.withoutInodes.content = b.withoutInodes.content := by
  have carried : a.content.withoutInodes.content = b.content.withoutInodes.content := by rw [same]
  exact carried

/-- Two documents have the same canonical bytes where they say the same but for their inodes, and
these have the same nearest floating-point number; where the inodes are at most two to the 53rd,
that is where they say the same. So it is with their digests, as long as those of these bytes do not
collide. -/
theorem canonicalText_toUTF8_eq_iff {a b : Document} (spelledA : a.WellSpelled)
    (spelledB : b.WellSpelled) :
    (a.canonicalText.toUTF8 = b.canonicalText.toUTF8 ↔
      a.withoutInodes.sameContent b.withoutInodes = true ∧
        nearest a.machine.inodes.toNat = nearest b.machine.inodes.toNat) ∧
    (a.machine.inodes.toNat ≤ 2 ^ 53 → b.machine.inodes.toNat ≤ 2 ^ 53 →
      (a.canonicalText.toUTF8 = b.canonicalText.toUTF8 ↔ a.sameContent b = true)) ∧
    ((a.digest = b.digest → a.canonicalText.toUTF8 = b.canonicalText.toUTF8) →
      (a.digest = b.digest ↔
        a.withoutInodes.sameContent b.withoutInodes = true ∧
          nearest a.machine.inodes.toNat = nearest b.machine.inodes.toNat)) := by
  have bytes : a.canonicalText.toUTF8 = b.canonicalText.toUTF8 ↔
      a.withoutInodes.sameContent b.withoutInodes = true ∧
        nearest a.machine.inodes.toNat = nearest b.machine.inodes.toNat := by
    rw [toUTF8_eq_iff, sameContent_iff]
    exact ⟨eq_of_canonicalText_eq spelledA spelledB, fun ⟨same, near⟩ => canonicalText_eq same near⟩
  refine ⟨bytes, fun fewA fewB => ?_, fun collisionFree => ?_⟩
  · rw [bytes, sameContent_iff, sameContent_iff]
    constructor
    · rintro ⟨same, near⟩
      exact content_eq_of_inodes_eq same (UInt64.toNat_inj.1 (Json.eq_of_nearest_eq fewA fewB near))
    · intro same
      have inodes : a.content.machine.inodes = b.content.machine.inodes := by rw [same]
      exact ⟨withoutInodes_content_congr same, congrArg (nearest ·.toNat) inodes⟩
  · rw [← bytes]
    exact ⟨collisionFree, fun same => congrArg Sha256.hexDigest same⟩

theorem canonicalText_toUTF8_eq_iff_of_inodes :
    let most : Document := { machine := { inodes := 0x20000000000000 }, changed := some ⟨5⟩ }
    let more : Document := { machine := { inodes := 0x20000000000001 } }
    let fewer : Document := { machine := { inodes := 0x1fffffffffffff } }
    most.digest = more.digest ∧ most.canonicalText.toUTF8 ≠ fewer.canonicalText.toUTF8 := by
  intro most more fewer
  have spelledMost : most.WellSpelled := .of_no_entries rfl rfl
  have spelledMore : more.WellSpelled := .of_no_entries rfl rfl
  have spelledFewer : fewer.WellSpelled := .of_no_entries rfl rfl
  have ⟨bytes, _, digests⟩ := canonicalText_toUTF8_eq_iff spelledMost spelledMore
  have near : nearest most.machine.inodes.toNat = nearest more.machine.inodes.toNat := by
    decide +kernel
  have same : most.withoutInodes.sameContent more.withoutInodes = true := by decide
  have exact := (canonicalText_toUTF8_eq_iff spelledMost spelledFewer).2.1 (by decide) (by decide)
  have other : ¬most.sameContent fewer = true := by decide
  exact ⟨(digests fun _ => bytes.2 ⟨same, near⟩).2 ⟨same, near⟩, fun equal => other (exact.1 equal)⟩

/-- Two numbers of inodes that have the same nearest floating-point number. -/
theorem exists_equal_digests_of_other_inodes :
    let a : Document := { machine := { inodes := 0x20000000000000 } }
    let b : Document := { machine := { inodes := 0x20000000000001 } }
    a.WellSpelled ∧ b.WellSpelled ∧ a.canonicalText.toUTF8 = b.canonicalText.toUTF8 ∧
      a.digest = b.digest ∧ a.sameContent b = false := by
  intro a b
  have near : nearest a.machine.inodes.toNat = nearest b.machine.inodes.toNat := by decide +kernel
  have text : a.canonicalText = b.canonicalText := canonicalText_eq (by decide) near
  exact ⟨.of_no_entries rfl rfl, .of_no_entries rfl rfl, congrArg String.toUTF8 text,
    congrArg (fun text : String => Sha256.hexDigest text.toUTF8) text, by decide⟩

end Document

end Appliance
