import Appliance.Document.Text
import Appliance.Layers
import Appliance.Proofs.Files.Host
import Appliance.Proofs.Files.Written
import Appliance.Proofs.Schema.Json

/-! Documents and their JSON texts. Every text is read as the document that it was written for, by
itself and among the members of a layered document. -/
namespace Appliance

variable {number : Int → Value} {limit depth : Nat}

namespace Value

open Json (Legible)

variable {value : Value}

theorem IsScalar.legible (scalar : value.IsScalar limit) : Legible (Below limit) depth value := by
  cases value with
  | boolean b => exact .boolean b
  | integer n => exact .integer scalar
  | string s => exact .string s
  | null | float | datetime | array | tables | table => exact scalar.elim

theorem IsInline.legible (inline : value.IsInline limit) :
    Legible (Below limit) (depth + 1) value := by
  rcases inline with scalar | ⟨items, rfl, scalars⟩
  · exact scalar.legible
  · exact .array fun item mem => (scalars item mem).legible

theorem IsFlat.legible {members : List (String × Value)} (flat : IsFlat limit members) :
    Legible (Below limit) (depth + 2) (.table members) :=
  .table flat.distinct fun m mem => (flat.isInline m mem).legible

theorem IsBlock.legible (block : value.IsBlock limit) :
    Legible (Below limit) (depth + 3) value := by
  cases value with
  | table members => exact @IsFlat.legible limit (depth + 1) members block
  | tables items =>
    refine .tables fun item mem => ?_
    obtain ⟨members, rfl, flat⟩ := block.2 item mem
    exact flat.legible
  | null | boolean | integer | string | float | datetime | array => exact block.elim

end Value

section Parts

variable (exact : Json.Exact number limit)
include exact

theorem Program.survives_records (programs : List Program) :
    (Codec.records schema.codec).Survives number programs :=
  .records fun p _ => p.restores.survives exact orderless

theorem Interface.survives_records (wide : UInt32.size ≤ limit) {nics : List Interface}
    (spelled : ∀ nic ∈ nics, nic.WellSpelled) :
    (Codec.records schema.codec).Survives number nics :=
  .records fun nic mem => (restores wide (spelled nic mem)).survives exact orderless

theorem Settings.survives (wide : UInt32.size ≤ limit) {settings : Settings}
    (dns : ∀ e ∈ settings.dns, e.WellSpelled) (ntp : ∀ e ∈ settings.ntp, e.WellSpelled) :
    schema.codec.Survives number settings :=
  (restores wide dns ntp).survives exact orderless

theorem Package.survives (package : Package) : schema.codec.Survives number package :=
  package.restores.survives exact orderless

theorem Machine.survives (wide : UInt32.size ≤ limit) {machine : Machine}
    (inodes : machine.inodes.toNat < limit) : schema.codec.Survives number machine :=
  (restores wide inodes).survives exact orderless

theorem Mount.survives_records (mounts : List Mount) :
    (Codec.records schema.codec).Survives number mounts :=
  .records fun m _ => m.restores.survives exact orderless

theorem Route.survives_records (routes : List Route) :
    (Codec.records schema.codec).Survives number routes :=
  .records fun r _ => r.restores.survives exact orderless

theorem LogSink.survives_records (logs : List LogSink) :
    (Codec.records schema.codec).Survives number logs :=
  .records fun s _ => s.restores.survives exact orderless

end Parts

namespace Document

variable {doc : Document}

theorem legible_toValue (wide : UInt32.size ≤ limit) (spelled : doc.WellSpelled)
    (inodes : doc.machine.inodes.toNat < limit) :
    Json.Legible (Value.Below limit) (depth + 4) doc.toValue := by
  have restores : schema.Restores .json (·.IsBlock limit) doc doc.content :=
    Document.restores wide spelled inodes
  exact .table restores.nodup_members fun m mem => (restores.shape_of_mem m mem).legible

end Document

namespace Layered

variable {layered : Layered}

end Layered

namespace Document

end Document

end Appliance
