import Appliance.Document.Text
import Appliance.Proofs.Document.Schema
import Appliance.Proofs.Toml.Printer
import Appliance.Proofs.Toml.Range

/-! Documents and their texts. Only a number of inodes that the format has no integer for keeps a
document from being written, and every text is read as the document that it was written for. -/
namespace Appliance.Document

variable {doc : Document}

theorem print_members_eq_none (large : Toml.limit ≤ doc.machine.inodes.toNat) :
    Toml.print (schema.members doc) = none := by
  have set : doc.machine.inodes ≠ default := by
    intro same
    rw [same] at large
    exact absurd large (by decide)
  have table : ("vm", .table (Machine.schema.members doc.machine)) ∈ schema.members doc := by
    have written : doc.machine ≠ default := fun same => set (by rw [same]; rfl)
    refine List.mem_filterMap.2 ⟨
      .of "vm" Machine.schema.codec (·.machine) ({ · with machine := · }), by simp [schema], ?_⟩
    simp [Field.of, written, Record.codec]
  have integer : ("inodes", .integer doc.machine.inodes.toNat) ∈
      Machine.schema.members doc.machine := by
    refine List.mem_filterMap.2 ⟨.of "inodes" .u64 (·.inodes) ({ · with inodes := · }),
      by simp [Machine.schema], ?_⟩
    simp [Field.of, set, Codec.u64]
  exact Toml.print_eq_none table integer (Int.ofNat_le.2 large)

theorem exists_toToml (spelled : doc.WellSpelled) (small : doc.machine.inodes.toNat < Toml.limit) :
    ∃ text, doc.toToml = .ok text ∧ decode text = .ok doc.content := by
  have restores : schema.Restores .toml (·.IsBlock Toml.limit) doc doc.content :=
    Document.restores (by decide) spelled small
  obtain ⟨text, printed, read⟩ :=
    Toml.exists_print restores.nodup_members fun m hm => .inr (restores.shape_of_mem m hm)
  have none : (schema.members doc).filter (Toml.isSimple ·.2) = [] :=
    List.filter_eq_nil_iff.2 fun m hm => by
      simp [Toml.isSimple_of_isBlock (restores.shape_of_mem m hm)]
  have all : (schema.members doc).filter (!Toml.isSimple ·.2) = schema.members doc :=
    List.filter_eq_self.2 fun m hm => by
      simp [Toml.isSimple_of_isBlock (restores.shape_of_mem m hm)]
  rw [none, all, List.nil_append] at read
  refine ⟨text, by simp [toToml, printed], ?_⟩
  simp [decode, read, ofValue, restores.read_members]

theorem toToml_eq_error_iff (spelled : doc.WellSpelled) :
    doc.toToml = .error .unwritable ↔ Toml.limit ≤ doc.machine.inodes.toNat := by
  constructor
  · intro unwritable
    by_contra small
    obtain ⟨text, written, -⟩ := exists_toToml spelled (Nat.lt_of_not_le small)
    simp [written] at unwritable
  · intro large
    simp [toToml, print_members_eq_none large]

section Decoded

variable {text : String} (decoded : decode text = .ok doc)
include decoded

theorem exists_read_of_decode :
    ∃ value, Toml.read text = some value ∧ schema.read .toml value = .ok doc := by
  unfold decode at decoded
  split at decoded
  · cases decoded
  · next value read =>
    exact ⟨value, read, Except.eq_ok_of_mapError decoded⟩

theorem wellSpelled_of_decode : doc.WellSpelled := by
  obtain ⟨value, -, read⟩ := exists_read_of_decode decoded
  exact wellSpelled_of_read read

theorem inodes_lt_of_decode : doc.machine.inodes.toNat < Toml.limit := by
  obtain ⟨value, text, read⟩ := exists_read_of_decode decoded
  exact inodes_lt_of_read (by decide) (Toml.fits_of_read text) read

theorem content_of_decode : doc.content = doc := by
  obtain ⟨value, -, read⟩ := exists_read_of_decode decoded
  rw [content, ← changed_of_read read]

end Decoded

/-- A document is read back from its text, and there is one unless it has too many inodes; decoded
documents always have one. -/
theorem decode_toToml :
    (∀ doc : Document, doc.WellSpelled →
      (doc.toToml = .error .unwritable ↔ 0x7fffffffffffffff < doc.machine.inodes.toNat) ∧
      (doc.machine.inodes.toNat ≤ 0x7fffffffffffffff →
        ∃ text, doc.toToml = .ok text ∧ decode text = .ok { doc with changed := none })) ∧
    ∀ text doc, decode text = .ok doc →
      ∃ written, doc.toToml = .ok written ∧ decode written = .ok doc := by
  have limit : Toml.limit = 0x7fffffffffffffff + 1 := by decide
  constructor
  · intro doc spelled
    rw [toToml_eq_error_iff spelled, limit, Nat.succ_le_iff]
    exact ⟨Iff.rfl, fun few => exists_toToml spelled (Nat.lt_of_le_of_lt few (by decide))⟩
  · intro text doc decoded
    have written := exists_toToml (wellSpelled_of_decode decoded) (inodes_lt_of_decode decoded)
    rwa [content_of_decode decoded] at written

theorem decode_toToml_of_inodes :
    let closing : Interface := { tcp := [.exclude "22", .retract "80"] }
    let most : Document := { interfaces := [closing], machine := { inodes := 0x7fffffffffffffff } }
    let many : Document := { interfaces := [closing], machine := { inodes := 0x8000000000000000 } }
    (∃ text, most.toToml = .ok text ∧ decode text = .ok most) ∧
      many.toToml = .error .unwritable := by
  intro closing most many
  have entries : closing.WellSpelled := by
    intro p
    cases p <;> decide
  have spelled (doc : Document) (nics : doc.interfaces = [closing]) (dns : doc.settings = {}) :
      doc.WellSpelled :=
    ⟨by simpa [nics] using entries, by simp [dns], by simp [dns]⟩
  exact ⟨(decode_toToml.1 most (spelled most rfl rfl)).2 (by simp [most]),
    (decode_toToml.1 many (spelled many rfl rfl)).1.2 (by simp [many])⟩

end Appliance.Document
