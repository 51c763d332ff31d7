import Appliance.Document.Text
import Appliance.Proofs.Schema.Gap

/-! What is taken for the date of a package: a text, a time in the notation of TOML, and any table
that has a text first. A time is looked at as a table with its text in it, and a table that is none
is not told from it. -/
namespace Appliance

/-- Does the value give a text as a date? In JSON a table may do so only with nothing else in it. -/
inductive Value.GivesDate (format : Format) : Value → String → Prop
  | string (text : String) : GivesDate format (.string text) text
  | datetime (time : Datetime) : GivesDate format (.datetime time) time.text
  | table (name text : String) {others : List (String × Value)}
      (alone : format = .json → others = []) :
      GivesDate format (.table ((name, .string text) :: others)) text

variable {format : Format} {value : Value} {text : String}

theorem Codec.read_string_eq_ok_iff :
    string.read format value = .ok text ↔ value = .string text := by
  cases value <;> simp [string, Value.mismatch]

theorem Value.GivesDate.read_date (gives : value.GivesDate format text) :
    Codec.date.read format value = .ok text := by
  cases gives with
  | string => rfl
  | datetime time =>
    simp [Codec.date, members?, Codec.string, bind, Except.bind, pure, Except.pure]
  | @table name text others alone =>
    have single : ¬ (format = .json ∧ others ≠ []) := fun both => both.2 (alone both.1)
    simp only [Codec.date, members?, Codec.string, bind, Except.bind, if_neg single]
    rfl

theorem Value.givesDate_of_read (taken : Codec.date.read format value = .ok text) :
    value.GivesDate format text := by
  cases value with
  | string given =>
    obtain rfl := Except.ok.inj taken
    exact .string given
  | datetime time =>
    obtain rfl := Except.ok.inj ((GivesDate.datetime time).read_date.symm.trans taken)
    exact .datetime time
  | table members =>
    rcases members with _ | ⟨⟨name, first⟩, others⟩
    · cases taken
    · obtain ⟨given, head, rest⟩ := Except.bind_eq_ok_iff.1 taken
      obtain rfl := Codec.read_string_eq_ok_iff.1 head
      split at rest
      · cases rest
      · next alone =>
        obtain rfl := Except.ok.inj rest
        exact .table name given fun json => by simpa [json] using alone
  | _ => cases taken

theorem Package.separate_date :
    schema.Separate format "date" .date (·.date) ({ · with date := · }) where
  distinct := by decide
  mem := List.mem_of_getElem? (i := 5) rfl
  get_set _ _ := rfl
  others := by
    simp only [schema, List.forall_mem_cons]
    refine ⟨?name, ?author, ?summary, ?description, ?url, ?date, ?version, by simp⟩
    case date => exact fun other => absurd rfl other
    all_goals exact fun _ _ => Field.keeps_of fun _ _ kept => kept

theorem Document.separate_package :
    schema.Separate format "info" Package.schema.codec (·.package) ({ · with package := · }) where
  distinct := by decide
  mem := List.mem_of_getElem? (i := 3) rfl
  get_set _ _ := rfl
  others := by
    simp only [schema, List.forall_mem_cons]
    refine ⟨?program, ?network, ?system, ?info, ?vm, ?nfs, ?route, ?logging, ?sysctl, by simp⟩
    case info => exact fun other => absurd rfl other
    all_goals exact fun _ _ => Field.keeps_of fun _ _ kept => kept

namespace Document

/-- Whatever else a document says, and whether its fields stand under their names or in their
positions, it is read with a value as the date of the package just if the value gives the date that
is read, and the document is read in the same way with the text of the date there. -/
theorem ofValue_with_date_eq_ok_iff {inDocument inPackage : Gap} {doc : Document}
    (package : inDocument.IsFor schema "info") (date : inPackage.IsFor Package.schema "date") :
    ofValue format (inDocument.fill (inPackage.fill value)) = .ok doc ↔
      value.GivesDate format doc.package.date ∧
        ofValue format (inDocument.fill (inPackage.fill (.string doc.package.date))) = .ok doc := by
  obtain ⟨around, kept, readDocument⟩ :
      inDocument.FillsOnly schema format Package.schema.codec (·.package) :=
    separate_package.fillsOnly package
  obtain ⟨beside, keptDate, readPackage⟩ :
      inPackage.FillsOnly Package.schema format .date (·.date) :=
    Package.separate_date.fillsOnly date
  have told (value : Value) : ofValue format (inDocument.fill (inPackage.fill value)) = .ok doc ↔
      value.GivesDate format doc.package.date ∧
        beside doc.package.date doc.package ∧ around doc.package doc := by
    refine (readDocument _ _).trans ⟨?_, ?_⟩
    · rintro ⟨read, filled, rest⟩
      obtain ⟨text, taken, others⟩ := (readPackage _ _).1 filled
      obtain rfl := kept _ _ rest
      obtain rfl := keptDate _ _ others
      exact ⟨Value.givesDate_of_read taken, others, rest⟩
    · rintro ⟨gives, others, rest⟩
      exact ⟨_, (readPackage _ _).2 ⟨_, gives.read_date, others⟩, rest⟩
  rw [told, told]
  exact ⟨fun ⟨gives, others⟩ => ⟨gives, .string _, others⟩,
    fun ⟨gives, _, others⟩ => ⟨gives, others⟩⟩

theorem ofValue_with_date_eq_ok_iff_of_table :
    let inDocument : Gap := .member [("vm", .table [("cpus", .integer 2)])] "info"
      [("sysctl", .table [])]
    let inPackage : Gap := .member [("name", .string "api")] "date" [("url", .string "")]
    let inItems : Gap :=
      .item [.string "api", .string "", .string "", .string "", .string ""] [.string "1.0"]
    let may : Value := .datetime (.date ⟨2020, 5, 1⟩)
    let parts : Value := .table [("year", .string "2020"), ("month", .integer 5)]
    inDocument.IsFor schema "info" ∧ inPackage.IsFor Package.schema "date" ∧
      inItems.IsFor Package.schema "date" ∧
      ofValue .toml (inDocument.fill (inPackage.fill may)) =
        .ok { machine := { cpus := 2 }, package := { name := "api", date := "2020-05-01" } } ∧
      ofValue .toml (inDocument.fill (inItems.fill parts)) =
        .ok { machine := { cpus := 2 }
              package := { name := "api", date := "2020", version := "1.0" } } ∧
      (∀ doc, ofValue .json (inDocument.fill (inPackage.fill parts)) ≠ .ok doc) ∧
      ∀ doc, ofValue .toml (inDocument.fill (inPackage.fill (.array [.string "2020"]))) ≠ .ok doc := by
  intro inDocument inPackage inItems may parts
  have info : inDocument.IsFor schema "info" := ⟨rfl, by decide⟩
  have date : inPackage.IsFor Package.schema "date" := ⟨rfl, by decide⟩
  have sixth : inItems.IsFor Package.schema "date" := rfl
  have crowded (text : String) :
      ¬ (Value.table [("year", .string "2020"), ("month", .integer 5)]).GivesDate .json text := by
    rintro (_ | _ | ⟨_, _, alone⟩)
    exact nomatch alone rfl
  refine ⟨info, date, sixth, ?_, ?_, fun doc read => ?_, fun doc read => ?_⟩
  · exact (ofValue_with_date_eq_ok_iff info date).2 ⟨.datetime _, rfl⟩
  · exact (ofValue_with_date_eq_ok_iff info sixth).2 ⟨.table _ _ (by simp), rfl⟩
  · exact crowded _ ((ofValue_with_date_eq_ok_iff info date).1 read).1
  · exact nomatch ((ofValue_with_date_eq_ok_iff info date).1 read).1

/-- A table that is no time is taken for a date. -/
theorem exists_table_taken_for_date :
    let dated (date : Value) : Value := .table [("info", .table [("date", date)])]
    let given : Value := .table [("year", .string "2020")]
    ofValue .toml (dated given) = .ok { package := { date := "2020" } } ∧
      ofValue .json (dated given) = .ok { package := { date := "2020" } } ∧
      ¬ ∀ (format : Format) (value : Value) (doc : Document),
        ofValue format (dated value) = .ok doc →
          (∃ text, value = .string text) ∨ ∃ time, value = .datetime time := by
  intro dated given
  refine ⟨rfl, rfl, fun dates => ?_⟩
  rcases dates .toml given { package := { date := "2020" } } rfl with ⟨_, same⟩ | ⟨_, same⟩ <;>
    exact nomatch same

end Document
end Appliance
