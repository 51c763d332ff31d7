import Appliance.Command.Run
import Appliance.Proofs.Stored

/-! Commands that follow one another. A command that reads leaves the disk as it is, so what one
reads is what the one before it wrote there. -/
namespace Appliance

namespace Layered

theorem run_build_disk (paths : List String) (builtin : Bool) (disk : Disk) :
    ((build paths builtin : ExceptT LayerError (StateM Disk) Layered).run.run disk).2 = disk := by
  by_cases given : paths ≠ [] ∨ builtin = true
  · rcases disk.files.all_give_or_first_refuses paths with
      ⟨layers, each⟩ | ⟨before, last, after, error, rfl, passes, refuses⟩
    · exact (disk.still.build_of_gives builtin given each disk rfl).2
    · exact (disk.still.build_of_refuses passes refuses disk rfl).2
  · simp only [ne_eq, not_or, not_not, Bool.not_eq_true] at given
    rw [given.1, given.2]
    rfl

end Layered

namespace Command
open Layered Document

variable {disk made : Disk}

theorem code_failed (message : String) : (failed message).code ≠ 0 :=
  show (1 : UInt8) ≠ 0 by decide

theorem run_report {ε : Type} {message : ε → String} {command : ExceptT ε (StateM Disk) Report} :
    (report message command).run disk = match command.run.run disk with
      | (.ok report, made) => (report, made)
      | (.error error, made) => (failed (message error), made) := by
  rw [report, StateT.run_bind]
  rcases command.run.run disk with ⟨_ | _, _⟩ <;> rfl

/-- What merging files wrote to another file is what checking that file prints. -/
theorem run_check_of_merge {files : List String} {builtin : Bool} {path : String} {report : Report}
    (merged : (merge files builtin false (some path) : StateM Disk Report).run disk =
      (report, made))
    (succeeded : report.code = 0) :
    ∃ layered text, outcome (build files builtin) disk = .ok layered ∧
      layered.document.toToml = .ok text ∧
      (check path false : StateM Disk Report).run made = ({
        output := text
        messages := [
          "Configuration valid: " ++ path,
          "  Programs: " ++ Nat.repr layered.document.programs.length,
          "  Interfaces: " ++ Nat.repr layered.document.interfaces.length,
          "  Digest: " ++ layered.document.digest] }, made) := by
  rw [Command.merge, run_report, run_bind] at merged
  have same := run_build_disk files builtin disk
  rcases built : (build files builtin : ExceptT LayerError (StateM Disk) Layered).run.run disk with
    ⟨error | layered, after⟩
  · rw [built] at merged
    cases merged
    exact absurd succeeded (code_failed _)
  · rw [built] at merged same
    obtain rfl : after = disk := same
    have storable := (build_storable files builtin after trivial).1 layered (by rw [built])
    have run : (mergeToFile layered false path : StateM Disk Report).run after =
        (report, made) := merged
    rw [mergeToFile, if_neg Bool.false_ne_true, run_report, run_map] at run
    rcases written : (layered.document.writeFile path :
      ExceptT DocumentError (StateM Disk) Unit).run.run after with ⟨error | _, reached⟩
    · rw [written] at run
      cases run
      exact absurd succeeded (code_failed _)
    · rw [written] at run
      obtain rfl : reached = made := congrArg Prod.snd run
      obtain ⟨text, printed, there⟩ := exists_of_run_writeFile written
      obtain ⟨doc, loaded, same⟩ := storable.loadFile_of_write printed there
      refine ⟨layered, text, by rw [outcome, built], printed, ?_⟩
      have again : doc.toToml = .ok text := (toToml_congr same).trans printed
      have programs : doc.programs = layered.document.programs := by
        have carried : doc.content.programs = layered.document.content.programs := by rw [same]
        exact carried
      have interfaces : doc.interfaces = layered.document.interfaces := by
        have carried : doc.content.interfaces = layered.document.content.interfaces := by rw [same]
        exact carried
      have shown : Command.text false doc = .ok text := again
      rw [check, run_report, run_bind, loaded]
      simp only [run_bind, shown, programs, interfaces, digest_congr same]
      rfl

end Command
end Appliance
