import Appliance.Proofs.Document.Writable
import Appliance.Proofs.Files.Written
import Appliance.Proofs.Layers

/-! Documents made of layers, written to a file and loaded from it. Every layer was read from a text
and so has one; laying layers over each other keeps that and settles the outcome, which is therefore
loaded as it was written. -/
namespace Appliance

section Programs

variable {σ ε α β : Type}

def Yields (program : ExceptT ε (StateM σ) α) (P : α → Prop) : Prop :=
  Ends (fun _ => True) program.run fun r => ∀ a, r = .ok a → P a

variable {P : α → Prop} {Q : β → Prop}

theorem Yields.pure {a : α} (h : P a) : Yields (pure a : ExceptT ε (StateM σ) α) P :=
  fun _ _ => ⟨fun _ same => Except.ok.inj same ▸ h, trivial⟩

theorem Yields.throw (e : ε) : Yields (throw e : ExceptT ε (StateM σ) α) P :=
  fun _ _ => ⟨nofun, trivial⟩

theorem Yields.bind {program : ExceptT ε (StateM σ) α} {next : α → ExceptT ε (StateM σ) β}
    (first : Yields program P) (rest : ∀ a, P a → Yields (next a) Q) :
    Yields (program >>= next) Q :=
  Ends.bind first (fun a given => rest a (given a rfl)) nofun

theorem Yields.any (program : ExceptT ε (StateM σ) α) : Yields program fun _ => True :=
  fun _ _ => ⟨fun _ _ => trivial, trivial⟩

theorem Yields.lift {operation : StateM σ α} (h : ∀ s, P (operation.run s).1) :
    Yields (liftM operation : ExceptT ε (StateM σ) α) P :=
  fun s _ => ⟨fun _ same => Except.ok.inj same ▸ h s, trivial⟩

theorem Yields.foldlM {step : β → α → ExceptT ε (StateM σ) β} {xs : List α}
    (keeps : ∀ b x, Q b → Yields (step b x) Q) {b : β} (h : Q b) : Yields (xs.foldlM step b) Q := by
  induction xs generalizing b with
  | nil => exact .pure h
  | cons x xs ih => exact (keeps b x h).bind fun _ => ih

end Programs

namespace Layered

variable {σ : Type} [Host (StateM σ)]

theorem readLayer_writable (path : String) :
    Yields (readLayer path : ExceptT LayerError (StateM σ) _) (·.1.Writable) := by
  refine (Yields.any _).bind fun bytes _ => ?_
  refine (Yields.any _).bind fun info _ => ?_
  rcases String.fromUTF8? bytes with _ | text
  · exact .throw _
  · cases decoded : Document.decode text with
    | error fault =>
      simp only [decoded]
      exact .throw _
    | ok doc =>
      simp only [decoded]
      have ⟨spelled, inodes⟩ := Document.writable_of_decode decoded
      exact .pure ⟨⟨spelled.interfaces, spelled.dns, spelled.ntp⟩, inodes⟩

theorem addLayer_storable {below : Document × List Source} (storable : below.1.Storable)
    (path : String) :
    Yields (addLayer below path : ExceptT LayerError (StateM σ) _) (·.1.Storable) := by
  refine (readLayer_writable path).bind fun layer fit => ?_
  refine (Yields.any _).bind fun now _ => ?_
  exact .pure ⟨storable.writable.overlay fit now, Document.settled_overlay _ _ now⟩

theorem ground_storable (builtin : Bool) (s : σ) :
    (StateT.run (@ground (StateM σ) _ _ builtin) s).1.1.Storable := by
  have nothing : Document.Storable {} :=
    ⟨⟨⟨by simp, by simp, by simp⟩, by decide⟩, Document.settle_eq_self_iff.1 (by decide)⟩
  have defaults : (Builtin.document {}).Writable :=
    ⟨⟨by simp [Builtin.document], by simp [Builtin.document], by simp [Builtin.document]⟩,
      by decide⟩
  cases builtin with
  | false => exact nothing
  | true =>
    exact ⟨nothing.writable.overlay defaults _, Document.settled_overlay {} (Builtin.document {}) _⟩

theorem build_storable (paths : List String) (builtin : Bool) :
    Yields (build paths builtin : ExceptT LayerError (StateM σ) _) (·.document.Storable) := by
  rw [build]
  split_ifs
  · exact .throw _
  · have ground : Yields (liftM (@ground (StateM σ) _ _ builtin) : ExceptT LayerError (StateM σ) _)
        (·.1.Storable) := .lift (ground_storable builtin)
    refine ground.bind fun ground storable => ?_
    refine (Yields.foldlM (fun _ path kept => addLayer_storable kept path) storable).bind
      fun top kept => ?_
    exact (Yields.any _).bind fun now _ => .pure kept

end Layered

namespace Document

variable {doc : Document} {path : String} {disk made : Disk}

theorem exists_of_run_writeFile
    (written : (doc.writeFile path : ExceptT DocumentError (StateM Disk) Unit).run.run disk =
      (.ok (), made)) :
    ∃ text, doc.toToml = .ok text ∧ disk.write path text.toUTF8 = .ok made := by
  rw [writeFile] at written
  cases printed : doc.toToml with
  | error fault =>
    rw [printed] at written
    cases written
  | ok text =>
    rw [printed] at written
    exact ⟨text, rfl, eq_ok_of_run_change _ written⟩

theorem Storable.loadFile_of_write (storable : doc.Storable) {text : String}
    (printed : doc.toToml = .ok text) (written : disk.write path text.toUTF8 = .ok made) :
    ∃ loaded, (loadFile path : ExceptT DocumentError (StateM Disk) Document).run.run made =
      (.ok loaded, made) ∧ loaded.content = doc.content := by
  obtain ⟨same, toml, decoded, settled⟩ := storable.exists_toToml
  obtain rfl : text = same := Except.ok.inj (printed.symm.trans toml)
  obtain ⟨read, info, dated⟩ := Disk.read_of_write written
  have holds : made.files.Holds path text.toUTF8
      { doc.content with changed := some info.modified } :=
    .intro read dated (fromUTF8?_toUTF8 text) decoded
  have gives : made.files.Gives path (.file path (Sha256.hexDigest text.toUTF8), _) :=
    ⟨_, holds, rfl⟩
  have ends := made.still.loadFile_of_gives gives made rfl
  refine ⟨_, Prod.ext ends.1 ends.2, ?_⟩
  calc ({ doc.content with changed := some info.modified } : Document).settle.content
      = doc.content.settle.content := rfl
    _ = doc.content := by rw [settled]; rfl

end Document

namespace Layered

open Document

/-- A document built of layers has a text, and where it was written it is loaded with the content
and the digest that the build reported. -/
theorem loads_what_was_built {σ : Type} [Host (StateM σ)] {s : σ} {paths : List String}
    {builtin : Bool} {layered : Layered} (built : outcome (build paths builtin) s = .ok layered) :
    (∃ text, layered.document.toToml = .ok text) ∧
    ∀ (path : String) (disk made : Disk),
      (layered.document.writeFile path : ExceptT DocumentError (StateM Disk) Unit).run.run disk =
        (.ok (), made) →
      ∃ doc, outcome (loadFile path) made = .ok doc ∧
        doc.content = layered.document.content ∧ doc.digest = layered.document.digest := by
  have storable := (build_storable paths builtin s trivial).1 layered built
  constructor
  · obtain ⟨text, printed, -⟩ := storable.exists_toToml
    exact ⟨text, printed⟩
  · intro path disk made written
    obtain ⟨text, printed, there⟩ := exists_of_run_writeFile written
    obtain ⟨doc, loaded, same⟩ := storable.loadFile_of_write printed there
    exact ⟨doc, by rw [outcome, loaded], same, digest_congr same⟩

theorem loads_gateway_over_builtin :
    ∃ (disk made : Disk) (layered : Layered) (doc : Document),
      outcome (build ["/gate"] true) disk = .ok layered ∧
      (layered.document.writeFile "/merged" : ExceptT DocumentError (StateM Disk) Unit).run.run
        disk = (.ok (), made) ∧
      outcome (loadFile "/merged") made = .ok doc ∧ doc.digest = layered.document.digest ∧
      doc.settings.dns = [.plain "9.9.9.9"] ∧ doc.settings.user = "appliance" := by
  let upper : Document := { settings := { dns := [.plain "x", .retract "x", .plain "9.9.9.9"] } }
  have spelled : upper.WellSpelled := ⟨by simp [upper], by decide, by decide⟩
  obtain ⟨text, -, decoded⟩ := Document.exists_toToml spelled (by decide)
  let disk : Disk := { nodes := [(["gate"], .file ⟨text.toUTF8, ⟨5⟩, false⟩)] }
  have read : disk.files.read "/gate" = .ok text.toUTF8 := rfl
  have dated : disk.files.info "/gate" = .ok ⟨true, _, ⟨5⟩⟩ := rfl
  have gives : disk.files.Gives "/gate" (.file "/gate" (Sha256.hexDigest text.toUTF8),
      { upper.content with changed := some ⟨5⟩ }) :=
    ⟨_, .intro read dated (fromUTF8?_toUTF8 text) decoded, rfl⟩
  obtain ⟨layered, built, content, -⟩ :=
    (disk.still.build_of_gives true (.inr rfl) (.cons gives .nil) disk rfl).1
  obtain ⟨⟨merged, printed⟩, loads⟩ := loads_what_was_built built
  let made := disk.put ["merged"] (.file ⟨merged.toUTF8, ⟨0⟩, false⟩)
  have written : (layered.document.writeFile "/merged" :
      ExceptT DocumentError (StateM Disk) Unit).run.run disk = (.ok (), made) := by
    rw [Document.writeFile, printed]
    exact run_change_ok _ (show disk.write "/merged" merged.toUTF8 = .ok made from rfl)
  obtain ⟨doc, loaded, same, digest⟩ := loads "/merged" disk made written
  have piled : doc.content =
      ((Builtin.document {}).pile [{ upper.content with changed := some ⟨5⟩ }]).content :=
    same.trans content
  have settings : doc.settings =
      { Builtin.document {} |>.settings with dns := [.plain "9.9.9.9"] } :=
    (congrArg (·.settings) piled).trans (by decide)
  exact ⟨disk, made, layered, doc, built, written, loaded, digest, by rw [settings],
    by rw [settings]; rfl⟩

end Layered
end Appliance
