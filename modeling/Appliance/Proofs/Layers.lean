import Appliance.Layers
import Appliance.Proofs.Document.Neutral
import Appliance.Proofs.Files.Host

/-! Documents built of layers from files. Laying all layers over nothing comes to the same content
as loading the first one and laying the others over it, file by file; and where a file is no layer,
the first such file is where both stop. -/
namespace Appliance

namespace Files

/-- Why a path gives no layer: it cannot be read, or what is read is no document. -/
inductive Refuses (files : Files) (path : String) : LayerError → Prop
  | unread {fault : Fault} (unread : files.read path = .error fault) :
    Refuses files path (.unread path fault)
  | undated {bytes : ByteArray} {fault : Fault} (read : files.read path = .ok bytes)
    (undated : files.info path = .error fault) : Refuses files path (.unread path fault)
  | notUtf8 {bytes : ByteArray} {info : FileInfo} (read : files.read path = .ok bytes)
    (dated : files.info path = .ok info) (notUtf8 : String.fromUTF8? bytes = none) :
    Refuses files path (.notUtf8 path)
  | undecoded {bytes : ByteArray} {info : FileInfo} {text : String} {error : DocumentError}
    (read : files.read path = .ok bytes) (dated : files.info path = .ok info)
    (utf8 : String.fromUTF8? bytes = some text) (undecoded : Document.decode text = .error error) :
    Refuses files path (.document path error)

inductive Holds (files : Files) (path : String) : ByteArray → Document → Prop
  | intro {bytes : ByteArray} {info : FileInfo} {text : String} {doc : Document}
    (read : files.read path = .ok bytes) (dated : files.info path = .ok info)
    (utf8 : String.fromUTF8? bytes = some text) (decoded : Document.decode text = .ok doc) :
    Holds files path bytes { doc with changed := some info.modified }

variable {files : Files} {path : String} {bytes : ByteArray} {doc : Document} {error : LayerError}

theorem Holds.read_eq (h : files.Holds path bytes doc) : files.read path = .ok bytes := by
  cases h
  assumption

theorem refuses_or_holds (files : Files) (path : String) :
    (∃ error, files.Refuses path error) ∨ ∃ bytes doc, files.Holds path bytes doc := by
  cases read : files.read path with
  | error fault => exact Or.inl ⟨_, .unread read⟩
  | ok bytes =>
    cases dated : files.info path with
    | error fault => exact Or.inl ⟨_, .undated read dated⟩
    | ok info =>
      cases utf8 : String.fromUTF8? bytes with
      | none => exact Or.inl ⟨_, .notUtf8 read dated utf8⟩
      | some text =>
        cases decoded : Document.decode text with
        | error error => exact Or.inl ⟨_, .undecoded read dated utf8 decoded⟩
        | ok doc => exact Or.inr ⟨bytes, _, .intro read dated utf8 decoded⟩

namespace Still

open Layered Document

variable {σ : Type} [Host (StateM σ)] {states : σ → Prop} (still : files.Still states)
include still

theorem readLayer_of_holds (h : files.Holds path bytes doc) :
    Ends states (readLayer path).run (· = .ok (doc, .file path (Sha256.hexDigest bytes))) := by
  obtain ⟨read, dated, utf8, decoded⟩ := h
  refine .bind_eq (still.attempt_read read _) ?_
  refine .bind_eq (still.attempt_info dated _) ?_
  simp only [utf8, decoded]
  exact .pure rfl

theorem readLayer_of_refuses (h : files.Refuses path error) :
    Ends states (readLayer path).run (· = .error error) := by
  cases h with
  | unread unread => exact .bind_error (still.attempt_read unread _)
  | undated read undated =>
    refine .bind_eq (still.attempt_read read _) ?_
    exact .bind_error (still.attempt_info undated _)
  | notUtf8 read dated notUtf8 =>
    refine .bind_eq (still.attempt_read read _) ?_
    refine .bind_eq (still.attempt_info dated _) ?_
    simp only [notUtf8]
    exact .pure rfl
  | undecoded read dated utf8 undecoded =>
    refine .bind_eq (still.attempt_read read _) ?_
    refine .bind_eq (still.attempt_info dated _) ?_
    simp only [utf8, undecoded]
    exact .pure rfl

theorem decodeFile_of_holds (h : files.Holds path bytes doc) :
    Ends states (decodeFile path).run (· = .ok doc) := by
  obtain ⟨read, dated, utf8, decoded⟩ := h
  refine .bind_eq (still.attempt_read read _) ?_
  simp only [utf8]
  refine .bind_eq (still.attempt_info dated _) ?_
  simp only [decoded]
  exact .pure rfl

/-- The text is checked before the time here, so it need not be the same fault. -/
theorem decodeFile_of_refuses (h : files.Refuses path error) :
    Ends states (decodeFile path).run fun r => ∃ fault, r = .error fault := by
  cases h with
  | unread unread =>
    exact (Ends.bind_error (still.attempt_read unread _)).weaken fun _ same => ⟨_, same⟩
  | undated read undated =>
    refine .bind_eq (still.attempt_read read _) ?_
    cases String.fromUTF8? _ with
    | none => exact .pure ⟨_, rfl⟩
    | some text =>
      exact (Ends.bind_error (still.attempt_info undated _)).weaken fun _ same => ⟨_, same⟩
  | notUtf8 read _ notUtf8 =>
    refine .bind_eq (still.attempt_read read _) ?_
    simp only [notUtf8]
    exact .pure ⟨_, rfl⟩
  | undecoded read dated utf8 undecoded =>
    refine .bind_eq (still.attempt_read read _) ?_
    simp only [utf8]
    refine .bind_eq (still.attempt_info dated _) ?_
    simp only [undecoded]
    exact .pure ⟨_, rfl⟩

end Still
end Files

namespace Document

variable {m : Type → Type} [Monad m] [Host m]

def overlayFiles (base : Document) (paths : List String) : ExceptT DocumentError m Document :=
  paths.foldlM overlayFile base

def loadFiles (path : String) (paths : List String) : ExceptT DocumentError m Document := do
  (← loadFile path).overlayFiles paths

def pile (base : Document) (layers : List Document) : Document :=
  layers.foldl (fun below upper => (below.unite upper).settle) base

theorem pile_append_singleton (base : Document) (layers : List Document) (upper : Document) :
    base.pile (layers ++ [upper]) = ((base.pile layers).unite upper).settle := List.foldl_append

theorem content_pile_congr {a b : Document} (same : a.content = b.content)
    (layers : List Document) : (a.pile layers).content = (b.pile layers).content := by
  cases layers with
  | nil => exact same
  | cons upper layers => rw [pile, pile, List.foldl_cons, List.foldl_cons, unite_congr same]

end Document

namespace Files

def Gives (files : Files) (path : String) (layer : Source × Document) : Prop :=
  ∃ bytes, files.Holds path bytes layer.2 ∧ layer.1 = .file path (Sha256.hexDigest bytes)

variable {files : Files} {path : String} {paths : List String} {layers : List (Source × Document)}

theorem exists_gives_of_not_refuses (h : ∀ error, ¬ files.Refuses path error) :
    ∃ layer, files.Gives path layer := by
  rcases files.refuses_or_holds path with ⟨error, refuses⟩ | ⟨bytes, doc, holds⟩
  · exact absurd refuses (h error)
  · exact ⟨(.file path (Sha256.hexDigest bytes), doc), bytes, holds, rfl⟩

theorem all_give_or_first_refuses (files : Files) (paths : List String) :
    (∃ layers, List.Forall₂ files.Gives paths layers) ∨
      ∃ before path after error, paths = before ++ path :: after ∧
        (∀ p ∈ before, ∀ e, ¬ files.Refuses p e) ∧ files.Refuses path error := by
  induction paths with
  | nil => exact Or.inl ⟨[], .nil⟩
  | cons path paths ih =>
    by_cases refuses : ∃ error, files.Refuses path error
    · obtain ⟨error, refuses⟩ := refuses
      exact Or.inr ⟨[], path, paths, error, rfl, by simp, refuses⟩
    · rw [not_exists] at refuses
      obtain ⟨layer, gives⟩ := exists_gives_of_not_refuses refuses
      rcases ih with ⟨layers, each⟩ | ⟨before, first, after, error, cut, none, last⟩
      · exact Or.inl ⟨layer :: layers, .cons gives each⟩
      · refine Or.inr ⟨path :: before, first, after, error, by rw [cut]; rfl, ?_, last⟩
        exact List.forall_mem_cons.2 ⟨refuses, none⟩

theorem sources_eq (each : List.Forall₂ files.Gives paths layers) :
    ∃ contents, paths.mapM files.read = .ok contents ∧
      layers.map (·.1) =
        List.zipWith (fun path bytes => .file path (Sha256.hexDigest bytes)) paths contents := by
  induction each with
  | nil => exact ⟨[], rfl, rfl⟩
  | cons first _ ih =>
    obtain ⟨bytes, holds, source⟩ := first
    obtain ⟨contents, rest, same⟩ := ih
    refine ⟨bytes :: contents, ?_, ?_⟩
    · rw [List.mapM_cons, holds.read_eq, rest]
      rfl
    · rw [List.map_cons, List.zipWith_cons_cons, source, same]

namespace Still

open Layered Document

variable {σ : Type} [Host (StateM σ)] {states : σ → Prop} (still : files.Still states)
include still

theorem addLayer_of_gives {layer : Source × Document} (gives : files.Gives path layer)
    (below : Document × List Source) :
    Ends states (addLayer below path).run fun r =>
      ∃ above, r = .ok above ∧ above.1.content = (below.1.unite layer.2).settle ∧
        above.2 = below.2 ++ [layer.1] := by
  obtain ⟨bytes, holds, source⟩ := gives
  refine .bind_eq (still.readLayer_of_holds holds) ?_
  refine still.lift_now.bind (fun now _ => ?_) fun _ ⟨_, same⟩ => nomatch same
  exact .pure ⟨_, rfl, rfl, by rw [source]⟩

theorem addLayer_of_refuses {error : LayerError} (h : files.Refuses path error)
    (below : Document × List Source) :
    Ends states (addLayer below path).run fun r => ∃ e, r = .error e ∧ e = error :=
  (Ends.bind_error (still.readLayer_of_refuses h)).weaken fun _ same => ⟨error, same, rfl⟩

theorem overlayFile_of_gives {layer : Source × Document} (gives : files.Gives path layer)
    (below : Document) :
    Ends states (below.overlayFile path).run fun r =>
      ∃ above, r = .ok above ∧ above.content = (below.unite layer.2).settle := by
  obtain ⟨bytes, holds, -⟩ := gives
  refine .bind_eq (still.decodeFile_of_holds holds) ?_
  refine still.lift_now.bind (fun now _ => ?_) fun _ ⟨_, same⟩ => nomatch same
  exact .pure ⟨_, rfl, rfl⟩

theorem overlayFile_of_refuses {error : LayerError} (h : files.Refuses path error)
    (below : Document) :
    Ends states (below.overlayFile path).run fun r => ∃ e, r = .error e ∧ True := by
  refine (still.decodeFile_of_refuses h).bind (fun _ ⟨_, same⟩ => nomatch same) ?_
  exact fun e _ => ⟨e, rfl, trivial⟩

theorem foldlM_addLayer_of_gives (each : List.Forall₂ files.Gives paths layers)
    {ground : Document × List Source} {base : Document} {sources : List Source}
    (content : ground.1.content = base.content) (named : ground.2 = sources) :
    Ends states (paths.foldlM addLayer ground).run fun r =>
      ∃ top, r = .ok top ∧ top.1.content = (base.pile (layers.map (·.2))).content ∧
        top.2 = sources ++ layers.map (·.1) := by
  refine Ends.foldlM (fun done (below : Document × List Source) =>
    below.1.content = (base.pile (done.map (·.2))).content ∧
      below.2 = sources ++ done.map (·.1)) ?_ each ⟨content, by simp [named]⟩
  rintro done path layer below gives ⟨content, sources⟩
  refine (still.addLayer_of_gives gives below).weaken ?_
  rintro _ ⟨above, rfl, united, named⟩
  refine ⟨above, rfl, ?_, ?_⟩
  · rw [united, List.map_append, List.map_singleton, pile_append_singleton, unite_congr content]
    rfl
  · rw [named, sources, List.map_append, List.map_singleton, List.append_assoc]

theorem overlayFiles_of_gives (each : List.Forall₂ files.Gives paths layers) (ground : Document) :
    Ends states (ground.overlayFiles paths).run fun r =>
      ∃ top, r = .ok top ∧ top.content = (ground.pile (layers.map (·.2))).content := by
  refine Ends.foldlM (fun done (below : Document) =>
    below.content = (ground.pile (done.map (·.2))).content) ?_ each rfl
  intro done path layer below gives content
  refine (still.overlayFile_of_gives gives below).weaken ?_
  rintro _ ⟨above, rfl, united⟩
  refine ⟨above, rfl, ?_⟩
  rw [united, List.map_append, List.map_singleton, pile_append_singleton, unite_congr content]
  rfl

theorem ground_content (builtin : Bool) :
    Ends states (ground builtin) fun ground =>
      ground.1.content = (if builtin then Builtin.document {} else {}).content ∧
        ground.2 = if builtin then [.builtin] else [] := by
  cases builtin with
  | false => exact .pure ⟨rfl, rfl⟩
  | true =>
    intro s hs
    have settled : (Builtin.document {}).settle = Builtin.document {} := by decide
    refine ⟨⟨?_, rfl⟩, (still.now s hs).2⟩
    exact (settle_empty_unite _).trans (congrArg content settled)

theorem loadFile_of_gives {layer : Source × Document} (gives : files.Gives path layer) :
    Ends states (loadFile path).run (· = .ok layer.2.settle) := by
  obtain ⟨bytes, holds, -⟩ := gives
  rw [loadFile, map_eq_pure_bind]
  exact .bind_eq (still.decodeFile_of_holds holds) (.pure rfl)

theorem loadFiles_of_gives {layer : Source × Document} (first : files.Gives path layer)
    (each : List.Forall₂ files.Gives paths layers) :
    Ends states (loadFiles path paths).run fun r =>
      ∃ top, r = .ok top ∧ top.content = (layer.2.settle.pile (layers.map (·.2))).content :=
  .bind_eq (still.loadFile_of_gives first) (still.overlayFiles_of_gives each _)

variable {builtin : Bool}

theorem build_of_foldlM {laid : Except LayerError (Document × List Source) → Prop}
    (given : paths ≠ [] ∨ builtin = true)
    (fold : ∀ ground : Document × List Source,
      ground.1.content = (if builtin then Builtin.document {} else {}).content →
      ground.2 = (if builtin then [.builtin] else []) →
      Ends states (paths.foldlM addLayer ground).run laid) :
    Ends states (build paths builtin).run fun r =>
      laid (r.map fun layered => (layered.document, layered.sources)) := by
  have layered : ¬ (paths.isEmpty = true ∧ (!builtin) = true) := by
    simpa [or_iff_not_imp_left] using given
  rw [build, if_neg layered]
  refine (still.ground_content builtin).lift.bind ?_ fun _ ⟨_, same, _⟩ => nomatch same
  rintro _ ⟨ground, same, content, sources⟩
  rw [Except.ok.inj same]
  refine (fold ground content sources).bind (fun top shown => ?_) fun _ => id
  refine still.lift_now.bind (fun now _ => ?_) fun _ ⟨_, same⟩ => nomatch same
  exact .pure shown

theorem build_of_gives (builtin : Bool) (given : paths ≠ [] ∨ builtin = true)
    (each : List.Forall₂ files.Gives paths layers) :
    Ends states (build paths builtin).run fun r => ∃ layered, r = .ok layered ∧
      layered.document.content =
        ((if builtin then Builtin.document {} else {}).pile (layers.map (·.2))).content ∧
      layered.sources = (if builtin then [.builtin] else []) ++ layers.map (·.1) := by
  refine (still.build_of_foldlM given fun ground content named =>
    still.foldlM_addLayer_of_gives each content named).weaken ?_
  rintro (_ | layered) ⟨_, same, united, sources⟩
  · cases same
  · cases same
    exact ⟨layered, rfl, united, sources⟩

theorem build_of_refuses {before after : List String} {error : LayerError}
    (passes : ∀ p ∈ before, ∀ e, ¬ files.Refuses p e) (refuses : files.Refuses path error) :
    Ends states (build (before ++ path :: after) builtin).run (· = .error error) := by
  refine (still.build_of_foldlM (.inl (by simp)) fun ground _ _ =>
    Ends.foldlM_error (fun p hp below => ?_) (still.addLayer_of_refuses refuses) ground).weaken ?_
  · obtain ⟨layer, gives⟩ := exists_gives_of_not_refuses (passes p hp)
    exact (still.addLayer_of_gives gives below).weaken fun _ ⟨above, same, _⟩ => ⟨above, same⟩
  · rintro (e | layered) ⟨_, same, rfl⟩
    · exact congrArg _ (Except.error.inj same)
    · cases same

theorem overlayFiles_of_refuses {before after : List String} {error : LayerError}
    (passes : ∀ p ∈ before, ∀ e, ¬ files.Refuses p e) (refuses : files.Refuses path error)
    (ground : Document) :
    Ends states (ground.overlayFiles (before ++ path :: after)).run fun r =>
      ∃ e, r = .error e ∧ True := by
  refine Ends.foldlM_error (fun p hp below => ?_) (still.overlayFile_of_refuses refuses) ground
  obtain ⟨layer, gives⟩ := exists_gives_of_not_refuses (passes p hp)
  exact (still.overlayFile_of_gives gives below).weaken fun _ ⟨above, same, _⟩ => ⟨above, same⟩

theorem loadFiles_of_refuses {before after : List String} {last : String} {error : LayerError}
    (cut : path :: paths = before ++ last :: after)
    (passes : ∀ p ∈ before, ∀ e, ¬ files.Refuses p e) (refuses : files.Refuses last error) :
    Ends states (loadFiles path paths).run fun r => ∃ e, r = .error e := by
  cases before with
  | nil =>
    obtain ⟨rfl, rfl⟩ := List.cons_eq_cons.1 cut
    have unloaded : Ends states (loadFile path).run fun r => ∃ e, r = .error e := by
      rw [loadFile, map_eq_pure_bind]
      refine (still.decodeFile_of_refuses refuses).bind (fun _ ⟨_, same⟩ => nomatch same) ?_
      exact fun e _ => ⟨e, rfl⟩
    exact unloaded.bind (fun _ ⟨_, same⟩ => nomatch same) fun e _ => ⟨e, rfl⟩
  | cons first before =>
    obtain ⟨rfl, rfl⟩ := List.cons_eq_cons.1 cut
    obtain ⟨first, gives⟩ := exists_gives_of_not_refuses (passes path List.mem_cons_self)
    refine .bind_eq (still.loadFile_of_gives gives) ?_
    refine (still.overlayFiles_of_refuses (fun p hp => passes p (List.mem_cons_of_mem _ hp))
      refuses _).weaken ?_
    exact fun _ ⟨e, same, _⟩ => ⟨e, same⟩

end Still
end Files

namespace Layered

/-- Do a build and a run that lays file over file come to the same? -/
def Agrees : Except LayerError Layered → Except DocumentError Document → Prop
  | .ok layered, .ok doc =>
    layered.document.content = doc.content ∧ layered.document.digest = doc.digest
  | .error _, .error _ => True
  | _, _ => False

open Files Document

section

variable {files : Files} {σ : Type} [Host (StateM σ)] {states : σ → Prop}
  (still : files.Still states) {s t : σ} (hs : states s) (ht : states t)
include still hs

theorem agrees_loadFiles (path : String) (paths : List String) (ht : states t) :
    Agrees (outcome (build (path :: paths) false) s) (outcome (loadFiles path paths) t) := by
  rcases files.all_give_or_first_refuses (path :: paths) with
    ⟨_, each⟩ | ⟨before, last, after, error, cut, passes, refuses⟩
  · obtain ⟨layered, built, content, -⟩ :=
      (still.build_of_gives false (.inl (List.cons_ne_nil _ _)) each s hs).1
    cases each with
    | @cons _ layer _ layers first each =>
      obtain ⟨doc, loaded, same⟩ := (still.loadFiles_of_gives first each t ht).1
      have settled : ((unite {} layer.2).settle).content = layer.2.settle.content := by
        rw [settle_empty_unite]
        rfl
      have agree : layered.document.content = doc.content :=
        content.trans ((content_pile_congr settled _).trans same.symm)
      rw [outcome, built, outcome, loaded]
      exact ⟨agree, digest_congr agree⟩
  · obtain ⟨e, unloaded⟩ := (still.loadFiles_of_refuses cut passes refuses t ht).1
    rw [outcome, cut, (still.build_of_refuses passes refuses s hs).1, outcome, unloaded]
    trivial

theorem agrees_overlayFiles (paths : List String) (ht : states t) :
    Agrees (outcome (build paths true) s)
      (outcome ((Builtin.document {}).overlayFiles paths) t) := by
  rcases files.all_give_or_first_refuses paths with
    ⟨layers, each⟩ | ⟨before, last, after, error, rfl, passes, refuses⟩
  · obtain ⟨layered, built, content, -⟩ := (still.build_of_gives true (.inr rfl) each s hs).1
    obtain ⟨doc, laid, same⟩ := (still.overlayFiles_of_gives each (Builtin.document {}) t ht).1
    have agree : layered.document.content = doc.content := content.trans same.symm
    rw [outcome, built, outcome, laid]
    exact ⟨agree, digest_congr agree⟩
  · obtain ⟨e, unlaid, -⟩ := (still.overlayFiles_of_refuses passes refuses _ t ht).1
    rw [outcome, (still.build_of_refuses passes refuses s hs).1, outcome, unlaid]
    trivial

variable {paths : List String} {builtin : Bool} (given : paths ≠ [] ∨ builtin = true)
include given

theorem sources_of_build {layered : Layered}
    (built : outcome (build paths builtin) s = .ok layered) :
    ∃ contents, paths.mapM files.read = .ok contents ∧
      layered.sources = (if builtin then [.builtin] else []) ++
        List.zipWith (fun path bytes => .file path (Sha256.hexDigest bytes)) paths contents := by
  rcases files.all_give_or_first_refuses paths with
    ⟨layers, each⟩ | ⟨before, last, after, error, rfl, passes, refuses⟩
  · obtain ⟨top, same, -, sources⟩ := (still.build_of_gives builtin given each s hs).1
    obtain ⟨contents, read, named⟩ := sources_eq each
    rw [outcome, same] at built
    rw [← Except.ok.inj built]
    exact ⟨contents, read, by rw [sources, named]⟩
  · rw [outcome, (still.build_of_refuses passes refuses s hs).1] at built
    cases built

theorem build_eq_error_iff (error : LayerError) :
    outcome (build paths builtin) s = .error error ↔
      ∃ before path after, paths = before ++ path :: after ∧
        (∀ p ∈ before, ∀ e, ¬ files.Refuses p e) ∧ files.Refuses path error := by
  constructor
  · intro failed
    rcases files.all_give_or_first_refuses paths with
      ⟨layers, each⟩ | ⟨before, last, after, first, cut, passes, refuses⟩
    · obtain ⟨top, same, -⟩ := (still.build_of_gives builtin given each s hs).1
      rw [outcome, same] at failed
      cases failed
    · rw [outcome, cut, (still.build_of_refuses passes refuses s hs).1] at failed
      exact ⟨before, last, after, cut, passes, Except.error.inj failed ▸ refuses⟩
  · rintro ⟨before, path, after, rfl, passes, refuses⟩
    exact (still.build_of_refuses passes refuses s hs).1

end

/-- While the files stay as they are, building a document of layers and laying the files over each
other one by one agree, on nothing as on what is built in; the sources name what was read, and the
error is that of the first file that is no layer. -/
theorem build_agrees_with_overlaying {files : Files} {σ : Type} [Host (StateM σ)]
    {states : σ → Prop} (still : files.Still states) {s t : σ} (hs : states s) (ht : states t) :
    (∀ path paths,
      Agrees (outcome (build (path :: paths) false) s) (outcome (loadFiles path paths) t)) ∧
    (∀ paths, Agrees (outcome (build paths true) s)
      (outcome ((Builtin.document {}).overlayFiles paths) t)) ∧
    ∀ paths builtin, paths ≠ [] ∨ builtin = true →
      (∀ layered, outcome (build paths builtin) s = .ok layered →
        ∃ contents, paths.mapM files.read = .ok contents ∧
          layered.sources = (if builtin then [.builtin] else []) ++
            List.zipWith (fun path bytes => .file path (Sha256.hexDigest bytes)) paths contents) ∧
      ∀ error, outcome (build paths builtin) s = .error error ↔
        ∃ before path after, paths = before ++ path :: after ∧
          (∀ p ∈ before, ∀ e, ¬ files.Refuses p e) ∧ files.Refuses path error :=
  ⟨fun path paths => agrees_loadFiles still hs path paths ht,
    fun paths => agrees_overlayFiles still hs paths ht,
    fun _ _ given => ⟨fun _ => sources_of_build still hs given, build_eq_error_iff still hs given⟩⟩

theorem build_stops_at_bytes_that_are_no_text :
    let servers : File := ⟨"[system]\ndns = [\"~x\", \"x\"]\n".toUTF8, ⟨5⟩, false⟩
    let disk : Disk := { nodes := [(["a"], .file servers), (["b"], .file ⟨⟨#[255]⟩, ⟨7⟩, false⟩)] }
    disk.files.Still (· = disk) ∧
      Agrees (outcome (build ["/a", "/a"] false) disk) (outcome (loadFiles "/a" ["/a"]) disk) ∧
      outcome (build ["/b", "/missing"] true) disk = .error (.notUtf8 "/b") := by
  intro servers disk
  have still := disk.still
  have ⟨loaded, _, other⟩ := build_agrees_with_overlaying still (s := disk) (t := disk) rfl rfl
  have refuses : disk.files.Refuses "/b" (.notUtf8 "/b") :=
    .notUtf8 (show disk.read "/b" = .ok ⟨#[255]⟩ from rfl)
      (show disk.info "/b" = .ok ⟨true, _, ⟨7⟩⟩ from rfl) (by decide)
  exact ⟨still, loaded "/a" ["/a"], ((other ["/b", "/missing"] true (.inr rfl)).2 _).2
    ⟨[], "/b", ["/missing"], rfl, by simp, refuses⟩⟩

end Layered
end Appliance
