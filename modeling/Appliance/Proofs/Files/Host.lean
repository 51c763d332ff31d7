import Appliance.Files.Host
import Mathlib.Data.List.Forall2

/-! Programs on a machine whose state is a value: what they come to, step by step, and machines
whose files stay as they are while they are read. -/
namespace Appliance

section Programs

variable {σ ε α β : Type}

def outcome (program : ExceptT ε (StateM σ) α) (s : σ) : Except ε α := (program.run.run s).1

theorem run_bind (program : ExceptT ε (StateM σ) α) (next : α → ExceptT ε (StateM σ) β) (s : σ) :
    (program >>= next).run.run s =
      match program.run.run s with
      | (.ok a, t) => (next a).run.run t
      | (.error e, t) => (.error e, t) := by
  rw [ExceptT.run_bind, StateT.run_bind]
  rcases program.run.run s with ⟨_ | _, _⟩ <;> rfl

theorem run_map (f : α → β) (program : ExceptT ε (StateM σ) α) (s : σ) :
    (f <$> program).run.run s = ((program.run.run s).1.map f, (program.run.run s).2) := by
  rw [← bind_pure_comp, run_bind]
  rcases program.run.run s with ⟨_ | _, _⟩ <;> rfl

/-- Does a program, started in one of some states, end in one of them with a result of some kind? -/
def Ends (states : σ → Prop) (program : StateM σ α) (result : α → Prop) : Prop :=
  ∀ s, states s → result (program.run s).1 ∧ states (program.run s).2

variable {states : σ → Prop} {result : α → Prop}

theorem Ends.weaken {program : StateM σ α} {weaker : α → Prop} (h : Ends states program result)
    (weaken : ∀ a, result a → weaker a) : Ends states program weaker :=
  fun s hs => (h s hs).imp_left (weaken _)

theorem Ends.pure {a : α} (h : result a) : Ends states (Pure.pure a) result := fun _ hs => ⟨h, hs⟩

theorem Ends.bind {program : ExceptT ε (StateM σ) α} {next : α → ExceptT ε (StateM σ) β}
    {middle : Except ε α → Prop} {result : Except ε β → Prop}
    (first : Ends states program.run middle)
    (ok : ∀ a, middle (.ok a) → Ends states (next a).run result)
    (error : ∀ e, middle (.error e) → result (.error e)) :
    Ends states (program >>= next).run result := by
  intro s hs
  have before := first s hs
  rw [run_bind]
  generalize program.run.run s = reached at before ⊢
  rcases reached with ⟨e | a, t⟩
  · exact ⟨error e before.1, before.2⟩
  · exact ok a before.1 t before.2

theorem Ends.bind_eq {program : ExceptT ε (StateM σ) α} {next : α → ExceptT ε (StateM σ) β} {a : α}
    {result : Except ε β → Prop} (first : Ends states program.run (· = .ok a))
    (rest : Ends states (next a).run result) : Ends states (program >>= next).run result :=
  first.bind (fun _ same => Except.ok.inj same ▸ rest) fun _ same => nomatch same

theorem Ends.bind_error {program : ExceptT ε (StateM σ) α} {next : α → ExceptT ε (StateM σ) β}
    {e : ε} (first : Ends states program.run (· = .error e)) :
    Ends states (program >>= next).run (· = .error e) :=
  first.bind (fun _ same => nomatch same) fun _ same => congrArg _ (Except.error.inj same)

theorem Ends.lift {operation : StateM σ α} {result : α → Prop} (h : Ends states operation result) :
    Ends states (liftM operation : ExceptT ε (StateM σ) α).run fun r => ∃ a, r = .ok a ∧ result a :=
  fun s hs => (h s hs).imp_left fun shown => ⟨_, rfl, shown⟩

theorem Ends.attempt {operation : StateM σ (Except Fault α)} {outcome : Except Fault α}
    (h : Ends states operation (· = outcome)) (name : Fault → ε) :
    Ends states (attempt name operation).run (· = outcome.mapError name) :=
  fun s hs => (h s hs).imp_left (congrArg (Except.mapError name))

theorem Ends.foldlM {γ : Type} {step : β → α → ExceptT ε (StateM σ) β} {gives : α → γ → Prop}
    (shows : List γ → β → Prop)
    (right : ∀ {done x y b}, gives x y → shows done b →
      Ends states (step b x).run fun r => ∃ c, r = .ok c ∧ shows (done ++ [y]) c)
    {xs : List α} {ys : List γ} (each : List.Forall₂ gives xs ys) {b : β} (h : shows [] b) :
    Ends states (xs.foldlM step b).run fun r => ∃ c, r = .ok c ∧ shows ys c := by
  have onward : ∀ done b, shows done b →
      Ends states (xs.foldlM step b).run fun r => ∃ c, r = .ok c ∧ shows (done ++ ys) c := by
    induction each with
    | nil => exact fun done b h => .pure ⟨b, rfl, by rwa [List.append_nil]⟩
    | cons first _ ih =>
      intro done b h
      rw [List.foldlM_cons]
      refine (right first h).bind ?_ fun _ ⟨_, same, _⟩ => nomatch same
      rintro _ ⟨c, same, shown⟩
      rw [Except.ok.inj same, List.append_cons]
      exact ih _ _ shown
  exact onward [] b h

theorem Ends.foldlM_error {step : β → α → ExceptT ε (StateM σ) β} {before after : List α} {x : α}
    {failure : ε → Prop}
    (passes : ∀ y ∈ before, ∀ b, Ends states (step b y).run fun r => ∃ c, r = .ok c)
    (fails : ∀ b, Ends states (step b x).run fun r => ∃ e, r = .error e ∧ failure e) (b : β) :
    Ends states ((before ++ x :: after).foldlM step b).run
      fun r => ∃ e, r = .error e ∧ failure e := by
  induction before generalizing b with
  | nil =>
    rw [List.nil_append, List.foldlM_cons]
    refine (fails b).bind (fun _ ⟨_, same, _⟩ => nomatch same) fun _ ⟨e, same, h⟩ => ?_
    exact ⟨e, congrArg _ (Except.error.inj same), h⟩
  | cons y before ih =>
    rw [List.cons_append, List.foldlM_cons]
    refine (passes y List.mem_cons_self b).bind (fun c _ => ?_) fun _ ⟨_, same⟩ => nomatch same
    exact ih (fun z hz => passes z (List.mem_cons_of_mem _ hz)) c

end Programs

section Looking

variable {σ τ ε α β : Type}

theorem run_bind_beside (program : ExceptT ε (StateT τ (StateM σ)) α)
    (next : α → ExceptT ε (StateT τ (StateM σ)) β) (t : τ) (s : σ) :
    ((program >>= next).run.run t).run s =
      match (program.run.run t).run s with
      | ((.ok a, t), s) => ((next a).run.run t).run s
      | ((.error e, t), s) => ((.error e, t), s) := by
  rw [ExceptT.run_bind, StateT.run_bind, StateT.run_bind]
  rcases (program.run.run t).run s with ⟨⟨_ | _, _⟩, _⟩ <;> rfl

/-- Does a program only look at the machine? It leaves the machine as it is, and on a machine with
more state it comes to the same and leaves that state as it is too. -/
structure Looks (upper : ExceptT ε (StateT τ (StateM σ)) α) (lower : ExceptT ε (StateM σ) α) :
    Prop where
  alone : ∀ s, lower.run.run s = (outcome lower s, s)
  beside : ∀ t s, (upper.run.run t).run s = ((outcome lower s, t), s)

theorem Looks.pure (a : α) :
    Looks (Pure.pure a : ExceptT ε (StateT τ (StateM σ)) α) (Pure.pure a) :=
  ⟨fun _ => rfl, fun _ _ => rfl⟩

theorem Looks.throw (e : ε) :
    Looks (MonadExcept.throw e : ExceptT ε (StateT τ (StateM σ)) α) (MonadExcept.throw e) :=
  ⟨fun _ => rfl, fun _ _ => rfl⟩

theorem Looks.bind {upper : ExceptT ε (StateT τ (StateM σ)) α} {lower : ExceptT ε (StateM σ) α}
    {above : α → ExceptT ε (StateT τ (StateM σ)) β} {below : α → ExceptT ε (StateM σ) β}
    (first : Looks upper lower) (rest : ∀ a, Looks (above a) (below a)) :
    Looks (upper >>= above) (lower >>= below) where
  alone s := by
    rw [outcome, run_bind, first.alone s]
    cases outcome lower s with
    | ok a => exact (rest a).alone s
    | error e => rfl
  beside t s := by
    rw [outcome, run_bind, first.alone s, run_bind_beside, first.beside t s]
    cases outcome lower s with
    | ok a => exact (rest a).beside t s
    | error e => rfl

theorem Looks.lift {operation : StateM σ α} (look : ∀ s, (operation.run s).2 = s) :
    Looks (ExceptT.lift (StateT.lift operation) : ExceptT ε (StateT τ (StateM σ)) α)
      (ExceptT.lift operation) where
  alone s := Prod.ext rfl (look s)
  beside _ s := Prod.ext rfl (look s)

theorem Looks.attempt {operation : StateM σ (Except Fault α)} (look : ∀ s, (operation.run s).2 = s)
    (name : Fault → ε) :
    Looks (attempt name (StateT.lift operation) : ExceptT ε (StateT τ (StateM σ)) α)
      (attempt name operation) where
  alone s := Prod.ext rfl (look s)
  beside _ s := Prod.ext rfl (look s)

end Looking

theorem fromUTF8?_toUTF8 (text : String) : String.fromUTF8? text.toUTF8 = some text := by
  simp only [String.fromUTF8?, String.toUTF8_eq_toByteArray, dif_pos text.isValidUTF8]
  rfl

theorem toUTF8_eq_iff {s t : String} : s.toUTF8 = t.toUTF8 ↔ s = t := by
  refine ⟨fun same => ?_, fun same => by rw [same]⟩
  have read := congrArg String.fromUTF8? same
  rw [fromUTF8?_toUTF8, fromUTF8?_toUTF8] at read
  exact Option.some.inj read

structure Files where
  read : String → Except Fault ByteArray
  info : String → Except Fault FileInfo

namespace Files

variable {σ : Type} [Host (StateM σ)]

/-- In some states, and all that come of them while files are only read, are these the files? Time
may go by. -/
structure Still (files : Files) (states : σ → Prop) : Prop where
  now : Ends states Host.now fun _ => True
  read : ∀ path, Ends states (Host.read path) (· = files.read path)
  info : ∀ path, Ends states (Host.info path) (· = files.info path)

variable {files : Files} {states : σ → Prop} {ε : Type} {path : String}

theorem Still.lift_now (still : files.Still states) :
    Ends states (Host.now : ExceptT ε (StateM σ) Time).run fun r => ∃ now, r = .ok now :=
  fun s hs => ⟨⟨_, rfl⟩, (still.now s hs).2⟩

theorem Still.attempt_read (still : files.Still states) {outcome : Except Fault ByteArray}
    (read : files.read path = outcome) (name : Fault → ε) :
    Ends states (attempt name (Host.read path)).run (· = outcome.mapError name) :=
  read ▸ (still.read path).attempt name

theorem Still.attempt_info (still : files.Still states) {outcome : Except Fault FileInfo}
    (info : files.info path = outcome) (name : Fault → ε) :
    Ends states (attempt name (Host.info path)).run (· = outcome.mapError name) :=
  info ▸ (still.info path).attempt name

end Files

def Disk.files (disk : Disk) : Files := ⟨disk.read, disk.info⟩

theorem Disk.still (disk : Disk) : disk.files.Still (· = disk) where
  now _ same := ⟨trivial, same⟩
  read _ _ same := ⟨same ▸ rfl, same⟩
  info _ _ same := ⟨same ▸ rfl, same⟩

section Change

variable {ε : Type} {step : Disk → Except Fault Disk} {disk : Disk} (name : Fault → ε)

theorem run_change_ok {after : Disk} (h : step disk = .ok after) :
    (attempt name (Disk.change step) : ExceptT ε (StateM Disk) Unit).run.run disk =
      (.ok (), after) := by
  show ((Disk.change step disk).1.mapError name, (Disk.change step disk).2) = _
  rw [Disk.change, h]
  rfl

theorem run_change_error {fault : Fault} (h : step disk = .error fault) :
    (attempt name (Disk.change step) : ExceptT ε (StateM Disk) Unit).run.run disk =
      (.error (name fault), disk) := by
  show ((Disk.change step disk).1.mapError name, (Disk.change step disk).2) = _
  rw [Disk.change, h]
  rfl

theorem eq_ok_of_run_change {after : Disk}
    (run : (attempt name (Disk.change step) : ExceptT ε (StateM Disk) Unit).run.run disk =
      (.ok (), after)) : step disk = .ok after := by
  cases made : step disk with
  | error fault =>
    rw [run_change_error name made] at run
    cases run
  | ok changed =>
    rw [run_change_ok name made] at run
    cases run
    rfl

end Change

end Appliance
