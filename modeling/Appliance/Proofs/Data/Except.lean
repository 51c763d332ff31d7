/-! What a result without an error says about the steps that led to it. -/
namespace Except

variable {ε ε' α β : Type}

theorem bind_eq_ok_iff {x : Except ε α} {f : α → Except ε β} {b : β} :
    x >>= f = .ok b ↔ ∃ a, x = .ok a ∧ f a = .ok b := by
  cases x with
  | error e => simp [bind, Except.bind]
  | ok a => simp [bind, Except.bind]

theorem map_eq_ok_iff {x : Except ε α} {f : α → β} {b : β} :
    x.map f = .ok b ↔ ∃ a, x = .ok a ∧ f a = b := by
  cases x with
  | error e => simp [Except.map]
  | ok a => simp [Except.map]

@[simp] theorem mapError_ok (f : ε → ε') (a : α) : (Except.ok a).mapError f = .ok a := rfl

theorem eq_ok_of_mapError {x : Except ε α} {f : ε → ε'} {a : α} (h : x.mapError f = .ok a) :
    x = .ok a := by
  cases x with
  | error e => cases h
  | ok b =>
    cases h
    rfl

/-- What every step of a fold keeps holds at its end. -/
theorem foldlM_keeps {step : β → α → Except ε β} {P : β → Prop} {xs : List α}
    (keeps : ∀ x ∈ xs, ∀ {before after}, P before → step before x = .ok after → P after)
    {start done : β} (before : P start) (folded : xs.foldlM step start = .ok done) : P done := by
  induction xs generalizing start with
  | nil =>
    cases folded
    exact before
  | cons x xs ih =>
    rw [List.foldlM_cons] at folded
    obtain ⟨next, first, rest⟩ := bind_eq_ok_iff.1 folded
    exact ih (fun y hy => keeps y (List.mem_cons_of_mem _ hy))
      (keeps x List.mem_cons_self before first) rest

theorem forall_of_mapM {f : α → Except ε β} {P : β → Prop} {xs : List α}
    (each : ∀ x ∈ xs, ∀ {y}, f x = .ok y → P y) {ys : List β} (read : xs.mapM f = .ok ys) :
    ∀ y ∈ ys, P y := by
  induction xs generalizing ys with
  | nil =>
    cases read
    simp
  | cons x xs ih =>
    rw [List.mapM_cons] at read
    obtain ⟨y, first, read⟩ := bind_eq_ok_iff.1 read
    obtain ⟨others, rest, read⟩ := bind_eq_ok_iff.1 read
    cases read
    exact List.forall_mem_cons.2 ⟨each x List.mem_cons_self first,
      ih (fun z hz => each z (List.mem_cons_of_mem _ hz)) rest⟩

theorem mapM_map_eq_ok {f : β → Except ε α} {g : α → β} {xs : List α}
    (h : ∀ x ∈ xs, f (g x) = .ok x) : (xs.map g).mapM f = .ok xs := by
  induction xs with
  | nil => rfl
  | cons x xs ih =>
    rw [List.map_cons, List.mapM_cons, h x List.mem_cons_self,
      ih fun y hy => h y (List.mem_cons_of_mem _ hy)]
    rfl

end Except
