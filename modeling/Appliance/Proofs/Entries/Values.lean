import Appliance.Proofs.Entries.Distinct

/-! Lists of values, which is what lists of entries are once their marks are carried out, and what
becomes of a list of values when a list with marks is laid over it, once and once more. -/
namespace Appliance.Entries

def Values (entries : List Entry) : Prop :=
  (∀ e ∈ entries, e.isPlain = true) ∧ entries.Nodup

theorem mem_exclude {entry : Entry} {entries : List Entry} :
    entry ∈ exclude entries ↔
      entry ∈ entries ∧ entry.isPlain = true ∧ .exclude entry.text ∉ entries := by
  rw [exclude, List.mem_filter]
  cases entry <;> simp [Entry.isPlain, Entry.text]

theorem exclude_eq_filter (entries : List Entry) :
    exclude entries =
      entries.filter fun e => e.isPlain && !entries.contains (.exclude e.text) := by
  refine List.filter_congr fun e _ => ?_
  cases e <;> simp [Entry.isPlain, Entry.text]

theorem settle_values (lists : List (List Entry)) : Values (settle lists) :=
  ⟨exclude_plain _,
    ((nodup_eraseDups lists.flatten).sublist (retract_sublist _)).sublist List.filter_sublist⟩

theorem Values.isRetraction {entries : List Entry} (h : Values entries) :
    ∀ e ∈ entries, e.isRetraction = false :=
  fun e he => Entry.isRetraction_of_isPlain (h.1 e he)

theorem exclude_eq_self {entries : List Entry} (plain : ∀ e ∈ entries, e.isPlain = true) :
    exclude entries = entries := by
  rw [exclude_eq_filter, List.filter_eq_self]
  intro e he
  have notExcluded : Entry.exclude e.text ∉ entries := fun mem => by
    simpa [Entry.isPlain] using plain _ mem
  simp [plain e he, notExcluded]

theorem Values.settle_eq {entries : List Entry} (h : Values entries) :
    settle [entries] = entries := by
  rw [settle, layerDistinct, List.flatten_singleton, eraseDups_eq_self h.2,
    retract_eq_self h.isRetraction, exclude_eq_self h.1]

theorem settle_layerDistinct (lists : List (List Entry)) :
    settle [layerDistinct lists] = settle lists := by
  have distinct : (layerDistinct lists).Nodup :=
    (nodup_eraseDups lists.flatten).sublist (retract_sublist _)
  rw [settle, layerDistinct, List.flatten_singleton, eraseDups_eq_self distinct, layerDistinct,
    retract_retract, settle, layerDistinct]

/-- Does a value that stands below a list stay, once the list is laid over it? -/
def stays (upper : List Entry) (entry : Entry) : Bool :=
  !withdrawn entry (upper.eraseDups.filter (· ≠ entry)) &&
    !(layerDistinct [upper]).contains (.exclude entry.text)

section Overlay

variable {base upper : List Entry}

theorem withdrawn_added (values : Values base) {entry : Entry} (h : entry ∈ base) :
    withdrawn entry (upper.eraseDups.filter (· ∉ base)) =
      withdrawn entry (upper.eraseDups.filter (· ≠ entry)) := by
  have cut : upper.eraseDups.filter (· ∉ base) =
      (upper.eraseDups.filter (· ≠ entry)).filter (· ∉ base) := by
    rw [List.filter_filter]
    refine List.filter_congr fun x _ => ?_
    by_cases same : x = entry <;> simp [same, h]
  rw [cut]
  refine withdrawn_filter fun x hx inBase => ?_
  have mem : x ∈ base := by simpa using inBase
  have other : x ≠ entry := by simpa using (List.mem_filter.1 hx).2
  rw [Entry.eq_plain_of_isPlain (values.1 x mem),
    Entry.eq_plain_of_isPlain (values.1 entry h)] at other ⊢
  simp only [ne_eq, Entry.plain.injEq] at other
  simp [Entry.decides, Entry.spelling, other]

theorem retract_added (values : Values base) (spelled : ∀ e ∈ upper, e.WellSpelled) :
    retract (upper.eraseDups.filter (· ∉ base)) =
      (layerDistinct [upper]).filter (· ∉ base) := by
  rw [layerDistinct, List.flatten_singleton]
  refine retract_filter fun e he kept x hx gone => ?_
  have mem : x ∈ base := by simpa using gone
  have other : x ≠ e := by
    rintro rfl
    simp [mem] at kept
  have spelling : x.spelling ≠ e.spelling := fun same =>
    other ((spelled x (List.mem_eraseDups.1 hx)).eq_of_spelling
      (spelled e (List.mem_eraseDups.1 he)) same)
  have := values.1 x mem
  cases x <;> simp_all [Entry.decides, Entry.isPlain]

/-- Laid over a list of values, a list takes some of them out and adds its own values behind. -/
theorem settle_overlay (values : Values base) (spelled : ∀ e ∈ upper, e.WellSpelled) :
    settle [base, upper] =
      base.filter (stays upper) ++ (settle [upper]).filter (· ∉ base) := by
  have united : layerDistinct [base, upper] =
      base.filter (fun e => !withdrawn e (upper.eraseDups.filter (· ∉ base))) ++
        (layerDistinct [upper]).filter (· ∉ base) := by
    rw [layerDistinct, List.flatten_cons, List.flatten_singleton, eraseDups_append_eq,
      eraseDups_eq_self values.2,
      retract_append values.isRetraction (nodup_spelling_of_isPlain values.1 values.2),
      retract_added values spelled]
  have excluded : ∀ text, Entry.exclude text ∈ layerDistinct [base, upper] ↔
      Entry.exclude text ∈ layerDistinct [upper] := by
    intro text
    have notBase : Entry.exclude text ∉ base := fun mem => by
      simpa [Entry.isPlain] using values.1 _ mem
    simp [united, notBase]
  rw [settle, settle, exclude_eq_filter, exclude_eq_filter]
  simp only [List.contains_eq_mem, excluded]
  rw [united, List.filter_append, List.filter_filter, List.filter_comm]
  congr 1
  refine List.filter_congr fun e he => ?_
  rw [withdrawn_added values he]
  simp [stays, values.1 e he, Bool.and_comm]

theorem filter_append_eq_self_iff {entries added : List Entry} {keep : Entry → Bool}
    (fresh : ∀ e ∈ added, e ∉ entries) :
    entries.filter keep ++ added = entries ↔ (∀ e ∈ entries, keep e = true) ∧ added = [] := by
  constructor
  · intro same
    have nothing : added = [] := by
      refine List.eq_nil_iff_forall_not_mem.2 fun e he => fresh e he ?_
      rw [← same]
      exact List.mem_append_right _ he
    rw [nothing, List.append_nil, List.filter_eq_self] at same
    exact ⟨same, nothing⟩
  · rintro ⟨all, rfl⟩
    rw [List.append_nil, List.filter_eq_self.2 all]

theorem settle_settle_overlay_iff (values : Values base) (spelled : ∀ e ∈ upper, e.WellSpelled) :
    settle [settle [base, upper], upper] = settle [base, upper] ↔
      ∀ e ∈ settle [upper], stays upper e = true := by
  have once := settle_overlay values spelled
  have twice := settle_overlay (settle_values [base, upper]) spelled
  rw [twice, filter_append_eq_self_iff (by simp), List.filter_eq_nil_iff]
  constructor
  · rintro ⟨all, nothing⟩ e he
    exact all e (by simpa using nothing e he)
  · intro all
    refine ⟨fun e he => ?_, fun e he => ?_⟩
    · rw [once] at he
      rcases List.mem_append.1 he with below | above
      · exact (List.mem_filter.1 below).2
      · exact all e (List.mem_filter.1 above).1
    · rw [once]
      by_cases below : e ∈ base <;> simp [below, he, all e he]

theorem stays_iff (spelled : ∀ e ∈ upper, e.WellSpelled) {entry : Entry}
    (plain : entry.isPlain = true) (listed : entry ∈ upper)
    (notExcluded : .exclude entry.text ∉ layerDistinct [upper]) :
    stays upper entry = true ↔ .retract entry.text ∉ upper := by
  have unrepeated : ∀ e ∈ upper.eraseDups.filter (· ≠ entry), e.spelling ≠ entry.spelling := by
    intro e he same
    have ⟨mem, other⟩ := List.mem_filter.1 he
    have := (spelled e (List.mem_eraseDups.1 mem)).eq_of_spelling (spelled entry listed) same
    simp [this] at other
  have notSelf : Entry.retract entry.text ≠ entry := by
    rintro same
    rw [← same] at plain
    simp [Entry.isPlain] at plain
  have withdrawn_iff := withdrawn_iff_mem unrepeated
  rw [Entry.spelling_of_isPlain plain, List.mem_filter] at withdrawn_iff
  simp only [stays, List.contains_eq_mem, notExcluded, decide_false, Bool.not_false, Bool.and_true,
    Bool.not_eq_true', ← Bool.not_eq_true, withdrawn_iff, List.mem_eraseDups]
  simp [notSelf]

theorem stays_iff_of_mem_settle (spelled : ∀ e ∈ upper, e.WellSpelled) {entry : Entry}
    (h : entry ∈ settle [upper]) : stays upper entry = true ↔ .retract entry.text ∉ upper := by
  have ⟨left, plain, notExcluded⟩ := mem_exclude.1 h
  have listed : entry ∈ upper := by
    simpa [layerDistinct] using mem_of_mem_retract left
  exact stays_iff spelled plain listed notExcluded

/-- Does the list retract nothing that it comes to? -/
def Steady (entries : List Entry) : Prop :=
  ∀ text, .plain text ∈ settle [entries] → .retract text ∉ entries

theorem steady_iff {entries : List Entry} :
    Steady entries ↔ ∀ e ∈ settle [entries], .retract e.text ∉ entries := by
  constructor
  · intro steady e he
    have plain := Entry.eq_plain_of_isPlain ((settle_values [entries]).1 e he)
    exact steady e.text (plain ▸ he)
  · exact fun all text h => all _ h

instance (entries : List Entry) : Decidable (Steady entries) := decidable_of_iff _ steady_iff.symm

theorem settle_settle_overlay_iff_steady (values : Values base)
    (spelled : ∀ e ∈ upper, e.WellSpelled) :
    settle [settle [base, upper], upper] = settle [base, upper] ↔ Steady upper := by
  rw [settle_settle_overlay_iff values spelled, steady_iff]
  exact forall₂_congr fun e he => stays_iff_of_mem_settle spelled he

end Overlay
end Appliance.Entries
