import Appliance.Proofs.Document.ClosedPorts
import Appliance.Proofs.Document.Content

/-! When the outcome of several layers has changed. What it says depends on no time. Its time is
decided by the last layer that makes it say what the layer says, which gives it the time of the
layer, or that makes it say something new, which stamps it; layers that do neither leave it. -/
namespace Appliance.Document

variable {base other : Document} {layers others : List (Document × Time)} {count : Nat}
  {layer : Document × Time}

theorem unite_congr_upper {upper higher : Document} (same : upper.content = higher.content)
    (base : Document) : base.unite upper = base.unite higher := by
  have united : base.unite upper.content = base.unite higher.content := by rw [same]
  exact united

theorem content_overlayAll_congr (below : base.content = other.content)
    (above : layers.map (·.1.content) = others.map (·.1.content)) :
    (base.overlayAll layers).content = (other.overlayAll others).content := by
  induction layers generalizing base other others with
  | nil =>
    obtain rfl := List.map_eq_nil_iff.1 above.symm
    exact below
  | cons layer layers ih =>
    cases others with
    | nil => exact nomatch above
    | cons first others =>
      obtain ⟨head, tail⟩ := List.cons.inj above
      have step : (base.overlay layer.1 layer.2).content =
          (other.overlay first.1 first.2).content := by
        rw [content_overlay, content_overlay, unite_congr below, unite_congr_upper head]
      exact @ih _ (other.overlay first.1 first.2) others step tail

theorem changed_overlay (base upper : Document) (now : Time) :
    (base.overlay upper now).changed =
      if (base.overlay upper now).content = upper.content then upper.changed
      else if (base.overlay upper now).content = base.content then base.changed
      else some now := by
  simp only [overlay, sameContent_iff]
  rfl

def afterLayers (base : Document) (layers : List (Document × Time)) (count : Nat) : Document :=
  base.overlayAll (layers.take count)

theorem afterLayers_of_length_le (h : layers.length ≤ count) :
    base.afterLayers layers count = base.overlayAll layers := by
  rw [afterLayers, List.take_of_length_le h]

theorem afterLayers_succ (there : layers[count]? = some layer) :
    base.afterLayers layers (count + 1) =
      (base.afterLayers layers count).overlay layer.1 layer.2 := by
  rw [afterLayers, List.take_add_one, there, overlayAll, List.foldl_append]
  rfl

/-- Does a layer decide when the outcome has changed? It does if it makes the outcome say what the
layer says, or something new. -/
def DatedAt (base : Document) (layers : List (Document × Time)) (count : Nat) : Prop :=
  ∃ layer, layers[count]? = some layer ∧
    ((base.afterLayers layers (count + 1)).content = layer.1.content ∨
      (base.afterLayers layers (count + 1)).content ≠ (base.afterLayers layers count).content)

theorem changed_afterLayers_succ_of_not_dated (undated : ¬ DatedAt base layers count) :
    (base.afterLayers layers (count + 1)).changed = (base.afterLayers layers count).changed := by
  rcases there : layers[count]? with _ | layer
  · have past := List.getElem?_eq_none_iff.1 there
    rw [afterLayers_of_length_le past, afterLayers_of_length_le (Nat.le_succ_of_le past)]
  · have ⟨notUpper, notNew⟩ := not_or.1 fun dated => undated ⟨layer, there, dated⟩
    rw [afterLayers_succ there] at notUpper notNew ⊢
    rw [changed_overlay, if_neg notUpper, if_pos (not_not.1 notNew)]

theorem changed_afterLayers_succ_of_dated (there : layers[count]? = some layer)
    (dated : DatedAt base layers count) :
    (base.afterLayers layers (count + 1)).changed =
      if (base.afterLayers layers (count + 1)).content = layer.1.content then layer.1.changed
      else some layer.2 := by
  obtain ⟨_, same, dated⟩ := dated
  obtain rfl := Option.some.inj (there.symm.trans same)
  rw [afterLayers_succ there] at dated ⊢
  rw [changed_overlay]
  by_cases upper : ((base.afterLayers layers count).overlay layer.1 layer.2).content =
      layer.1.content
  · rw [if_pos upper, if_pos upper]
  · rw [if_neg upper, if_neg upper, if_neg (dated.resolve_left upper)]

theorem changed_overlayAll_of_not_dated (start : Nat)
    (undated : ∀ later, start ≤ later → ¬ DatedAt base layers later) :
    (base.overlayAll layers).changed = (base.afterLayers layers start).changed := by
  have onward (steps : Nat) : (base.afterLayers layers (start + steps)).changed =
      (base.afterLayers layers start).changed := by
    induction steps with
    | zero => rfl
    | succ steps ih =>
      have step := changed_afterLayers_succ_of_not_dated (undated _ (Nat.le_add_right start steps))
      exact step.trans ih
  rw [← onward layers.length, afterLayers_of_length_le (Nat.le_add_left _ _)]

/-- What several layers come to says the same at whatever times they changed and were laid. It has
changed when the last layer that decides this says so: at the time of that layer if it says what the
layer says, else when the layer was laid; and if no layer decides, when the lowest document did. -/
theorem overlayAll_dated_by_last (base : Document) (layers : List (Document × Time)) :
    (∀ (other : Document) (others : List (Document × Time)), base.content = other.content →
      layers.map (·.1.content) = others.map (·.1.content) →
      ∀ count, (base.afterLayers layers count).content =
        (other.afterLayers others count).content) ∧
    (∀ (count : Nat) (layer : Document × Time), layers[count]? = some layer →
      DatedAt base layers count → (∀ later, count < later → ¬ DatedAt base layers later) →
      (base.overlayAll layers).changed =
        if (base.afterLayers layers (count + 1)).content = layer.1.content then layer.1.changed
        else some layer.2) ∧
    ((∀ count, ¬ DatedAt base layers count) →
      (base.overlayAll layers).changed = base.changed) := by
  refine ⟨fun other others below above count => ?_, fun count layer there dated last => ?_,
    fun undated => ?_⟩
  · refine content_overlayAll_congr below ?_
    rw [List.map_take, List.map_take, above]
  · rw [changed_overlayAll_of_not_dated (count + 1) last,
      changed_afterLayers_succ_of_dated there dated]
  · exact changed_overlayAll_of_not_dated 0 fun later _ => undated later

/-- The first layer says something new, the second all that the outcome says, the third nothing. The
third alone decides nothing, and without all times the outcomes say the same. -/
theorem overlayAll_dated_by_second_of_three :
    let base : Document := { package := { name := "gate" }, changed := some ⟨1⟩ }
    let first : Document := { machine := { cpus := 2 }, changed := some ⟨4⟩ }
    let second : Document :=
      { package := { name := "wall" }, machine := { cpus := 2 }, changed := some ⟨5⟩ }
    let layers := [(first, ⟨10⟩), (second, ⟨20⟩), ({}, ⟨30⟩)]
    let untimed := [(first.content, ⟨0⟩), (second.content, ⟨0⟩), ({}, ⟨0⟩)]
    (∀ count, (base.afterLayers layers count).content =
      (base.content.afterLayers untimed count).content) ∧
    DatedAt base layers 1 ∧ (∀ later, 1 < later → ¬ DatedAt base layers later) ∧
    (base.overlayAll layers).changed = some ⟨5⟩ ∧
    (∀ count, ¬ DatedAt base [({}, ⟨30⟩)] count) ∧
    (base.overlayAll [({}, ⟨30⟩)]).changed = some ⟨1⟩ := by
  intro base first second layers untimed
  have dated : DatedAt base layers 1 := ⟨_, rfl, .inl (by decide)⟩
  have last : ∀ later, 1 < later → ¬ DatedAt base layers later := by
    rintro later after ⟨layer, there, decides⟩
    obtain rfl : later = 2 := by
      have short : later < 3 := (List.getElem?_eq_some_iff.1 there).1
      omega
    obtain rfl := Option.some.inj there
    revert decides
    decide
  have undated : ∀ count, ¬ DatedAt base [({}, ⟨30⟩)] count := by
    rintro count ⟨layer, there, decides⟩
    obtain rfl : count = 0 := Nat.lt_one_iff.1 (List.getElem?_eq_some_iff.1 there).1
    obtain rfl := Option.some.inj there
    revert decides
    decide
  have said := (overlayAll_dated_by_last base layers).1 base.content untimed rfl rfl
  have time := (overlayAll_dated_by_last base layers).2.1 1 (second, ⟨20⟩) rfl dated last
  have old := (overlayAll_dated_by_last base [({}, ⟨30⟩)]).2.2 undated
  exact ⟨said, dated, last, time.trans (if_pos (by decide)), undated, old⟩

end Appliance.Document
