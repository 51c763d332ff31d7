import Appliance.Document.Overlay
import Appliance.Document.Text
import Appliance.Proofs.Document.Settled

/-! What a document says apart from when it changed. The content of an outcome depends on the
contents of what it is made of, and on no time. -/
namespace Appliance.Document

variable {a b : Document}

theorem sameContent_iff : a.sameContent b = true ↔ a.content = b.content := decide_eq_true_iff

theorem content_overlay (base upper : Document) (now : Time) :
    (base.overlay upper now).content = (base.unite upper).settle := rfl

theorem unite_congr (same : a.content = b.content) (upper : Document) :
    a.unite upper = b.unite upper := by
  have united : a.content.unite upper = b.content.unite upper := by rw [same]
  exact united

theorem toValue_content (doc : Document) : doc.content.toValue = doc.toValue := rfl

theorem digest_congr (same : a.content = b.content) : a.digest = b.digest := by
  rw [digest, digest, canonicalText, canonicalText, ← toValue_content a, same, toValue_content]

theorem toToml_congr (same : a.content = b.content) : a.toToml = b.toToml := by
  have printed : a.content.toToml = b.content.toToml := by rw [same]
  exact printed

/-- The time of an outcome is that of the upper document where it has its content. -/
theorem overlay_eq_upper {base upper : Document} (same : (base.unite upper).settle = upper.content)
    (now : Time) : base.overlay upper now = upper := by
  have stamped : (base.unite upper).settle.sameContent upper = true := by
    rw [sameContent_iff, same]
    rfl
  simp only [overlay, stamped, if_true]
  rw [same]
  rfl

theorem overlay_eq_base {base upper : Document} (other : base.content ≠ upper.content)
    (same : (base.unite upper).settle = base.content) (now : Time) :
    base.overlay upper now = base := by
  have notUpper : (base.unite upper).settle.sameContent upper = false := by
    rw [← Bool.not_eq_true, sameContent_iff, same]
    exact other
  have stamped : (base.unite upper).settle.sameContent base = true := by
    rw [sameContent_iff, same]
    rfl
  simp only [overlay, notUpper, stamped, Bool.false_eq_true, if_false, if_true]
  rw [same]
  rfl

end Appliance.Document
