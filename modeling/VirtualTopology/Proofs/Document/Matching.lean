import VirtualTopology.Document.Matching
import VirtualTopology.Proofs.Document.ReadBack

/-!
# A document meets itself

An element meets itself if no element in it gives an attribute twice (`isMet_self`); so a legible document,
once it is stored as it was written, never counts as changed (`documentsMatch_print`).
-/

namespace VirtualTopology

open Document

namespace Document

theorem lookup_of_mem_of_nodup {as : List (String × String)} (h : (as.map (·.1)).Nodup)
    {a : String × String} (ha : a ∈ as) : as.lookup a.1 = some a.2 := by
  induction as with
  | nil => exact absurd ha (by simp)
  | cons b bs ih =>
    rw [List.map_cons, List.nodup_cons] at h
    rw [List.lookup_cons]
    rcases List.mem_cons.1 ha with rfl | ha
    · simp
    · have hne : (a.1 == b.1) = false := by
        rw [beq_eq_false_iff_ne]
        intro he
        exact h.1 (List.mem_map.2 ⟨a, ha, he⟩)
      simpa [hne] using ih h.2 ha

/-- Elements that meet themselves meet themselves in order. -/
theorem metInOrder_self {es : List Element} (h : ∀ e ∈ es, e.isMet e = true) :
    metInOrder (es.map Element.isMet) es = true := by
  induction es with
  | nil => rfl
  | cons e es ih =>
    simp [metInOrder, h e (by simp), ih fun d hd => h d (by simp [hd])]

/-- Elements that meet themselves find themselves, each one the first that is left. -/
theorem metAnywhere_self {es : List Element} (h : ∀ e ∈ es, e.isMet e = true) :
    metAnywhere (es.map Element.isMet) es = true := by
  induction es with
  | nil => rfl
  | cons e es ih =>
    simp [metAnywhere, takeOut?, h e (by simp), ih fun d hd => h d (by simp [hd])]

theorem textMet_self (e : Element) : textMet e e = true := by simp [textMet]

theorem attributesMet_self {e : Element} (h : (e.attributes.map (·.1)).Nodup) :
    attributesMet e e = true := by
  have hmet : ∀ a ∈ e.attributes, attributeMet e.tag a.1 a.2 (e.attribute? a.1) = true := by
    intro a ha
    rw [Element.attribute?, lookup_of_mem_of_nodup h ha]
    simp [attributeMet]
  have howned : ∀ a, ((e.attribute? a).isSome || (e.attribute? a).isNone) = true := by
    intro a
    cases e.attribute? a <;> rfl
  simp only [attributesMet, Bool.and_eq_true, List.all_eq_true]
  exact ⟨hmet, fun a _ => howned a⟩

end Document

namespace Element

/-- An element in which no element gives an attribute twice. -/
inductive Unambiguous : Element → Prop where
  | mk {tag : String} {attributes : List (String × String)} {lead : String} {children : List Element}
      (nodup : (attributes.map (·.1)).Nodup) (inside : ∀ c ∈ children, Unambiguous c) :
      Unambiguous { tag, attributes, lead, children }

/-- **An unambiguous element meets itself.** -/
theorem isMet_self {e : Element} (h : e.Unambiguous) : e.isMet e = true := by
  induction h with
  | @mk tag attributes lead children hnodup _ ih =>
    have hchildren : ∀ t, childrenMet { tag, attributes, lead, children }
        { tag, attributes, lead, children } (children.map fun c => (c.tag, c.isMet)) t = true := by
      intro t
      have hwanted : (((children.map fun c => (c.tag, c.isMet)).filter (covers t ·.1)).map (·.2))
          = (children.filter (covers t ·.tag)).map isMet := by
        rw [List.filter_map, List.map_map]
        rfl
      have hself : ∀ c ∈ children.filter (covers t ·.tag), c.isMet c = true :=
        fun c hc => ih c (List.mem_of_mem_filter hc)
      simp only [childrenMet, hwanted, metInOrder_self hself, metAnywhere_self hself, Bool.or_true,
        ite_self]
    rw [isMet, childTests_eq_map]
    simp only [beq_self_eq_true, attributesMet_self (e := ⟨tag, attributes, lead, children⟩) hnodup,
      textMet_self, Bool.true_and, List.all_eq_true]
    exact fun t _ => hchildren t

theorem Legible.unambiguous_readBack {e : Element} (he : e.Legible) (indent : Nat) :
    (e.readBack indent).Unambiguous := by
  induction he generalizing indent with
  | @mk tag attributes lead children _ ha _ _ _ ih =>
    rw [readBack, readBackAll_eq_map]
    refine .mk ?_ ?_
    · have hmap : (flattenAll attributes).map (·.1) = attributes.map (·.1) := by simp [flattenAll]
      rw [hmap]
      exact ha.nodup
    · rw [List.forall_mem_map]
      exact fun c hc => ih c hc _

/-- **A written document meets itself.** -/
theorem Legible.documentsMatch_print {e : Element} (he : e.Legible) :
    documentsMatch e.print e.print = true := by
  simp [documentsMatch, he.read?_print, isMet_self (he.unambiguous_readBack 0)]

end Element

end VirtualTopology
